import Hypertext.Proofs.Tokenizer.Openings
import Hypertext.Proofs.Tokenizer.RawText

/-!
# Where a token begins

A call reads over what gives no token, and then delivers what comes next. From the state and the
text ahead it can be told where that is: a token from markup is placed at the `<` there, and a
character that is text by itself is placed where it stands. Of other characters, as of those that
a reference stands for, the place is not told: they are delivered when the tokenizer is past them.
-/

namespace Hypertext.Tokenizer

variable {foreign : Bool} {s s' : State} {q : Position} {ahead rest : List Char}
  {t t' u : Tokenizer} {c x : Char} {p : PositionedToken}

/-! ## 1. What a call reads first -/

/-- What is passed over before a token begins, and the state in which it begins: an end tag without
a name, and in foreign content what opens and closes a section. -/
def passOver (foreign : Bool) : State → List Char → List Char × State
  | .data, '<' :: '/' :: '>' :: rest =>
    (passOver foreign .data rest).map (['<', '/', '>'] ++ ·) id
  | .data, '<' :: '!' :: '[' :: 'C' :: 'D' :: 'A' :: 'T' :: 'A' :: '[' :: rest =>
    if foreign then (passOver foreign .cdataSection rest).map ('<' :: '!' :: cdataOpening ++ ·) id
    else ([], .data)
  | .cdataSection, ']' :: ']' :: '>' :: rest =>
    (passOver foreign .data rest).map ([']', ']', '>'] ++ ·) id
  | .cdataSectionBracket, ']' :: '>' :: rest =>
    (passOver foreign .data rest).map ([']', '>'] ++ ·) id
  | .cdataSectionEnd, '>' :: rest => (passOver foreign .data rest).map (['>'] ++ ·) id
  | s, _ => ([], s)

/-- What a state delivers for a character that it reads as text, without looking at the
characters behind it. -/
def State.literal? : State → Char → Option Char
  | .data, c => if c = '<' ∨ c = '&' then none else some c
  | .text .rcdata, c => if c = '<' ∨ c = '&' then none else some (denull c)
  | .text _, c | .scriptDataEscapeStart, c | .scriptDataEscapeStartDash, c
  | .scriptDataEscapedDash, c | .scriptDataEscapedDashDash, c | .scriptDataDoubleEscapeStart, c =>
    if c = '<' then none else some (denull c)
  | .plaintext, c | .scriptDataDoubleEscaped, c | .scriptDataDoubleEscapedDash, c
  | .scriptDataDoubleEscapedDashDash, c | .scriptDataDoubleEscapedLessThanSign, c
  | .scriptDataDoubleEscapeEnd, c => some (denull c)
  | .cdataSection, c => if c = ']' then none else some c
  | _, _ => none

/-! ## 2. Steps from a place -/

/-- In a state, behind this place, with this text ahead; nothing waits. -/
structure StandsAt (foreign : Bool) (s : State) (q : Position) (ahead : List Char) (t : Tokenizer) :
    Prop where
  state : t.state = s
  ahead : t.input.ahead = ahead
  position : t.input.position = q
  pending : t.pending = []
  ended : t.ended = false
  foreign : t.foreign = foreign

/-- What has been read can be put back. -/
structure Backs (q : Position) (ahead : List Char) (t : Tokenizer) : Prop where
  ahead : t.input.pushBack.ahead = ahead
  position : t.input.pushBack.position = q

/-- One step reads the next character, if there is one, and can put it back. -/
theorem StandsAt.consume (h : StandsAt foreign s q ahead t) :
    StandsAt foreign s (ahead.head?.elim q q.advance) ahead.tail t.consume ∧
      Backs q ahead t.consume ∧ t.step = t.consume.handle ahead.head? := by
  have hpeek : t.input.peek = ahead.head? := congrArg List.head? h.ahead
  have hadvance : t.input.advance.position = ahead.head?.elim q q.advance := by
    rw [Cursor.advance, h.ahead, ← h.position]
    cases ahead <;> rfl
  obtain ⟨errors, heq, -⟩ := consume_eq_advance t
  rw [Tokenizer.step, hpeek, heq]
  refine ⟨⟨h.state, ?_, hadvance, h.pending, h.ended, h.foreign⟩, ⟨?_, ?_⟩, rfl⟩
  · show t.input.advance.ahead = ahead.tail
    rw [Cursor.ahead_advance, h.ahead]
  · exact (Cursor.pushBack_advance_ahead t.input).trans h.ahead
  · exact (Cursor.pushBack_advance_position t.input).trans h.position

theorem StandsAt.goes {Q : Tokenizer → Prop} (h : StandsAt foreign s q (c :: rest) t)
    (hQ : ∀ t', StandsAt foreign s (q.advance c) rest t' → Backs q (c :: rest) t' →
      Goes Q (t'.handle (some c))) : Goes Q t := by
  obtain ⟨hread, hback, hstep⟩ := h.consume
  exact .step h.pending h.ended (hstep ▸ hQ _ hread hback)

theorem StandsAt.switchTo (h : StandsAt foreign s q ahead t) (s' : State) :
    StandsAt foreign s' q ahead (t.switchTo s') :=
  ⟨rfl, h.ahead, h.position, h.pending, h.ended, h.foreign⟩

theorem StandsAt.report (h : StandsAt foreign s q ahead t) (kind : ErrorKind) :
    StandsAt foreign s q ahead (t.report kind) :=
  ⟨h.state, h.ahead, h.position, h.pending, h.ended, h.foreign⟩

theorem StandsAt.markStart (h : StandsAt foreign s q ahead t) :
    StandsAt foreign s q ahead t.markStart :=
  ⟨h.state, h.ahead, h.position, h.pending, h.ended, h.foreign⟩

theorem StandsAt.reconsumeIn {q' : Position} (h : StandsAt foreign s q' rest t)
    (hback : Backs q ahead t) (s' : State) : StandsAt foreign s' q ahead (t.reconsumeIn s') :=
  ⟨rfl, hback.ahead, hback.position, h.pending, h.ended, h.foreign⟩

theorem StandsAt.reconsumeInReturn {q' : Position} (h : StandsAt foreign s q' rest t)
    (hback : Backs q ahead t) :
    StandsAt foreign (t.returnState.getD .data) q ahead t.reconsumeInReturn :=
  ⟨rfl, hback.ahead, hback.position, h.pending, h.ended, h.foreign⟩

theorem Backs.report (h : Backs q ahead t) (kind : ErrorKind) : Backs q ahead (t.report kind) :=
  ⟨h.ahead, h.position⟩

/-! ### Over what gives no token -/

theorem goes_emptyEndTag (h : StandsAt foreign .data q ('<' :: '/' :: '>' :: rest) t) :
    Goes (StandsAt foreign .data (q.advanceBy ['<', '/', '>']) rest) t := by
  refine h.goes fun t h _ => ?_
  simp only [handle, h.state]
  refine (h.markStart.switchTo .tagOpen).goes fun t h _ => ?_
  simp only [handle, h.state]
  refine (h.switchTo .endTagOpen).goes fun t h _ => ?_
  simp only [handle, h.state]
  exact .here ((h.report .missingEndTagName).switchTo .data)

/-- Several characters are read at once where they are looked for together. -/
theorem StandsAt.skip (target : List Char) (h : StandsAt foreign s q (target ++ rest) t) :
    StandsAt foreign s (q.advanceBy target) rest { t with input := t.input.skip target } := by
  induction target generalizing q t with
  | nil => exact h
  | cons x target ih =>
    have hahead : t.input.ahead = x :: (target ++ rest) := h.ahead
    refine ih (q := q.advance x) (t := { t with input := t.input.advance })
      ⟨h.state, ?_, ?_, h.pending, h.ended, h.foreign⟩
    · show t.input.advance.ahead = target ++ rest
      rw [Cursor.ahead_advance, hahead]
      rfl
    · show t.input.advance.position = q.advance x
      rw [Cursor.advance, hahead, h.position]

theorem goes_sectionOpening (h : StandsAt true .data q ('<' :: '!' :: cdataOpening ++ rest) t) :
    Goes (StandsAt true .cdataSection (q.advanceBy ('<' :: '!' :: cdataOpening)) rest) t := by
  refine h.goes fun t h _ => ?_
  simp only [handle, h.state]
  refine (h.markStart.switchTo .tagOpen).goes fun t h _ => ?_
  simp only [handle, h.state]
  refine (h.switchTo .markupDeclarationOpen).goes fun t h hback => ?_
  have hopen : StandsAt true .markupDeclarationOpen ((q.advance '<').advance '!')
      (cdataOpening ++ rest) { t with input := t.input.pushBack } :=
    ⟨h.state, hback.ahead, hback.position, h.pending, h.ended, h.foreign⟩
  have hcomment : t.input.pushBack.startsWith commentOpening = false := by
    rw [Cursor.startsWith, hback.ahead]
    rfl
  have hdoctype : t.input.pushBack.startsWithIgnoringCase doctypeOpening = false := by
    rw [Cursor.startsWithIgnoringCase, hback.ahead]
    rfl
  have hsection : t.input.pushBack.startsWith cdataOpening = true := by
    rw [Cursor.startsWith, hback.ahead]
    rfl
  simp only [handle, h.state]
  simp only [markupDeclarationOpen, hcomment, hdoctype, hsection, Bool.false_eq_true, if_false,
    if_true]
  rw [if_pos h.foreign]
  exact .here ((hopen.skip cdataOpening).switchTo .cdataSection)

theorem goes_sectionEnd (h : StandsAt foreign .cdataSectionEnd q ('>' :: rest) t) :
    Goes (StandsAt foreign .data (q.advance '>') rest) t := by
  refine h.goes fun t h _ => ?_
  simp only [handle, h.state]
  exact .here (h.switchTo .data)

theorem goes_sectionBracket (h : StandsAt foreign .cdataSectionBracket q (']' :: ahead) t) :
    Goes (StandsAt foreign .cdataSectionEnd (q.advance ']') ahead) t := by
  refine h.goes fun t h _ => ?_
  simp only [handle, h.state]
  exact .here (h.switchTo .cdataSectionEnd)

theorem goes_section (h : StandsAt foreign .cdataSection q (']' :: ahead) t) :
    Goes (StandsAt foreign .cdataSectionBracket (q.advance ']') ahead) t := by
  refine h.goes fun t h _ => ?_
  simp only [handle, h.state]
  exact .here (h.switchTo .cdataSectionBracket)

/-- What gives no token has been passed over, and nothing of that kind comes next. -/
def Passed (foreign : Bool) (q : Position) (ahead : List Char) (passed : List Char × State)
    (t : Tokenizer) : Prop :=
  ∃ rest, ahead = passed.1 ++ rest ∧ passOver foreign passed.2 rest = ([], passed.2) ∧
    StandsAt foreign passed.2 (q.advanceBy passed.1) rest t

theorem Passed.prepend (piece : List Char) {passed : List Char × State}
    (h : Passed foreign (q.advanceBy piece) ahead passed t) :
    Passed foreign q (piece ++ ahead) (passed.map (piece ++ ·) id) t := by
  obtain ⟨rest, rfl, hpass, hstands⟩ := h
  refine ⟨rest, (List.append_assoc ..).symm, hpass, ?_⟩
  show StandsAt foreign passed.2 (q.advanceBy (piece ++ passed.1)) rest t
  rw [Position.advanceBy, List.foldl_append]
  exact hstands

theorem goes_passOver (h : StandsAt foreign s q ahead t) :
    Goes (Passed foreign q ahead (passOver foreign s ahead)) t := by
  fun_induction passOver foreign s ahead generalizing q t with
  | case1 rest ih =>
    exact ((goes_emptyEndTag h).trans fun _ => ih).trans fun _ h =>
      .here (h.prepend ['<', '/', '>'])
  | case2 rest hf ih =>
    subst hf
    exact ((goes_sectionOpening h).trans fun _ => ih).trans fun _ h =>
      .here (h.prepend ('<' :: '!' :: cdataOpening))
  | case3 rest hf => exact .here ⟨_, rfl, by simp [passOver, hf], h⟩
  | case4 rest ih =>
    have hclosed := (goes_section h).trans fun _ h => (goes_sectionBracket h).trans fun _ h =>
      goes_sectionEnd h
    exact (hclosed.trans fun _ => ih).trans fun _ h => .here (h.prepend [']', ']', '>'])
  | case5 rest ih =>
    have hclosed := (goes_sectionBracket h).trans fun _ h => goes_sectionEnd h
    exact (hclosed.trans fun _ => ih).trans fun _ h => .here (h.prepend [']', '>'])
  | case6 rest ih =>
    exact ((goes_sectionEnd h).trans fun _ => ih).trans fun _ h => .here (h.prepend ['>'])
  | case7 s ahead => exact .here ⟨_, rfl, by simp [passOver, *], h⟩

example : passOver true .data "</><![CDATA[]]><b>".toList = ("</><![CDATA[]]>".toList, .data) := by
  decide

/-! ## 3. What is delivered first -/

/-- A token from markup is placed at the `<` that comes next, and what stands between that and the
text that is left has been read for it. A character that is read as text is delivered where it
stands, with nothing else read for it. -/
structure Begins (q : Position) (s : State) (ahead : List Char) (p : PositionedToken)
    (left : List Char) : Prop where
  markup : p.token.isMarkup = true →
    p.position = q.advance '<' ∧ ∃ read, ahead = '<' :: (read ++ left)
  literal : ∀ c rest x, ahead = c :: rest → s.literal? c = some x →
    p = ⟨.character x, q.advance c⟩ ∧ left = rest

/-- A character has been delivered for the one that has just been read. -/
structure Says (x : Char) (t t' : Tokenizer) : Prop where
  pending : t'.pending = t.pending ++ [⟨.character x, t.input.position⟩]
  input : t'.input = t.input
  ended : t'.ended = t.ended
  state : t'.state.isPlain = true ∨ t'.state = .ambiguousAmpersand ∧ t'.inAttribute = false

/-- What the rule of a state for text makes of a character, or of the end of the input. -/
inductive TextStep (s : State) (t : Tokenizer) : Option Char → Tokenizer → Prop where
  | literal {c x : Char} {t' : Tokenizer} (hx : s.literal? c = some x) (h : Says x t t') :
    TextStep s t (some c) t'
  | markup {s' : State} (hx : s.literal? '<' = none)
    (hs : s = .data ∧ s' = .tagOpen ∨ ∃ kind, s' = .textLessThanSign kind) :
    TextStep s t (some '<') (t.markStart.switchTo s')
  | reference {s' : State} (hx : s.literal? '&' = none) (hs : s' = .data ∨ s' = .text .rcdata) :
    TextStep s t (some '&') (t.enterReference s')
  | last {t' : Tokenizer} (h : InText t') (hp : t'.pending ≠ []) : TextStep s t none t'

theorem textStep_end (hp : t'.pending = []) : TextStep s t none t'.emitEnd := by
  refine .last ⟨nofun, fun p hmem => ?_⟩ (pending_enqueue_ne _ _ _)
  have hmem : p ∈ t'.pending ++ [⟨.endOfFile, t'.input.position⟩] := hmem
  rw [hp, List.nil_append, List.mem_singleton] at hmem
  rw [hmem]
  rfl

theorem literal?_of_ne {next : Option Char} (h : next ≠ some '<')
    (hs : ∀ c, c ≠ '<' → s.literal? c = some (denull c)) :
    ∀ c, next = some c → s.literal? c = some (denull c) := fun c hc =>
  hs c fun hlt => h (hlt ▸ hc)

/-- A character that has a meaning is text as well. -/
theorem textStep_marked {next : Option Char} {x : Char} (hx : s.literal? x = some x)
    (hplain : s'.isPlain = true) (hnext : next = some x) :
    TextStep s t next ((t.switchTo s').emitChar x) := by
  subst hnext
  exact .literal hx ⟨rfl, rfl, rfl, Or.inl hplain⟩

section TextStep

variable {next : Option Char} (hp : t.pending = [])
include hp

theorem textStep_data (hs : t.state = .data) : TextStep .data t next (t.data next) := by
  cases next with
  | none => exact textStep_end hp
  | some c =>
    simp only [data]
    split_ifs with hamp hlt hnull
    · subst hamp
      exact .reference rfl (Or.inl rfl)
    · subst hlt
      exact .markup rfl (Or.inl ⟨rfl, rfl⟩)
    all_goals
      have hx : State.data.literal? c = some c := by simp [State.literal?, hamp, hlt]
    · exact .literal hx ⟨rfl, rfl, rfl, Or.inl (hs ▸ rfl)⟩
    · exact .literal hx ⟨rfl, rfl, rfl, Or.inl (hs ▸ rfl)⟩

theorem textStep_rawCharacter (hs : t.state = s) (hplain : s.isPlain = true)
    (hx : ∀ c, next = some c → s.literal? c = some (denull c)) :
    TextStep s t next (t.rawCharacter next) := by
  cases next with
  | none => exact textStep_end hp
  | some c =>
    have hx := hx c rfl
    simp only [rawCharacter]
    split_ifs with hnull
    · subst hnull
      exact .literal hx ⟨rfl, rfl, rfl, Or.inl (hs ▸ hplain)⟩
    · rw [denull_of_ne hnull] at hx
      exact .literal hx ⟨rfl, rfl, rfl, Or.inl (hs ▸ hplain)⟩

theorem textStep_escapedCharacter (hplain : s'.isPlain = true)
    (hx : ∀ c, next = some c → s.literal? c = some (denull c)) :
    TextStep s t next (t.escapedCharacter s' next) := by
  cases next with
  | none => exact textStep_end (show (t.report _).pending = [] from hp)
  | some c =>
    have hx := hx c rfl
    simp only [escapedCharacter]
    split_ifs with hnull
    · subst hnull
      exact .literal hx ⟨rfl, rfl, rfl, Or.inl hplain⟩
    · rw [denull_of_ne hnull] at hx
      exact .literal hx ⟨rfl, rfl, rfl, Or.inl hplain⟩

theorem textStep_text (kind : RawText) (hs : t.state = .text kind) :
    TextStep (.text kind) t next (t.text kind next) := by
  unfold Tokenizer.text
  split
  · next hlt =>
    subst hlt
    exact .markup (by cases kind <;> rfl) (Or.inr ⟨_, rfl⟩)
  · next hlt =>
    cases kind with
    | rcdata =>
      dsimp only
      split
      · next hamp =>
        subst hamp
        exact .reference rfl (Or.inr rfl)
      · next hamp =>
        refine textStep_rawCharacter hp hs rfl fun c hc => ?_
        subst hc
        simp only [Option.some.injEq] at hlt hamp
        simp [State.literal?, hlt, hamp]
    | rawtext | scriptData =>
      exact textStep_rawCharacter hp hs rfl (literal?_of_ne hlt fun c hc => if_neg hc)
    | scriptDataEscaped =>
      dsimp only
      split_ifs with hdash
      · exact textStep_marked rfl rfl hdash
      · exact textStep_escapedCharacter hp rfl (literal?_of_ne hlt fun c hc => if_neg hc)

theorem textStep_scriptDataEscapedDash :
    TextStep .scriptDataEscapedDash t next (t.scriptDataEscapedDash next) := by
  unfold scriptDataEscapedDash
  split_ifs with hdash hlt
  · exact textStep_marked rfl rfl hdash
  · subst hlt
    exact .markup rfl (Or.inr ⟨_, rfl⟩)
  · exact textStep_escapedCharacter hp rfl (literal?_of_ne hlt fun c hc => if_neg hc)

theorem textStep_scriptDataEscapedDashDash (hs : t.state = .scriptDataEscapedDashDash) :
    TextStep .scriptDataEscapedDashDash t next (t.scriptDataEscapedDashDash next) := by
  unfold scriptDataEscapedDashDash
  split_ifs with hdash hlt hclose
  · subst hdash
    exact .literal rfl ⟨rfl, rfl, rfl, Or.inl (hs ▸ rfl)⟩
  · subst hlt
    exact .markup rfl (Or.inr ⟨_, rfl⟩)
  · exact textStep_marked rfl rfl hclose
  · exact textStep_escapedCharacter hp rfl (literal?_of_ne hlt fun c hc => if_neg hc)

theorem textStep_scriptDataDoubleEscaped :
    TextStep .scriptDataDoubleEscaped t next (t.scriptDataDoubleEscaped next) := by
  unfold scriptDataDoubleEscaped
  split_ifs with hdash hlt
  · exact textStep_marked rfl rfl hdash
  · exact textStep_marked rfl rfl hlt
  · exact textStep_escapedCharacter hp rfl fun _ _ => rfl

theorem textStep_scriptDataDoubleEscapedDash :
    TextStep .scriptDataDoubleEscapedDash t next (t.scriptDataDoubleEscapedDash next) := by
  unfold scriptDataDoubleEscapedDash
  split_ifs with hdash hlt
  · exact textStep_marked rfl rfl hdash
  · exact textStep_marked rfl rfl hlt
  · exact textStep_escapedCharacter hp rfl fun _ _ => rfl

theorem textStep_scriptDataDoubleEscapedDashDash (hs : t.state = .scriptDataDoubleEscapedDashDash) :
    TextStep .scriptDataDoubleEscapedDashDash t next (t.scriptDataDoubleEscapedDashDash next) := by
  unfold scriptDataDoubleEscapedDashDash
  split_ifs with hdash hlt hclose
  · subst hdash
    exact .literal rfl ⟨rfl, rfl, rfl, Or.inl (hs ▸ rfl)⟩
  · exact textStep_marked rfl rfl hlt
  · exact textStep_marked rfl rfl hclose
  · exact textStep_escapedCharacter hp rfl fun _ _ => rfl

end TextStep

theorem textStep_cdataSection (hs : t.state = .cdataSection) {next : Option Char}
    (hp : t.pending = []) (hc : next ≠ some ']') :
    TextStep .cdataSection t next (t.cdataSection next) := by
  cases next with
  | none => exact textStep_end (show (t.report _).pending = [] from hp)
  | some c =>
    have hc : c ≠ ']' := fun h => hc (congrArg some h)
    simp only [cdataSection, if_neg hc]
    exact .literal (if_neg hc) ⟨rfl, rfl, rfl, Or.inl (hs ▸ rfl)⟩

/-! ## 4. Characters of which none is read as it stands -/

/-- Something waits, and nothing from markup. -/
structure Voices (t : Tokenizer) : Prop extends InText t where
  waits : t.pending ≠ []

theorem Pulls.voiced (hp : Pulls t p t') (h : Voices t) :
    p.token.isMarkup = false ∧ InText t' := by
  obtain ⟨q, waiting, hqueue⟩ := List.exists_cons_of_ne_nil h.waits
  obtain ⟨rfl, rfl⟩ := hp.unique (.queued hqueue)
  have hq := h.queue
  rw [hqueue] at hq
  exact ⟨(List.forall_mem_cons.1 hq).1, h.state, (List.forall_mem_cons.1 hq).2⟩

/-- Characters are delivered, and text is read next. -/
theorem Textual.voices (h : Textual ahead t) (hp : t.pending ≠ []) (hs : t.state.isPlain = true) :
    Voices t :=
  ⟨⟨fun _ => Or.inl hs, h.queue⟩, hp⟩

/-! ### References in text -/

/-- A reference was found in text, and nothing from markup waits. -/
structure RefersInText (t : Tokenizer) : Prop where
  outside : t.inAttribute = false
  returnState : ∀ s, t.returnState = some s → s.isHost = true
  queue : ∀ q ∈ t.pending, q.token.isMarkup = false

namespace RefersInText

variable (h : RefersInText t)
include h

theorem isPlain_return : (t.returnState.getD .data).isPlain = true := by
  have ha : ¬ t.inAttribute = true := by simp [h.outside]
  obtain hr | hr | ⟨kind, hr⟩ := returnState_cases h.returnState ha
  all_goals
    rw [hr]
    rfl

theorem switchToReturn (hp : t.pending ≠ []) : Voices t.switchToReturn :=
  ⟨⟨fun _ => Or.inl h.isPlain_return, h.queue⟩, hp⟩

theorem reconsumeInReturn (hp : t.pending ≠ []) : Voices t.reconsumeInReturn :=
  ⟨⟨fun _ => Or.inl h.isPlain_return, h.queue⟩, hp⟩

theorem ambiguous (hp : t.pending ≠ []) : Voices (t.switchTo .ambiguousAmpersand) :=
  ⟨⟨fun _ => Or.inr ⟨rfl, h.outside⟩, h.queue⟩, hp⟩

/-- What a reference stands for becomes text. -/
theorem deliver {cs : List Char} (hcs : cs ≠ []) :
    RefersInText (t.deliver cs) ∧ (t.deliver cs).pending ≠ [] := by
  have hchars : t.deliver cs = t.emitChars cs := by
    rw [Tokenizer.deliver, h.outside, if_neg Bool.false_ne_true]
  rw [hchars, emitChars_eq]
  refine ⟨⟨h.outside, h.returnState, fun q hq => ?_⟩, fun hnil => ?_⟩
  · obtain hq | hq := List.mem_append.1 hq
    · exact h.queue q hq
    · obtain ⟨c, -, rfl⟩ := List.mem_map.1 hq
      rfl
  · exact hcs (List.map_eq_nil_iff.1 (List.append_eq_nil_iff.1 hnil).2)

theorem input (input : Cursor) : RefersInText { t with input } :=
  ⟨h.outside, h.returnState, h.queue⟩

theorem buffer (buffer : List Char) : RefersInText { t with buffer } :=
  ⟨h.outside, h.returnState, h.queue⟩

theorem report (kind : ErrorKind) : RefersInText (t.report kind) :=
  ⟨h.outside, h.returnState, h.queue⟩

theorem resolve {cs : List Char} (hcs : cs ≠ []) : Voices (t.resolve cs).switchToReturn := by
  obtain ⟨hread, hwaits⟩ := (h.buffer cs).deliver hcs
  exact hread.switchToReturn hwaits

end RefersInText

/-- A reference that was found in text is being read, and what has been read of it is kept. -/
structure ReadsReference (t : Tokenizer) : Prop extends RefersInText t where
  pending : t.pending = []
  ended : t.ended = false
  state : t.state.zone? = none ∧ t.state ≠ .ambiguousAmpersand
  kept : t.state = .characterReference ∨ t.buffer ≠ []

theorem readsReference_enter (hs : s = .data ∨ s = .text .rcdata) (hp : t.pending = [])
    (he : t.ended = false) : ReadsReference (t.enterReference s) := by
  refine ⟨⟨?_, ?_, ?_⟩, hp, he, ⟨rfl, nofun⟩, Or.inl rfl⟩
  · obtain rfl | rfl := hs <;> rfl
  · rintro _ ⟨⟩
    obtain rfl | rfl := hs <;> rfl
  · show ∀ q ∈ t.pending, _
    rw [hp]
    nofun

section Reference

variable {next : Option Char} (h : RefersInText t)
include h

theorem voices_namedCharacterReference (hb : t.buffer ≠ []) :
    Voices t.namedCharacterReference := by
  unfold namedCharacterReference
  extract_lets t₁
  have h₁ : RefersInText t₁ := h.input _
  split
  · obtain ⟨hread, hwaits⟩ := h₁.deliver hb
    exact hread.ambiguous hwaits
  · next entry hentry =>
    have htext := Entity.text_ne_nil (Entity.longestMatch_eq_some hentry).1
    extract_lets t₂
    have h₂ : RefersInText t₂ := (h₁.input _).buffer _
    split_ifs with _ hvalue
    · exact h₂.resolve htext
    · rw [h₂.outside] at hvalue
      cases hvalue
    · exact (h₂.report _).resolve htext

theorem voices_numericReferenceEnd : Voices t.numericReferenceEnd := by
  unfold numericReferenceEnd
  dsimp only
  split
  · exact ((h.input _).report _).resolve nofun
  · exact (h.input _).resolve nofun

variable (hp : t.pending = []) (he : t.ended = false)
include hp he

theorem reads_characterReference :
    ReadsReference (t.characterReference next) ∨ Voices (t.characterReference next) := by
  unfold characterReference
  dsimp only
  split_ifs
  · exact Or.inl ⟨⟨h.outside, h.returnState, h.queue⟩, hp, he, ⟨rfl, nofun⟩, Or.inr nofun⟩
  · exact Or.inl ⟨⟨h.outside, h.returnState, h.queue⟩, hp, he, ⟨rfl, nofun⟩, Or.inr nofun⟩
  · obtain ⟨hread, hwaits⟩ := (h.buffer ['&']).deliver (List.cons_ne_nil '&' [])
    exact Or.inr (hread.reconsumeInReturn hwaits)

variable (hb : t.buffer ≠ [])
include hb

theorem reads_numericCharacterReference : ReadsReference (t.numericCharacterReference next) := by
  have hkept : ∀ x, t.buffer ++ [x] ≠ [] := fun x hnil => hb (List.append_eq_nil_iff.1 hnil).1
  unfold numericCharacterReference
  dsimp only
  split
  · exact ⟨⟨h.outside, h.returnState, h.queue⟩, hp, he, ⟨rfl, nofun⟩, Or.inr (hkept _)⟩
  · exact ⟨⟨h.outside, h.returnState, h.queue⟩, hp, he, ⟨rfl, nofun⟩, Or.inr (hkept _)⟩
  · exact ⟨⟨h.outside, h.returnState, h.queue⟩, hp, he, ⟨rfl, nofun⟩, Or.inr hb⟩

theorem reads_numericReferenceStart (radix : Radix) :
    ReadsReference (t.numericReferenceStart radix next) ∨
      Voices (t.numericReferenceStart radix next) := by
  unfold numericReferenceStart
  split_ifs
  · exact Or.inl ⟨⟨h.outside, h.returnState, h.queue⟩, hp, he, ⟨rfl, nofun⟩, Or.inr hb⟩
  · obtain ⟨hread, hwaits⟩ := (h.report .absenceOfDigitsInNumericCharacterReference).deliver hb
    exact Or.inr (hread.reconsumeInReturn hwaits)

theorem reads_numericReferenceDigits {radix : Radix}
    (hs : t.state = .numericReferenceDigits radix) :
    ReadsReference (t.numericReferenceDigits radix next) := by
  unfold numericReferenceDigits
  split
  · exact ⟨⟨h.outside, h.returnState, h.queue⟩, hp, he, ⟨hs ▸ rfl, hs ▸ nofun⟩, Or.inr hb⟩
  · split_ifs
    · exact ⟨⟨h.outside, h.returnState, h.queue⟩, hp, he, ⟨rfl, nofun⟩, Or.inr hb⟩
    · exact ⟨⟨h.outside, h.returnState, h.queue⟩, hp, he, ⟨rfl, nofun⟩, Or.inr hb⟩

end Reference

theorem ReadsReference.step (h : ReadsReference t) : ReadsReference t.step ∨ Voices t.step := by
  obtain ⟨errors, heq, -⟩ := consume_eq_advance t
  have hread : RefersInText t.consume := by
    rw [heq]
    exact ⟨h.outside, h.returnState, h.queue⟩
  have hpending : t.consume.pending = [] := by
    rw [heq]
    exact h.pending
  have hended : t.consume.ended = false := by
    rw [heq]
    exact h.ended
  have hstate : t.consume.state = t.state := by rw [heq]
  have hkept (hs : t.state ≠ .characterReference) : t.consume.buffer ≠ [] :=
    buffer_consume t ▸ h.kept.resolve_left hs
  unfold Tokenizer.step
  rw [handle, hstate]
  cases hs : t.state with
  | characterReference => exact reads_characterReference hread hpending hended
  | namedCharacterReference =>
    have hb := hkept (by simp [hs])
    exact Or.inr (voices_namedCharacterReference hread hb)
  | ambiguousAmpersand => exact absurd hs h.state.2
  | numericCharacterReference =>
    have hb := hkept (by simp [hs])
    exact Or.inl (reads_numericCharacterReference hread hpending hended hb)
  | numericReferenceStart radix =>
    have hb := hkept (by simp [hs])
    exact reads_numericReferenceStart hread hpending hended hb radix
  | numericReferenceDigits radix =>
    have hb := hkept (by simp [hs])
    exact Or.inl (reads_numericReferenceDigits hread hpending hended hb (hstate.trans hs))
  | numericReferenceEnd => exact Or.inr (voices_numericReferenceEnd hread)
  | _ =>
    have hzone := h.state.1
    rw [hs] at hzone
    cases hzone

/-- A reference in text gives characters. -/
theorem Pulls.referred (hp : Pulls t p t') (h : ReadsReference t ∨ Voices t) :
    p.token.isMarkup = false ∧ InText t' := by
  induction hp with
  | queued hp =>
    obtain h | h := h
    · rw [h.pending] at hp
      cases hp
    · exact Pulls.voiced (.queued hp) h
  | ended hp he =>
    obtain h | h := h
    · rw [h.ended] at he
      cases he
    · exact Pulls.voiced (.ended hp he) h
  | step hp he hpulls ih =>
    obtain h | h := h
    · exact ih h.step
    · exact Pulls.voiced (.step hp he hpulls) h

/-! ## 5. One call -/

/-- A call delivers what begins here, and text is read next. -/
structure Begun (q : Position) (s : State) (ahead : List Char) (p : PositionedToken)
    (t' : Tokenizer) : Prop where
  begins : Begins q s ahead p t'.input.ahead
  inText : InText t'

theorem StandsAt.midway (h : StandsAt foreign s q ahead t) (ht : Between t ∨ Midway t) :
    Midway t := ht.elim (fun hb => hb.midway h.pending h.ended) id

theorem StandsAt.since {start : Position} (h : StandsAt foreign s q ahead t)
    (hstart : t.tokenStart = start) : Since start ahead t :=
  ⟨h.pending, h.ended, hstart, h.ahead ▸ List.suffix_rfl⟩

/-- Nothing but characters is delivered, none of them as it stands. -/
theorem begun_of_chars (hp : p.token.isMarkup = false ∧ InText t')
    (hx : ∀ c rest, ahead = c :: rest → s.literal? c = none) : Begun q s ahead p t' := by
  refine ⟨⟨fun hm => ?_, fun c rest x hahead hlit => ?_⟩, hp.2⟩
  · rw [hp.1] at hm
    cases hm
  · rw [hx c rest hahead] at hlit
    cases hlit

theorem Says.begun {waits : State} (h : Says x t u)
    (ht : StandsAt foreign waits (q.advance c) rest t)
    (hx : s.literal? c = some x) (hp : Pulls u p t') : Begun q s (c :: rest) p t' := by
  have hqueue : u.pending = [⟨.character x, t.input.position⟩] := by
    rw [h.pending, ht.pending, List.nil_append]
  obtain ⟨rfl, rfl⟩ := hp.unique (.queued hqueue)
  refine ⟨⟨nofun, fun c' rest' x' hahead hx' => ?_⟩, fun _ => h.state, nofun⟩
  cases hahead
  rw [hx] at hx'
  cases hx'
  rw [ht.position]
  exact ⟨rfl, (congrArg Cursor.ahead h.input).trans ht.ahead⟩

/-- What comes of a `<` that opens something. -/
theorem begun_of_pursues (h : Pursues (q.advance '<') rest t ∨ Concluded (q.advance '<') rest t)
    (ht : Between t ∨ Midway t) (hx : s.literal? '<' = none) (hp : Pulls t p t') :
    Begun q s ('<' :: rest) p t' := by
  obtain ⟨hstart, ⟨read, hread⟩, htext⟩ := hp.opened ht h
  refine ⟨⟨fun hm => ⟨hstart hm, read, congrArg ('<' :: ·) hread.symm⟩, ?_⟩, htext⟩
  rintro c rest' x hahead hlit
  cases hahead
  rw [hx] at hlit
  cases hlit

/-- What a step makes of a `<` decides what a call delivers. -/
theorem begun_of_proceeds (h : Midway t) (hstep : Proceeds (q.advance '<') rest t.step)
    (hx : s.literal? '<' = none) (hp : Pulls t p t') : Begun q s ('<' :: rest) p t' :=
  begun_of_pursues hstep.cases h.step hx (hp.of_step h.pending h.ended)

theorem not_emptyEndTag (h : passOver foreign .data ('<' :: '/' :: ahead) = ([], .data)) :
    ahead.head? ≠ some '>' := by
  intro hc
  obtain ⟨rest, rfl⟩ := List.head?_eq_some_iff.1 hc
  rw [passOver] at h
  cases congrArg Prod.fst h

theorem not_sectionOpening (h : passOver true .data ('<' :: '!' :: ahead) = ([], .data)) :
    cdataOpening.isPrefixOf ahead = false := by
  by_contra hc
  obtain ⟨rest, rfl⟩ := List.isPrefixOf_iff_prefix.1 (Bool.not_eq_false _ ▸ hc)
  cases congrArg Prod.fst h

/-- If a step only goes on to another state, the next one decides. -/
theorem begun_of_switched {waits : State}
    (h : StandsAt foreign waits (q.advance '<') (c :: rest) t)
    (hstart : t.tokenStart = q.advance '<') (ht : Midway t)
    (hstep : t.step = t.consume.switchTo s')
    (hnext : ∀ u, StandsAt foreign s' ((q.advance '<').advance c) rest u →
      Since (q.advance '<') (c :: rest) u → Proceeds (q.advance '<') (c :: rest) u.step)
    (hx : s.literal? '<' = none) (hp : Pulls t p t') : Begun q s ('<' :: c :: rest) p t' := by
  obtain ⟨hread, -, -⟩ := h.consume
  have hopen := hstep ▸ hread.switchTo s'
  have hsince : Since (q.advance '<') (c :: rest) t.step :=
    hstep ▸ ((h.since hstart).consume.switchTo s').since
  exact begun_of_proceeds (hopen.midway ht.step) (hnext _ hopen hsince) hx
    (hp.of_step h.pending h.ended)

/-- Behind a `<` in text with markup, unless it begins what gives no token. -/
theorem begun_of_tagOpen (h : StandsAt foreign .tagOpen (q.advance '<') rest t)
    (hstart : t.tokenStart = q.advance '<') (ht : Midway t)
    (hpass : passOver foreign .data ('<' :: rest) = ([], .data)) (hp : Pulls t p t') :
    Begun q .data ('<' :: rest) p t' := by
  obtain ⟨hread, -, hstep⟩ := h.consume
  simp only [handle, hread.state] at hstep
  have hopening := (h.since hstart).consume
  obtain hproceeds | ⟨hc, hdeclaration⟩ | ⟨hc, hend⟩ := proceeds_tagOpen hopening (c := rest.head?)
  · exact begun_of_proceeds ht (hstep ▸ hproceeds) rfl hp
  · obtain ⟨ahead, rfl⟩ := List.head?_eq_some_iff.1 hc
    refine begun_of_switched h hstart ht (hstep.trans hdeclaration) (fun u hu hsince => ?_) rfl hp
    obtain ⟨hread, hback, hstep⟩ := hu.consume
    simp only [handle, hread.state] at hstep
    refine hstep ▸ proceeds_markupDeclarationOpen hsince.consume fun hforeign => ?_
    rw [hread.foreign] at hforeign
    subst hforeign
    rw [Cursor.startsWith, hback.ahead]
    exact not_sectionOpening hpass
  · obtain ⟨ahead, rfl⟩ := List.head?_eq_some_iff.1 hc
    refine begun_of_switched h hstart ht (hstep.trans hend) (fun u hu hsince => ?_) rfl hp
    obtain ⟨hread, -, hstep⟩ := hu.consume
    simp only [handle, hread.state] at hstep
    exact hstep ▸ proceeds_endTagOpen hsince.consume (not_emptyEndTag hpass)

/-- In a state that reads text as it stands one step decides. -/
theorem begun_of_textStep (h : StandsAt foreign s q ahead t) (ht : Midway t)
    (hpass : passOver foreign s ahead = ([], s)) (hstep : TextStep s t.consume ahead.head? t.step)
    (hp : Pulls t p t') : Begun q s ahead p t' := by
  obtain ⟨hread, -, -⟩ := h.consume
  have hmid := ht.step
  replace hp := hp.of_step h.pending h.ended
  generalize t.step = u at hstep hmid hp
  cases ahead with
  | nil =>
    cases hstep with
    | last hu hwaits => exact begun_of_chars (hp.voiced ⟨hu, hwaits⟩) nofun
  | cons c rest =>
    cases hstep with
    | literal hx hsays => exact hsays.begun hread hx hp
    | markup hx hs =>
      have hmark := hread.markStart
      obtain ⟨rfl, rfl⟩ | ⟨kind, rfl⟩ := hs
      · have htag := hmark.switchTo .tagOpen
        exact begun_of_tagOpen htag hread.position (htag.midway hmid) hpass hp
      · have hless := hmark.switchTo (.textLessThanSign kind)
        have hsince : Since (q.advance '<') rest _ := hless.since hread.position
        exact begun_of_pursues (Or.inl ⟨hsince, Or.inr rfl⟩) hmid hx hp
    | reference hx hs =>
      refine begun_of_chars
        (hp.referred (Or.inl (readsReference_enter hs hread.pending hread.ended))) ?_
      rintro c' rest' hahead
      cases hahead
      exact hx

/-! ### State by state -/

section Place

variable (hp : Pulls t p t')
include hp

theorem chars_sectionEnd (h : StandsAt foreign .cdataSectionEnd q ahead t)
    (hc : ahead.head? ≠ some '>') : p.token.isMarkup = false ∧ InText t' := by
  obtain ⟨hread, -, hstep⟩ := h.consume
  have htext := (h.since rfl).consume.textual
  simp only [handle, hread.state, cdataSectionEnd] at hstep
  rw [if_neg hc] at hstep
  refine (hp.of_step h.pending h.ended).voiced (hstep ▸ ?_)
  split_ifs
  · exact (htext.emitChar ']').voices (pending_enqueue_ne _ _ _) (hread.state ▸ rfl)
  · exact (((htext.emitChar ']').emitChar ']').reconsumeIn _).voices (pending_enqueue_ne _ _ _) rfl

theorem chars_sectionBracket (h : StandsAt foreign .cdataSectionBracket q ahead t)
    (hc : ∀ rest, ahead ≠ ']' :: '>' :: rest) : p.token.isMarkup = false ∧ InText t' := by
  obtain ⟨hread, -, hstep⟩ := h.consume
  have htext := (h.since rfl).consume.textual
  replace hp := hp.of_step h.pending h.ended
  simp only [handle, hread.state, cdataSectionBracket] at hstep
  split_ifs at hstep with hbracket
  · have hend := hstep ▸ hread.switchTo .cdataSectionEnd
    refine chars_sectionEnd hp hend fun hclose => ?_
    obtain ⟨ahead, rfl⟩ := List.head?_eq_some_iff.1 hbracket
    obtain ⟨rest, rfl⟩ := List.head?_eq_some_iff.1 hclose
    exact hc rest rfl
  · refine hp.voiced (hstep ▸ ?_)
    exact ((htext.emitChar ']').reconsumeIn _).voices (pending_enqueue_ne _ _ _) rfl

variable (ht : Midway t)
include ht

theorem begun_text {kind : RawText} (h : StandsAt foreign (.text kind) q ahead t) :
    Begun q (.text kind) ahead p t' := by
  obtain ⟨hread, -, hstep⟩ := h.consume
  simp only [handle, hread.state] at hstep
  exact begun_of_textStep h ht (by simp [passOver])
    (hstep ▸ textStep_text hread.pending kind hread.state) hp

theorem begun_doubleEscaped (h : StandsAt foreign .scriptDataDoubleEscaped q ahead t) :
    Begun q .scriptDataDoubleEscaped ahead p t' := by
  obtain ⟨hread, -, hstep⟩ := h.consume
  simp only [handle, hread.state] at hstep
  exact begun_of_textStep h ht (by simp [passOver])
    (hstep ▸ textStep_scriptDataDoubleEscaped hread.pending) hp

/-- Where a character has no meaning, it is read once more as text. -/
theorem begun_of_back (h : StandsAt foreign s q ahead t)
    (hs : s' = .scriptDataDoubleEscaped ∨ ∃ kind, s' = .text kind)
    (hstep : t.step = t.consume.reconsumeIn s')
    (hx : ∀ c, ahead.head? = some c → s.literal? c = s'.literal? c) : Begun q s ahead p t' := by
  obtain ⟨hread, hback, -⟩ := h.consume
  have hagain := hstep ▸ hread.reconsumeIn hback s'
  have hmid := hagain.midway ht.step
  replace hp := hp.of_step h.pending h.ended
  have hbegun : Begun q s' ahead p t' := by
    obtain rfl | ⟨kind, rfl⟩ := hs
    · exact begun_doubleEscaped hp hmid hagain
    · exact begun_text hp hmid hagain
  refine ⟨⟨hbegun.begins.markup, fun c rest x hahead hlit => ?_⟩, hbegun.inText⟩
  rw [hx c (congrArg List.head? hahead)] at hlit
  exact hbegun.begins.literal c rest x hahead hlit

theorem begun_escapeStart (h : StandsAt foreign .scriptDataEscapeStart q ahead t) :
    Begun q .scriptDataEscapeStart ahead p t' := by
  obtain ⟨hread, -, hstep⟩ := h.consume
  simp only [handle, hread.state, scriptDataEscapeStart] at hstep
  split_ifs at hstep with hdash
  · exact begun_of_textStep h ht (by simp [passOver]) (hstep ▸ textStep_marked rfl rfl hdash) hp
  · exact begun_of_back hp ht h (Or.inr ⟨_, rfl⟩) hstep fun _ _ => rfl

theorem begun_escapeStartDash (h : StandsAt foreign .scriptDataEscapeStartDash q ahead t) :
    Begun q .scriptDataEscapeStartDash ahead p t' := by
  obtain ⟨hread, -, hstep⟩ := h.consume
  simp only [handle, hread.state, scriptDataEscapeStartDash] at hstep
  split_ifs at hstep with hdash
  · exact begun_of_textStep h ht (by simp [passOver]) (hstep ▸ textStep_marked rfl rfl hdash) hp
  · exact begun_of_back hp ht h (Or.inr ⟨_, rfl⟩) hstep fun _ _ => rfl

theorem begun_doubleEscapedLessThanSign
    (h : StandsAt foreign .scriptDataDoubleEscapedLessThanSign q ahead t) :
    Begun q .scriptDataDoubleEscapedLessThanSign ahead p t' := by
  obtain ⟨hread, -, hstep⟩ := h.consume
  simp only [handle, hread.state, scriptDataDoubleEscapedLessThanSign] at hstep
  split_ifs at hstep with hslash
  · refine begun_of_textStep h ht (by simp [passOver]) (hstep ▸ ?_) hp
    rw [hslash]
    exact .literal rfl ⟨rfl, rfl, rfl, Or.inl rfl⟩
  · exact begun_of_back hp ht h (Or.inl rfl) hstep fun _ _ => rfl

/-- The end of a name in escaped script data. -/
theorem begun_boundary {s₁ s₂ : State} (h : StandsAt foreign s q ahead t)
    (hplain : s.isPlain = true) (hpass : passOver foreign s ahead = ([], s))
    (hplain₁ : s₁.isPlain = true) (hs₂ : s₂ = .scriptDataDoubleEscaped ∨ ∃ kind, s₂ = .text kind)
    (hstep : t.step = t.consume.doubleEscapeBoundary s₁ s₂ ahead.head?)
    (hx : ∀ c, c ≠ '<' → s.literal? c = some (denull c))
    (hx₂ : ∀ c, s.literal? c = s₂.literal? c) : Begun q s ahead p t' := by
  obtain ⟨hread, -, -⟩ := h.consume
  have hplain₂ : s₂.isPlain = true := by obtain rfl | ⟨kind, rfl⟩ := hs₂ <;> rfl
  cases ahead with
  | nil => exact begun_of_back hp ht h hs₂ hstep nofun
  | cons c rest =>
    have hgive : c ≠ '<' ∧ c ≠ '\x00' → Says c t.consume t.step → Begun q s (c :: rest) p t' :=
      fun hc hsays => by
        have hlit := hx c hc.1
        rw [denull_of_ne hc.2] at hlit
        exact begun_of_textStep h ht hpass (.literal hlit hsays) hp
    have hends : (Ascii.isBlank c || c == '/' || c == '>') = true → c ≠ '<' ∧ c ≠ '\x00' := by
      intro hends
      refine ⟨?_, ?_⟩ <;> rintro rfl <;> cases hends
    simp only [List.head?_cons, doubleEscapeBoundary] at hstep
    split_ifs at hstep with hclose hscript halpha
    · exact hgive (hends hclose) (hstep ▸ ⟨rfl, rfl, rfl, Or.inl hplain₁⟩)
    · exact hgive (hends hclose) (hstep ▸ ⟨rfl, rfl, rfl, Or.inl hplain₂⟩)
    · obtain ⟨hlt, -, -, hnull⟩ := ne_of_isAlpha halpha
      exact hgive ⟨hlt, hnull⟩ (hstep ▸ ⟨rfl, rfl, rfl, Or.inl (hread.state ▸ hplain)⟩)
    · exact begun_of_back hp ht h hs₂ hstep fun c _ => hx₂ c

/-! ### Sections -/

theorem begun_section (h : StandsAt foreign .cdataSection q ahead t)
    (hpass : passOver foreign .cdataSection ahead = ([], .cdataSection)) :
    Begun q .cdataSection ahead p t' := by
  obtain ⟨hread, -, hstep⟩ := h.consume
  simp only [handle, hread.state] at hstep
  by_cases hbracket : ahead.head? = some ']'
  · obtain ⟨ahead, rfl⟩ := List.head?_eq_some_iff.1 hbracket
    have hopen : StandsAt foreign .cdataSectionBracket (q.advance ']') ahead t.step := by
      rw [hstep]
      exact hread.switchTo .cdataSectionBracket
    refine begun_of_chars (chars_sectionBracket (hp.of_step h.pending h.ended)
      hopen fun rest hclose => ?_) ?_
    · rw [hclose] at hpass
      cases congrArg Prod.fst hpass
    · rintro c rest hahead
      cases hahead
      rfl
  · exact begun_of_textStep h ht hpass
      (hstep ▸ textStep_cdataSection hread.state hread.pending hbracket) hp

/-- In a state for text a call delivers what begins next. -/
theorem begun_of_isPlain (h : StandsAt foreign s q ahead t) (hs : s.isPlain = true)
    (hpass : passOver foreign s ahead = ([], s)) : Begun q s ahead p t' := by
  obtain ⟨hread, -, hstep⟩ := h.consume
  simp only [handle, hread.state] at hstep
  cases s with
  | data => exact begun_of_textStep h ht hpass (hstep ▸ textStep_data hread.pending hread.state) hp
  | plaintext =>
    exact begun_of_textStep h ht hpass
      (hstep ▸ textStep_rawCharacter hread.pending hread.state rfl fun _ _ => rfl) hp
  | text kind => exact begun_text hp ht h
  | scriptDataEscapeStart => exact begun_escapeStart hp ht h
  | scriptDataEscapeStartDash => exact begun_escapeStartDash hp ht h
  | scriptDataEscapedDash =>
    exact begun_of_textStep h ht hpass (hstep ▸ textStep_scriptDataEscapedDash hread.pending) hp
  | scriptDataEscapedDashDash =>
    exact begun_of_textStep h ht hpass
      (hstep ▸ textStep_scriptDataEscapedDashDash hread.pending hread.state) hp
  | scriptDataDoubleEscapeStart =>
    exact begun_boundary hp ht h hs hpass rfl (Or.inr ⟨_, rfl⟩) hstep (fun _ hc => if_neg hc)
      fun _ => rfl
  | scriptDataDoubleEscaped => exact begun_doubleEscaped hp ht h
  | scriptDataDoubleEscapedDash =>
    exact begun_of_textStep h ht hpass
      (hstep ▸ textStep_scriptDataDoubleEscapedDash hread.pending) hp
  | scriptDataDoubleEscapedDashDash =>
    exact begun_of_textStep h ht hpass
      (hstep ▸ textStep_scriptDataDoubleEscapedDashDash hread.pending hread.state) hp
  | scriptDataDoubleEscapedLessThanSign => exact begun_doubleEscapedLessThanSign hp ht h
  | scriptDataDoubleEscapeEnd =>
    exact begun_boundary hp ht h hs hpass rfl (Or.inl rfl) hstep (fun _ _ => rfl) fun _ => rfl
  | cdataSection => exact begun_section hp ht h hpass
  | cdataSectionBracket =>
    refine begun_of_chars (chars_sectionBracket hp h fun rest hclose => ?_) fun _ _ _ => rfl
    rw [hclose] at hpass
    cases congrArg Prod.fst hpass
  | cdataSectionEnd =>
    refine begun_of_chars (chars_sectionEnd hp h fun hclose => ?_) fun _ _ _ => rfl
    obtain ⟨rest, rfl⟩ := List.head?_eq_some_iff.1 hclose
    cases congrArg Prod.fst hpass
  | _ => cases hs

end Place

/-! ### After what is passed over -/

theorem isPlain_passOver (foreign : Bool) (ahead : List Char) (hs : s.isPlain = true) :
    (passOver foreign s ahead).2.isPlain = true := by
  fun_induction passOver foreign s ahead with
  | case1 _ ih | case2 _ _ ih | case4 _ ih | case5 _ ih | case6 _ ih => exact ih rfl
  | case3 => rfl
  | case7 => exact hs

/-- A call delivers what begins behind what gives no token. -/
def BegunPast (foreign : Bool) (s : State) (q : Position) (ahead : List Char)
    (p : PositionedToken) (t' : Tokenizer) : Prop :=
  ∃ rest, ahead = (passOver foreign s ahead).1 ++ rest ∧
    Begun (q.advanceBy (passOver foreign s ahead).1) (passOver foreign s ahead).2 rest p t'

theorem begunPast_of_isPlain (h : StandsAt foreign s q ahead t) (hs : s.isPlain = true)
    (ht : Between t ∨ Midway t) (hp : Pulls t p t') : BegunPast foreign s q ahead p t' := by
  obtain ⟨t₁, ⟨⟨rest, hahead, hpass, hstands⟩, hmid⟩, hpulls⟩ :=
    ((goes_passOver h).midway ht).exists_pulls hp
  exact ⟨rest, hahead, begun_of_isPlain hpulls (hstands.midway hmid) hstands
    (isPlain_passOver foreign ahead hs) hpass⟩

theorem ne_of_isAlphanum (h : c.isAlphanum = true) : c ≠ '<' ∧ c ≠ '&' ∧ c ≠ '\x00' := by
  refine ⟨?_, ?_, ?_⟩ <;> rintro rfl <;> cases h

/-- A letter or digit is read as it stands where references can begin. -/
theorem literal_of_isAlphanum (hs : s = .data ∨ ∃ kind, s = .text kind)
    (hc : c.isAlphanum = true) : s.literal? c = some c := by
  obtain ⟨hlt, hamp, hnull⟩ := ne_of_isAlphanum hc
  obtain rfl | ⟨kind, rfl⟩ := hs
  · simp [State.literal?, hlt, hamp]
  · cases kind <;> simp [State.literal?, hlt, hamp, denull_of_ne hnull]

theorem passOver_of_isAlphanum (hs : s = .data ∨ ∃ kind, s = .text kind)
    (hc : c.isAlphanum = true) : passOver foreign s (c :: rest) = ([], s) := by
  obtain ⟨hlt, -, -⟩ := ne_of_isAlphanum hc
  obtain rfl | ⟨kind, rfl⟩ := hs
  · unfold passOver
    split <;> simp_all
  · simp [passOver]

/-- Behind what looked like a reference and is none, text goes on. -/
theorem begunPast_of_ambiguous (h : StandsAt foreign .ambiguousAmpersand q ahead t)
    (ha : t.inAttribute = false) (ht : Midway t) (hp : Pulls t p t') :
    BegunPast foreign (t.returnState.getD .data) q ahead p t' := by
  have hhost : t.returnState.getD .data = .data ∨
      ∃ kind, t.returnState.getD .data = .text kind := by
    have hne : ¬ t.inAttribute = true := by simp [ha]
    obtain hr | hr | ⟨kind, hr⟩ := returnState_cases ht.fitsZone.returnState hne
    · exact Or.inl (by rw [hr]; rfl)
    · exact Or.inl (by rw [hr]; rfl)
    · exact Or.inr ⟨kind, by rw [hr]; rfl⟩
  have hplain : (t.returnState.getD .data).isPlain = true := by
    obtain hs | ⟨kind, hs⟩ := hhost <;> rw [hs] <;> rfl
  obtain ⟨hread, hback, hstep⟩ := h.consume
  have hpulls := hp.of_step h.pending h.ended
  have hagain : StandsAt foreign (t.consume.returnState.getD .data) q ahead t.step →
      BegunPast foreign (t.returnState.getD .data) q ahead p t' := by
    rw [returnState_consume]
    exact fun hagain => begunPast_of_isPlain hagain hplain ht.step hpulls
  simp only [handle, hread.state] at hstep
  cases ahead with
  | nil =>
    rw [hstep] at hagain
    exact hagain (hread.reconsumeInReturn hback)
  | cons c rest =>
    simp only [List.head?_cons, ambiguousAmpersand] at hstep
    split_ifs at hstep with halnum hclose
    · have houtside : t.consume.inAttribute = false := by
        rw [← ha, inAttribute, inAttribute, returnState_consume]
      rw [Tokenizer.deliver, houtside, if_neg Bool.false_ne_true] at hstep
      have hsays : Says c t.consume t.step := by
        rw [hstep]
        exact ⟨rfl, rfl, rfl, Or.inr ⟨hread.state, houtside⟩⟩
      unfold BegunPast
      rw [passOver_of_isAlphanum hhost halnum]
      exact ⟨_, rfl, hsays.begun hread (literal_of_isAlphanum hhost halnum) hpulls⟩
    · rw [hstep] at hagain
      exact hagain ((hread.report _).reconsumeInReturn (hback.report _))
    · rw [hstep] at hagain
      exact hagain (hread.reconsumeInReturn hback)

/-! ## 6. Call after call -/

/-- A call that has to read delivers what begins next. -/
theorem InText.begunPast (h : InText t) (ht : Between t) (hp : t.pending = [])
    (he : t.ended = false) (hpulls : Pulls t p t') :
    BegunPast t.foreign t.host t.input.position t.input.ahead p t' := by
  obtain hs | ⟨hs, ha⟩ := h.state he
  · obtain ⟨z, hzone, -⟩ := (Option.any_eq_true ..).1 (Bool.and_eq_true_iff.1 hs).1
    have hhost : t.host = t.state := by rw [host, hzone]
    rw [hhost]
    exact begunPast_of_isPlain ⟨rfl, rfl, rfl, hp, he, rfl⟩ hs (Or.inl ht) hpulls
  · have hhost : t.host = t.returnState.getD .data := by rw [host, hs]; rfl
    rw [hhost]
    exact begunPast_of_ambiguous ⟨hs, rfl, rfl, hp, he, rfl⟩ ha (ht.midway hp he) hpulls

/-- What a call delivers: what has waited, the end of the input, or what begins next. -/
theorem InText.pulls (h : InText t) (ht : Between t) (hpulls : Pulls t p t') :
    InText t' ∧ (p.token.isMarkup = true → t.pending = [] ∧ t.ended = false) ∧
      (t.pending = [] → t.ended = false →
        BegunPast t.foreign t.host t.input.position t.input.ahead p t') := by
  by_cases hp : t.pending = []
  · cases he : t.ended with
    | true =>
      obtain ⟨rfl, rfl⟩ := hpulls.unique (.ended hp he)
      exact ⟨h, nofun, nofun⟩
    | false =>
      obtain ⟨rest, hahead, hbegun⟩ := h.begunPast ht hp he hpulls
      exact ⟨hbegun.inText, fun _ => ⟨hp, rfl⟩, fun _ _ => ⟨rest, hahead, hbegun⟩⟩
  · obtain ⟨hchar, htext⟩ := hpulls.voiced ⟨h, hp⟩
    refine ⟨htext, fun hm => ?_, fun hp' => absurd hp' hp⟩
    rw [hchar] at hm
    cases hm

theorem InText.setForeign (h : InText t) (foreign : Bool) : InText { t with foreign } :=
  ⟨h.state, h.queue⟩

theorem inText_plain (html : String) (hs : s.isPlain = true) (last : Option String) :
    InText (((ofString html).switchTo s).setLastStartTag last) :=
  ⟨fun _ => Or.inl hs, fun _ hq => absurd hq List.not_mem_nil⟩

/-- Between two calls text is read, or what looked like a reference and is none. -/
theorem InText.after (h : InText t) (ht : Between t) (answers : Nat → Bool) (n : Nat) :
    InText (t.after answers n) := by
  induction n with
  | zero => exact h
  | succ n ih =>
    have hn := ht.after answers n
    exact ((ih.setForeign (answers n)).pulls (hn.setForeign _) (hn.pulls_nextToken _)).1

end Hypertext.Tokenizer
