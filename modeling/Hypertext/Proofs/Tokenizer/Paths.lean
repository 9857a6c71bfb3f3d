import Hypertext.Proofs.Entity.Search
import Hypertext.Proofs.Markup
import Hypertext.Proofs.Tokenizer.WellFormed

/-!
# The way through a token

How the tokenizer goes from state to state while it reads a well-formed token. What it is given is
what is ahead of it; only the characters read so far decide where it is.
-/

namespace Hypertext

/-- How many repeated names of attributes have been reported. -/
def ErrorLog.repetitions (log : ErrorLog) : Nat :=
  log.entries.toList.countP fun e => e.kind = .duplicateAttribute

theorem ErrorLog.repetitions_record (log : ErrorLog) (kind : ErrorKind) (p : Position) :
    (log.record kind p).repetitions =
      log.repetitions + if kind = .duplicateAttribute then 1 else 0 := by
  rw [repetitions, record, Array.toList_push, List.countP_append, List.countP_singleton,
    ← repetitions]
  simp

namespace Tokenizer

/-! ## 1. Going on -/

/-- In a state, with this text ahead and this token under construction; nothing waits. -/
structure At (s : State) (ahead : List Char) (current : Option Token) (t : Tokenizer) : Prop where
  state : t.state = s
  ahead : t.input.ahead = ahead
  current : t.current = current
  pending : t.pending = []
  ended : t.ended = false
  duplicate : t.duplicate = false

/-- What is known of repeated names: whether the last attribute has one, and how many have
been reported. -/
structure Tally where
  repeated : Bool
  reported : Nat

def tally (t : Tokenizer) : Tally := ⟨t.duplicate, t.errors.repetitions⟩

/-- As `At`, where the last attribute may repeat a name, and the reported repetitions
are counted. -/
structure Tallied (k : Tally) (s : State) (ahead : List Char) (current : Option Token)
    (t : Tokenizer) : Prop where
  state : t.state = s
  ahead : t.input.ahead = ahead
  current : t.current = current
  pending : t.pending = []
  ended : t.ended = false
  tally : t.tally = k

/-- In a character reference, which goes back to the state `r`. -/
structure Citing (k : Tally) (r s : State) (ahead : List Char) (current : Option Token)
    (t : Tokenizer) : Prop extends Tallied k s ahead current t where
  returnState : t.returnState = some r

/-- A token waits, and text is read next. -/
structure Waits (token : Token) (ahead : List Char) (t : Tokenizer) : Prop where
  pending : ∃ position, t.pending = [⟨token, position⟩]
  rest : At .data ahead none { t with pending := [] }

/-- Some steps, taken as long as no token waits, lead to where `Q` holds. -/
inductive Goes (Q : Tokenizer → Prop) : Tokenizer → Prop where
  | here {t : Tokenizer} (h : Q t) : Goes Q t
  | step {t : Tokenizer} (hp : t.pending = []) (he : t.ended = false) (h : Goes Q t.step) : Goes Q t

variable {Q Q' : Tokenizer → Prop} {k : Tally} {s s' r : State} {ahead rest : List Char}
  {current : Option Token} {token token' : Token} {t : Tokenizer} {c : Char}

theorem Goes.trans (h : Goes Q t) (hQ : ∀ t, Q t → Goes Q' t) : Goes Q' t := by
  induction h with
  | here h => exact hQ _ h
  | step hp he _ ih => exact .step hp he ih

/-- A call delivers what waits where the steps lead. -/
theorem Goes.pulls {P : PositionedToken → Tokenizer → Prop}
    (h : Goes (fun t => ∃ p t', Pulls t p t' ∧ P p t') t) : ∃ p t', Pulls t p t' ∧ P p t' := by
  induction h with
  | here h => exact h
  | step hp he _ ih =>
    obtain ⟨p, t', hpulls, hP⟩ := ih
    exact ⟨p, t', .step hp he hpulls, hP⟩

theorem Waits.pulls (h : Waits token ahead t) :
    ∃ p t', Pulls t p t' ∧ p.token = token ∧ At .data ahead none t' := by
  obtain ⟨position, hp⟩ := h.pending
  exact ⟨_, _, .queued hp, rfl, h.rest⟩

theorem At.tallied (h : At s ahead current t) :
    Tallied ⟨false, t.errors.repetitions⟩ s ahead current t :=
  ⟨h.state, h.ahead, h.current, h.pending, h.ended, by rw [tally, h.duplicate]⟩

theorem Tallied.untallied {n : Nat} (h : Tallied ⟨false, n⟩ s ahead current t) :
    At s ahead current t :=
  ⟨h.state, h.ahead, h.current, h.pending, h.ended, congrArg Tally.repeated h.tally⟩

theorem inputError?_ne (c : Char) : inputError? c ≠ some .duplicateAttribute := by
  unfold inputError?
  split
  · simp
  · split <;> simp

theorem tally_report (t : Tokenizer) {kind : ErrorKind} (hk : kind ≠ .duplicateAttribute) :
    (t.report kind).tally = t.tally := by
  rw [tally, tally, report, ErrorLog.repetitions_record, if_neg hk, Nat.add_zero]

/-- A character that should not be in any input repeats no name. -/
theorem tally_consume (t : Tokenizer) : t.consume.tally = t.tally := by
  obtain heq | ⟨c, kind, hkind, heq⟩ := consume_cases t
  · rw [heq]
    rfl
  · rw [heq]
    refine tally_report { t with input := t.input.advance } ?_
    rintro rfl
    exact inputError?_ne c hkind

/-- One step reads the next character and can put it back. -/
theorem Tallied.goes (h : Tallied k s ahead current t)
    (hQ : ∀ t', Tallied k s ahead.tail current t' → t'.input.pushBack.ahead = ahead →
      t'.returnState = t.returnState → t'.code = t.code → Goes Q (t'.handle ahead.head?)) :
      Goes Q t := by
  refine .step h.pending h.ended ?_
  have htally := (tally_consume t).trans h.tally
  obtain ⟨errors, heq, -⟩ := consume_eq_advance t
  have hpeek : t.input.peek = ahead.head? := congrArg List.head? h.ahead
  unfold Tokenizer.step
  rw [heq, hpeek]
  rw [heq] at htally
  refine hQ { t with input := t.input.advance, errors } ⟨h.state, ?_, h.current, h.pending, h.ended,
    htally⟩ ?_ rfl rfl
  · show t.input.advance.ahead = ahead.tail
    rw [Cursor.ahead_advance, h.ahead]
  · show t.input.advance.pushBack.ahead = ahead
    rw [Cursor.pushBack_advance_ahead, h.ahead]

theorem At.goes (h : At s ahead current t)
    (hQ : ∀ t', At s ahead.tail current t' → t'.input.pushBack.ahead = ahead →
      t'.returnState = t.returnState → t'.code = t.code → Goes Q (t'.handle ahead.head?)) :
      Goes Q t :=
  h.tallied.goes fun t' h' => hQ t' h'.untallied

/-! ### Moves -/

namespace Tallied

theorem switchTo (h : Tallied k s ahead current t) (s' : State) :
    Tallied k s' ahead current (t.switchTo s') :=
  ⟨rfl, h.ahead, h.current, h.pending, h.ended, h.tally⟩

theorem reconsumeIn (h : Tallied k s rest current t) (hback : t.input.pushBack.ahead = ahead)
    (s' : State) : Tallied k s' ahead current (t.reconsumeIn s') :=
  ⟨rfl, hback, h.current, h.pending, h.ended, h.tally⟩

theorem report (h : Tallied k s ahead current t) {kind : ErrorKind}
    (hk : kind ≠ .duplicateAttribute) : Tallied k s ahead current (t.report kind) :=
  ⟨h.state, h.ahead, h.current, h.pending, h.ended, (tally_report t hk).trans h.tally⟩

theorem setForeign (h : Tallied k s ahead current t) (foreign : Bool) :
    Tallied k s ahead current { t with foreign } :=
  ⟨h.state, h.ahead, h.current, h.pending, h.ended, h.tally⟩

theorem markStart (h : Tallied k s ahead current t) : Tallied k s ahead current t.markStart :=
  ⟨h.state, h.ahead, h.current, h.pending, h.ended, h.tally⟩

theorem begin (h : Tallied k s ahead current t) (token : Token) :
    Tallied k s ahead (some token) (t.begin token) :=
  ⟨h.state, h.ahead, rfl, h.pending, h.ended, h.tally⟩

theorem edit (h : Tallied k s ahead (some token) t) {e : Edit} (he : token.edit e = .ok token') :
    Tallied k s ahead (some token') (t.edit e) := by
  have heq : t.edit e = { t with current := some token' } := by
    simp only [Tokenizer.edit, h.current, he]
  rw [heq]
  exact ⟨h.state, h.ahead, rfl, h.pending, h.ended, h.tally⟩

end Tallied

theorem At.switchTo (h : At s ahead current t) (s' : State) : At s' ahead current (t.switchTo s') :=
  (h.tallied.switchTo s').untallied

theorem At.reconsumeIn (h : At s rest current t) (hback : t.input.pushBack.ahead = ahead)
    (s' : State) : At s' ahead current (t.reconsumeIn s') :=
  (h.tallied.reconsumeIn hback s').untallied

theorem At.report (h : At s ahead current t) (kind : ErrorKind) :
    At s ahead current (t.report kind) :=
  ⟨h.state, h.ahead, h.current, h.pending, h.ended, h.duplicate⟩

theorem At.setForeign (h : At s ahead current t) (foreign : Bool) :
    At s ahead current { t with foreign } :=
  (h.tallied.setForeign foreign).untallied

theorem At.begin (h : At s ahead current t) (token : Token) :
    At s ahead (some token) (t.begin token) :=
  (h.tallied.begin token).untallied

theorem At.edit (h : At s ahead (some token) t) {e : Edit} (he : token.edit e = .ok token') :
    At s ahead (some token') (t.edit e) := (h.tallied.edit he).untallied

theorem At.editDoctype {d : Doctype} (h : At s ahead (some (.doctype d)) t) (e : DoctypeEdit) :
    At s ahead (some (.doctype (d.edit e))) (t.editDoctype e) := by
  have hcurrent : t.currentDoctype = d := by simp only [currentDoctype, h.current]
  rw [Tokenizer.editDoctype, hcurrent]
  exact (h.begin _).edit rfl

theorem At.enqueue (h : At .data ahead none t) (token : Token) (position : Position) :
    Waits token ahead (t.enqueue token position) := by
  refine ⟨⟨position, ?_⟩, ⟨h.state, h.ahead, h.current, rfl, h.ended, h.duplicate⟩⟩
  show t.pending ++ [⟨token, position⟩] = _
  rw [h.pending, List.nil_append]

theorem At.emitChar (h : At .data ahead none t) (c : Char) :
    Waits (.character c) ahead (t.emitChar c) :=
  h.enqueue _ _

/-- A token is finished. An end tag has nothing but its name. -/
theorem At.finish (h : At s ahead (some token) t)
    (ht : ∀ tag, token = .endTag tag → tag = { name := tag.name }) :
    Waits token ahead t.finish := by
  have hcurrent : (t.switchTo .data).current = some token := h.current
  have hnone : ∀ last,
      At .data ahead none { t.switchTo .data with current := none, lastStartTag := last } :=
    fun _ => ⟨rfl, h.ahead, rfl, h.pending, h.ended, h.duplicate⟩
  unfold Tokenizer.finish emitCurrent
  rw [dropDuplicate_of_eq_false (t := t.switchTo .data) h.duplicate]
  simp only [hcurrent]
  cases token with
  | startTag tag => exact (hnone (some tag.name)).enqueue (.startTag tag) _
  | endTag tag =>
    have htag := ht tag rfl
    have hattributes : tag.attributes.isEmpty = true := by rw [htag]; rfl
    have hclosing : tag.selfClosing = false := by rw [htag]
    simp only [hattributes, hclosing, if_true, Bool.false_eq_true, if_false]
    rw [← htag]
    exact (hnone _).enqueue _ _
  | _ => exact (hnone _).enqueue _ _

/-! ## 2. Text and tags -/

variable {tag : Tag} {make : Tag → Token}

/-- What a character of a name is not, so that it is part of the name. -/
theorem isNameChar_cases (h : isNameChar c = true) :
    Ascii.isBlank c = false ∧ c ≠ '>' ∧ c ≠ '\x00' ∧ c.toLower = c := by
  simp only [isNameChar, isSolid, Bool.and_eq_true, bne_iff_ne, Bool.not_eq_true'] at h
  obtain ⟨⟨⟨⟨hnull, -⟩, hupper⟩, hblank⟩, hclose⟩ := h
  have hlower := ((toLower_cases c).resolve_right fun hc => by rw [hupper] at hc; cases hc.1).2
  exact ⟨hblank, hclose, hnull, hlower⟩

theorem isTagChar_cases (h : isTagChar c = true) :
    Ascii.isBlank c = false ∧ c ≠ '/' ∧ c ≠ '>' ∧ c ≠ '\x00' ∧ c.toLower = c := by
  obtain ⟨hblank, hclose, hnull, hlower⟩ := isNameChar_cases (isNameChar_of_isTagChar h)
  simp only [isTagChar, Bool.and_eq_true, bne_iff_ne] at h
  exact ⟨hblank, h.2, hclose, hnull, hlower⟩

theorem push_ofList (l : List Char) (c : Char) :
    (String.ofList l).push c = String.ofList (l ++ [c]) := by simp

theorem goes_tagOpen (h : Tallied k .data ('<' :: rest) none t) :
    Goes (Tallied k .tagOpen rest none) t :=
  h.goes fun t' h' _ _ _ => by
    simp only [handle, h'.state]
    exact .here (h'.markStart.switchTo _)

theorem goes_startTag (h : Tallied k .tagOpen ahead none t)
    (hc : ahead.head?.any Char.isAlpha = true) :
    Goes (Tallied k .tagName ahead (some (.startTag {}))) t :=
  h.goes fun t' h' hback _ _ => by
    obtain ⟨c, hc, halpha⟩ := (Option.any_eq_true ..).1 hc
    have hne : c ≠ '!' ∧ c ≠ '/' := by
      constructor <;> rintro rfl <;> cases halpha
    simp only [handle, h'.state, hc, tagOpen, hne, if_false, halpha, if_true]
    exact .here ((h'.begin _).reconsumeIn hback _)

theorem goes_endTag (h : Tallied k .tagOpen ('/' :: ahead) none t)
    (hc : ahead.head?.any Char.isAlpha = true) :
    Goes (Tallied k .tagName ahead (some (.endTag {}))) t :=
  h.goes fun t' h' _ _ _ => by
    simp only [handle, h'.state, tagOpen, List.head?_cons]
    refine (h'.switchTo .endTagOpen).goes fun t'' h'' hback _ _ => ?_
    obtain ⟨c, hc, halpha⟩ := (Option.any_eq_true ..).1 hc
    simp only [handle, h''.state, List.tail_cons, hc, endTagOpen, halpha, if_true]
    exact .here ((h''.begin _).reconsumeIn hback _)

theorem goes_name (hmake : ∀ tag e, (make tag).edit (.tag e) = .ok (make (tag.edit e)))
    {name : List Char} (hname : ∀ c ∈ name, isTagChar c = true) {done : List Char}
    (h : Tallied k .tagName (name ++ rest) (some (make { name := String.ofList done })) t) :
    Goes (Tallied k .tagName rest (some (make { name := String.ofList (done ++ name) }))) t := by
  induction name generalizing done t with
  | nil =>
    rw [List.append_nil]
    exact .here h
  | cons c name ih =>
    obtain ⟨hc, hname⟩ := List.forall_mem_cons.1 hname
    obtain ⟨hblank, hslash, hclose, hnull, hlower⟩ := isTagChar_cases hc
    refine h.goes fun t' h' _ _ _ => ?_
    simp only [handle, h'.state, List.cons_append, List.head?_cons, tagName, hblank, hslash, hclose,
      hnull, hlower, Bool.false_eq_true, if_false]
    have hedit := h'.edit (hmake _ (.name c))
    simp only [Tag.edit, push_ofList] at hedit
    rw [List.append_cons]
    exact ih hname hedit

theorem goes_nameOf {name : String}
    (hmake : ∀ tag e, (make tag).edit (.tag e) = .ok (make (tag.edit e)))
    (hname : IsTagName name) (h : Tallied k .tagName (name.toList ++ rest) (some (make {})) t) :
    Goes (Tallied k .tagName rest (some (make { name }))) t := by
  have hgoes : Goes
      (Tallied k .tagName rest (some (make { name := String.ofList ([] ++ name.toList) }))) t :=
    goes_name hmake hname.chars h
  rwa [List.nil_append, String.ofList_toList] at hgoes

theorem isAlpha_head {name : String} (hname : IsTagName name) (rest : List Char) :
    (name.toList ++ rest).head?.any Char.isAlpha = true := by
  obtain ⟨c, hc, hlower⟩ := (Option.any_eq_true ..).1 hname.head
  obtain ⟨more, hmore⟩ := List.head?_eq_some_iff.1 hc
  rw [hmore]
  show (c.isUpper || c.isLower) = true
  rw [hlower, Bool.or_true]

theorem goes_endTagMarkup (hname : IsTagName tag.name) (htag : tag = { name := tag.name })
    (h : At .data ((Token.endTag tag).markup ++ rest) none t) :
    Goes (Waits (.endTag tag) rest) t := by
  have hmarkup : (Token.endTag tag).markup ++ rest =
      '<' :: '/' :: (tag.name.toList ++ '>' :: rest) := by
    simp [Token.markup]
  rw [hmarkup] at h
  refine (goes_tagOpen h.tallied).trans fun t h =>
    (goes_endTag h (isAlpha_head hname _)).trans fun t h => ?_
  refine (goes_nameOf (fun _ _ => rfl) hname h).trans fun t h => ?_
  rw [← htag] at h
  refine h.untallied.goes fun t' h' _ _ _ => ?_
  simp only [handle, h'.state, List.head?_cons]
  refine .here (h'.finish fun tag' heq => ?_)
  cases heq
  exact htag

/-! ## 3. Character references -/

/-- The reference stands for `x`, which goes to where it was found. -/
def Resolves (k : Tally) (r : State) (ahead : List Char) (current : Option Token) (x : Char)
    (t : Tokenizer) : Prop :=
  ∃ t' s, Citing k r s ahead current t' ∧ t = (t'.resolve [x]).switchToReturn

theorem Citing.goes (h : Citing k r s ahead current t)
    (hQ : ∀ t', Citing k r s ahead.tail current t' → t'.input.pushBack.ahead = ahead →
      t'.code = t.code → Goes Q (t'.handle ahead.head?)) : Goes Q t :=
  h.toTallied.goes fun t' h' hback hr hc => hQ t' ⟨h', hr.trans h.returnState⟩ hback hc

theorem Citing.switchTo (h : Citing k r s ahead current t) (s' : State) :
    Citing k r s' ahead current (t.switchTo s') := ⟨h.toTallied.switchTo s', h.returnState⟩

theorem Citing.reconsumeIn (h : Citing k r s rest current t)
    (hback : t.input.pushBack.ahead = ahead) (s' : State) :
    Citing k r s' ahead current (t.reconsumeIn s') :=
  ⟨h.toTallied.reconsumeIn hback s', h.returnState⟩

theorem Citing.buffer (h : Citing k r s ahead current t) (buffer : List Char) :
    Citing k r s ahead current { t with buffer } :=
  ⟨⟨h.state, h.ahead, h.current, h.pending, h.ended, h.tally⟩, h.returnState⟩

theorem Citing.code (h : Citing k r s ahead current t) (code : Nat) :
    Citing k r s ahead current { t with code } :=
  ⟨⟨h.state, h.ahead, h.current, h.pending, h.ended, h.tally⟩, h.returnState⟩

theorem Citing.report (h : Citing k r s ahead current t) {kind : ErrorKind}
    (hk : kind ≠ .duplicateAttribute) :
    Citing k r s ahead current (t.report kind) := ⟨h.toTallied.report hk, h.returnState⟩

/-- A name that ends in a semicolon is found whatever comes after it. -/
theorem goes_named {name : List Char} {x : Char} (halnum : name.head?.any Char.isAlphanum = true)
    (hcandidate : ∀ rest, nameCandidate nameLimit (name ++ rest) = name)
    (hmem : ⟨name, [x]⟩ ∈ Entity.entries) (hlast : name.getLast? = some ';')
    (h : Citing k r .characterReference (name ++ rest) current t) :
    Goes (Resolves k r rest current x) t := by
  have hmatch : Entity.longestMatch name = some ⟨name, [x]⟩ := Entity.longestMatch_name hmem
  have hhead : (name ++ rest).head?.any Char.isAlphanum = true := by
    cases name with
    | nil => cases hlast
    | cons c name => exact halnum
  refine h.goes fun t' h' hback _ => ?_
  simp only [handle, h'.state, characterReference, hhead, if_true]
  have hbegun := (h'.buffer ['&']).reconsumeIn hback .namedCharacterReference
  refine hbegun.goes fun t' h' hback _ => ?_
  simp only [handle, h'.state, namedCharacterReference, hback, hcandidate, hmatch, hlast, if_true]
  refine .here ⟨_, .namedCharacterReference, ?_, rfl⟩
  refine ⟨⟨rfl, ?_, h'.current, h'.pending, h'.ended, h'.tally⟩, h'.returnState⟩
  show (t'.input.pushBack.skip name).ahead = rest
  rw [Cursor.ahead_skip, hback, List.drop_left]

theorem goes_digit {code digit : Nat} (hc : digitValue? .decimal c = some digit)
    (h : Citing k r (.numericReferenceDigits .decimal) (c :: ahead) current t)
    (hcode : t.code = code) :
    Goes (fun t => Citing k r (.numericReferenceDigits .decimal) ahead current t ∧
      t.code = addDigit .decimal code digit) t :=
  h.goes fun t' h' _ hcode' => by
    simp only [handle, h'.state, List.head?_cons]
    simp only [numericReferenceDigits, Option.bind_some, hc]
    exact .here ⟨h'.code _, by rw [← hcode, ← hcode']⟩

/-- A carriage return is written by its number. -/
theorem goes_return
    (h : Citing k r .characterReference ('#' :: '1' :: '3' :: ';' :: rest) current t) :
    Goes (Resolves k r rest current '\r') t := by
  have hstart : Goes (fun t =>
      Citing k r (.numericReferenceDigits .decimal) ('1' :: '3' :: ';' :: rest) current t ∧
      t.code = 0) t := by
    refine h.goes fun t' h' _ _ => ?_
    simp only [handle, h'.state, List.head?_cons, characterReference]
    refine ((h'.buffer ['&', '#']).switchTo .numericCharacterReference).goes fun t' h' hback _ => ?_
    simp only [handle, h'.state, List.tail_cons, List.head?_cons, numericCharacterReference]
    refine ((h'.code 0).reconsumeIn hback (.numericReferenceStart .decimal)).goes
      fun t' h' hback hcode => ?_
    simp only [handle, h'.state, List.tail_cons, List.head?_cons, numericReferenceStart]
    exact .here ⟨h'.reconsumeIn hback _, hcode⟩
  refine hstart.trans fun t ⟨h, hcode⟩ => (goes_digit rfl h hcode).trans fun t ⟨h, hcode⟩ => ?_
  refine (goes_digit rfl h hcode).trans fun t ⟨h, hcode⟩ => h.goes fun t' h' _ hcode' => ?_
  have hdigit : (some ';').bind (digitValue? .decimal) = none := rfl
  simp only [handle, h'.state, List.head?_cons, numericReferenceDigits, hdigit, if_true]
  refine (h'.switchTo .numericReferenceEnd).goes fun t'' h'' hback hcode'' => ?_
  have hthirteen : t''.code = 13 := hcode''.trans (hcode'.trans hcode)
  have hresolve : resolveCode 13 = (13, some .controlCharacterReference) := by decide
  simp only [handle, h''.state]
  simp only [numericReferenceEnd, hthirteen, hresolve]
  refine .here ⟨_, .numericReferenceEnd,
    Citing.report (t := { t'' with input := t''.input.pushBack, code := 13 }) ?_ (by decide), rfl⟩
  exact ⟨⟨h''.state, hback, h''.current, h''.pending, h''.ended, h''.tally⟩, h''.returnState⟩

/-- What has been written in place of a character stands for it. -/
theorem goes_escape {x : Char} {more : List Char} (hx : escape x = '&' :: more)
    (h : Citing k r .characterReference (more ++ rest) current t) :
    Goes (Resolves k r rest current x) t := by
  obtain ⟨hampName, hltName, hquotName⟩ := Entity.mem_entries_of_markup
  unfold escape at hx
  split_ifs at hx with hamp hlt hquot hcr
  · subst hamp
    cases hx
    exact goes_named rfl (fun _ => rfl) hampName rfl h
  · subst hlt
    cases hx
    exact goes_named rfl (fun _ => rfl) hltName rfl h
  · subst hquot
    cases hx
    exact goes_named rfl (fun _ => rfl) hquotName rfl h
  · subst hcr
    cases hx
    exact goes_return h
  · exact absurd (List.cons.inj hx).1 hamp

/-! ### In text -/

theorem Tallied.switchToReturn (h : Tallied k s ahead current t) (hr : t.returnState = some r) :
    Tallied k r ahead current t.switchToReturn := by
  refine ⟨?_, h.ahead, h.current, h.pending, h.ended, h.tally⟩
  rw [Tokenizer.switchToReturn, hr]
  rfl

theorem Tallied.enterReference (h : Tallied k s ahead current t) (r : State) :
    Citing k r .characterReference ahead current (t.enterReference r) :=
  ⟨⟨rfl, h.ahead, h.current, h.pending, h.ended, h.tally⟩, rfl⟩

theorem Resolves.waits {n : Nat} {x : Char} (h : Resolves ⟨false, n⟩ .data ahead none x t) :
    Waits (.character x) ahead t := by
  obtain ⟨t', s, h', rfl⟩ := h
  have hattribute : ({ t' with buffer := [x] } : Tokenizer).inAttribute = false := by
    simp only [inAttribute, h'.returnState]
  have hresolve : t'.resolve [x] = { t' with buffer := [x] }.emitChar x := by
    rw [resolve, flush, deliver, hattribute]
    rfl
  rw [hresolve]
  exact ((h'.buffer [x]).toTallied.switchToReturn h'.returnState).untallied.emitChar x

/-- A character of text, however it is written, is delivered. -/
theorem goes_character (h : At .data (escape c ++ rest) none t) :
    Goes (Waits (.character c) rest) t := by
  obtain ⟨more, heq⟩ | ⟨heq, hamp, hlt, -⟩ := escape_cases c
  · rw [heq] at h
    refine h.tallied.goes fun t' h' _ _ _ => ?_
    simp only [handle, h'.state]
    exact (goes_escape heq (h'.enterReference .data)).trans fun t h => .here h.waits
  · rw [heq] at h
    refine h.goes fun t' h' _ _ _ => ?_
    simp only [handle, h'.state, List.singleton_append, List.head?_cons, data, hamp, hlt, if_false]
    split
    · exact .here ((h'.report _).emitChar c)
    · exact .here (h'.emitChar c)

end Tokenizer

end Hypertext
