import Hypertext.Proofs.Entity
import Hypertext.Proofs.Token
import Hypertext.Proofs.Tokenizer.Termination
import Hypertext.Proofs.Tokenizer.Trail

/-!
# Characters that should be in no input

Characters are looked at ahead, skipped in bulk and pushed back to be read again, but a character
is checked only when it is read for the first time. The errors in the log are those of the
characters up to the one that has been read farthest: what is skipped is a name or a keyword, which
has no bad characters.
-/

namespace Hypertext

/-! ## 1. Flaws of a text -/

/-- The code points U+FDD0 to U+FDEF and the last two of every plane. -/
def Noncharacter (c : Char) : Prop :=
  0xFDD0 ≤ c.toNat ∧ c.toNat ≤ 0xFDEF ∨ c.toNat % 0x10000 = 0xFFFE ∨ c.toNat % 0x10000 = 0xFFFF

/-- The control characters, besides tab, line feed, form feed and null. -/
def BadControl (c : Char) : Prop :=
  (c.toNat ≤ 0x1F ∨ 0x7F ≤ c.toNat ∧ c.toNat ≤ 0x9F) ∧ c ∉ ['\t', '\n', '\x0c', '\x00']

instance (c : Char) : Decidable (Noncharacter c) := by unfold Noncharacter; infer_instance

instance (c : Char) : Decidable (BadControl c) := by unfold BadControl; infer_instance

/-- What is wrong with a character. -/
def flawKind? (c : Char) : Option ErrorKind :=
  if Noncharacter c then some .noncharacterInInputStream
  else if BadControl c then some .controlCharacterInInputStream
  else none

/-- The error of the character with this index, if it is a bad one, placed at the character. -/
def flaw? (text : List Char) (i : Nat) : Option ParseError :=
  text[i]?.bind fun c => (flawKind? c).map fun kind =>
    ⟨kind, Position.start.advanceBy (text.take (i + 1))⟩

/-- The errors of the first `n` characters. -/
def flawsUpTo (text : List Char) (n : Nat) : List ParseError :=
  (List.range n).filterMap (flaw? text)

/-- The errors of the bad characters of a text, in the order of the text. -/
def flaws (text : List Char) : List ParseError := flawsUpTo text text.length

variable {text target : List Char} {c : Char} {n : Nat}

theorem flawsUpTo_succ (text : List Char) (n : Nat) :
    flawsUpTo text (n + 1) = flawsUpTo text n ++ (flaw? text n).toList := by
  rw [flawsUpTo, List.range_succ, List.filterMap_append, flawsUpTo]
  cases h : flaw? text n <;> simp [h]

theorem flawsUpTo_eq (h : text.length ≤ n) : flawsUpTo text n = flaws text := by
  induction h with
  | refl => rfl
  | @step n hle ih =>
    rw [flawsUpTo_succ, ih, flaw?, List.getElem?_eq_none hle]
    exact List.append_nil _

/-- The error of the next character is placed after it. -/
theorem flaw?_of_stands {ahead : List Char} {p : Position} (h : Cursor.Stands text (c :: ahead) p) :
    flaw? text p.offset = (flawKind? c).map (⟨·, p.advance c⟩) := by
  obtain ⟨done, rfl, rfl⟩ := h
  have hoffset : (Position.start.advanceBy done).offset = done.length := by
    rw [Position.offset_advanceBy]
    exact Nat.zero_add _
  have htake : (done ++ c :: ahead).take (done.length + 1) = done ++ [c] := by
    rw [List.take_append, List.take_of_length_le (Nat.le_succ _)]
    simp
  rw [flaw?, hoffset, htake, List.getElem?_append_right (Nat.le_refl _), Nat.sub_self]
  simp [Position.advanceBy]

example : flaws ['a', '\x01', '\x00', '\uFFFF'] =
    [⟨.controlCharacterInInputStream, ⟨1, 2, 2⟩⟩, ⟨.noncharacterInInputStream, ⟨1, 4, 4⟩⟩] := by
  decide

/-! ### Characters -/

theorem isOfInput_of_flawKind? {kind : ErrorKind} (h : flawKind? c = some kind) :
    kind.isOfInput = true := by
  unfold flawKind? at h
  split_ifs at h
  all_goals
    cases h
    rfl

theorem isNoncharacter_iff : Ascii.isNoncharacter c.toNat = true ↔ Noncharacter c := by
  have hmax : c.toNat ≤ 0x10FFFF := by
    have hvalid := c.valid
    have hnat : c.toNat = c.val.toNat := rfl
    simp only [UInt32.isValidChar, Nat.isValidChar] at hvalid
    omega
  simp only [Ascii.isNoncharacter, Bool.or_eq_true, Bool.and_eq_true, decide_eq_true_eq,
    Noncharacter]
  omega

theorem isControl_iff :
    (Ascii.isControl c.toNat && !Ascii.isBlank c && c != '\x00') = true ↔ BadControl c := by
  have hspace : c.toNat ≤ 0x1F ∨ 0x7F ≤ c.toNat → c ≠ ' ' := by
    rintro h rfl
    revert h
    decide
  simp only [Ascii.isControl, Ascii.isBlank, BadControl, Bool.and_eq_true, Bool.or_eq_true,
    decide_eq_true_eq, Bool.not_eq_true', bne_iff_ne, List.mem_cons, not_or, Bool.or_eq_false_iff,
    beq_eq_false_iff_ne, List.not_mem_nil, not_false_eq_true, and_true]
  grind

theorem inputError?_eq (c : Char) : Tokenizer.inputError? c = flawKind? c := by
  unfold Tokenizer.inputError? flawKind?
  simp only [isNoncharacter_iff, isControl_iff]

theorem flawKind?_of_isAlphanum (h : c.isAlphanum = true) : flawKind? c = none := by
  have hrange : 0x30 ≤ c.toNat ∧ c.toNat ≤ 0x7A := by
    have hnat : c.toNat = c.val.toNat := rfl
    delta Char.isAlphanum Char.isAlpha Char.isUpper Char.isLower Char.isDigit at h
    simp only [Bool.or_eq_true,
      Bool.and_eq_true, decide_eq_true_eq, ge_iff_le, UInt32.le_iff_toNat_le] at h
    simp at h
    omega
  rw [flawKind?, if_neg, if_neg]
  · unfold BadControl
    omega
  · unfold Noncharacter
    omega

theorem flawKind?_toLower (c : Char) : flawKind? c.toLower = flawKind? c := by
  obtain ⟨-, heq⟩ | ⟨hupper, hlower⟩ := toLower_cases c
  · rw [heq]
  · have hafter : c.toLower.isAlphanum = true := by
      show ((c.toLower.isUpper || c.toLower.isLower) || c.toLower.isDigit) = true
      rw [hlower, Bool.or_true, Bool.true_or]
    have hbefore : c.isAlphanum = true := by
      show ((c.isUpper || c.isLower) || c.isDigit) = true
      rw [hupper, Bool.true_or, Bool.true_or]
    rw [flawKind?_of_isAlphanum hafter, flawKind?_of_isAlphanum hbefore]

/-! ### Names and keywords -/

/-- What stands for this much of the text has no bad characters. -/
def Clean (ahead target : List Char) : Prop := ∀ c ∈ ahead.take target.length, flawKind? c = none

theorem clean_of_isPrefix {ahead : List Char} (h : target <+: ahead)
    (ht : ∀ c ∈ target, flawKind? c = none) : Clean ahead target := by
  obtain ⟨rest, rfl⟩ := h
  intro c hc
  rw [List.take_left] at hc
  exact ht c hc

theorem flawless {target : List Char} (h : target.all (fun c => (flawKind? c).isNone) = true) :
    ∀ c ∈ target, flawKind? c = none :=
  fun c hc => Option.isNone_iff_eq_none.1 (List.all_eq_true.1 h c hc)

theorem clean_of_startsWith {cursor : Cursor} (h : cursor.startsWith target = true)
    (ht : target.all (fun c => (flawKind? c).isNone) = true) : Clean cursor.ahead target :=
  clean_of_isPrefix (List.isPrefixOf_iff_prefix.1 h) (flawless ht)

theorem clean_of_startsWithIgnoringCase {cursor : Cursor}
    (h : cursor.startsWithIgnoringCase target = true)
    (ht : target.all (fun c => (flawKind? c).isNone) = true) : Clean cursor.ahead target := by
  have hsame : ∀ {target ahead}, Ascii.startsWithIgnoringCase target ahead = true →
      (∀ c ∈ target, flawKind? c = none) → Clean ahead target := by
    intro target
    induction target with
    | nil => exact fun _ _ _ hc => absurd hc List.not_mem_nil
    | cons x target ih =>
      rintro (_ | ⟨y, ahead⟩) h ht c hc
      · cases h
      · rw [Ascii.startsWithIgnoringCase, Bool.and_eq_true, Ascii.sameLetter, beq_iff_eq] at h
        obtain ⟨hx, ht⟩ := List.forall_mem_cons.1 ht
        obtain rfl | hc := List.mem_cons.1 hc
        · rw [← flawKind?_toLower, h.1, flawKind?_toLower, hx]
        · exact ih h.2 ht c hc
  exact hsame h (flawless ht)

theorem flawKind?_of_nameCandidate {limit : Nat} (hc : c ∈ Tokenizer.nameCandidate limit text) :
    flawKind? c = none := by
  obtain rfl | halnum := Tokenizer.of_mem_nameCandidate hc
  · decide
  · exact flawKind?_of_isAlphanum halnum

/-- Reading on adds the error of a character that has not been read before. -/
theorem Cursor.Walks.flawsUpTo_advance {c : Cursor} (h : c.Walks text)
    (hr : c.position.offset ≤ c.highWater) :
    flawsUpTo text c.advance.highWater = flawsUpTo text c.highWater ++
      if c.advance.fresh then ((c.peek.bind flawKind?).map
        (⟨·, c.advance.position⟩)).toList else [] := by
  have hstands := h.stands
  unfold Cursor.advance Cursor.peek
  cases hahead : c.ahead with
  | nil => simp
  | cons x rest =>
    rw [hahead] at hstands
    have hnext : (c.position.advance x).offset = c.position.offset + 1 := Position.offset_advance ..
    -- a fresh character is the one right behind the furthest place that has been reached
    by_cases hfresh : c.highWater < c.position.offset + 1
    · have hmax : max c.highWater (c.position.offset + 1) = c.highWater + 1 := by omega
      have heq : c.highWater = c.position.offset := by omega
      simp only [hnext, hmax, hfresh, flawsUpTo_succ]
      rw [heq, flaw?_of_stands hstands]
      rfl
    · have hmax : max c.highWater (c.position.offset + 1) = c.highWater := by omega
      simp only [hnext, hmax, hfresh]
      simp

namespace Tokenizer

/-! ## 2. What the rules are made of -/

/-- The errors of the characters up to the one read farthest have been seen or are in the log, each
once. At the end of the input, these are all characters. -/
structure Screened (text : List Char) (ending : Prop) (seen : List ParseError) (t : Tokenizer) :
    Prop where
  walks : t.input.Walks text
  reached : t.input.position.offset ≤ t.input.highWater
  errors : seen ++ t.errors.ofInput = flawsUpTo text t.input.highWater
  complete : ending ∨ t.ended = true → text.length ≤ t.input.highWater

variable {t t' : Tokenizer} {ending : Prop} {seen : List ParseError} {c : Option Char}

attribute [grind] ErrorKind.isOfInput

namespace Screened

variable (h : Screened text ending seen t)
include h

theorem congr (hi : t'.input = t.input) (he : t'.errors = t.errors) (hd : t'.ended = t.ended) :
    Screened text ending seen t' := by
  refine ⟨hi ▸ h.walks, hi ▸ h.reached, ?_, ?_⟩
  · rw [hi, he]
    exact h.errors
  · rw [hi, hd]
    exact h.complete

@[grind ←]
theorem report {kind : ErrorKind} (hk : kind.isOfInput = false) :
    Screened text ending seen (t.report kind) := by
  refine ⟨h.walks, h.reached, ?_, h.complete⟩
  have hnone : (t.report kind).errors.ofInput = t.errors.ofInput := by
    rw [Tokenizer.report, ErrorLog.ofInput_record, hk, if_neg Bool.false_ne_true, List.append_nil]
  rw [hnone]
  exact h.errors

/-- Reading a character for the first time reports it if it is bad. -/
theorem consume : Screened text (t.input.peek = none) seen t.consume := by
  obtain ⟨errors, heq, -⟩ := consume_eq_advance t
  have hinput : t.consume.input = t.input.advance := by rw [heq]
  have hended : t.consume.ended = t.ended := by rw [heq]
  -- the character is reported only if it has not been read before
  have herrors : t.consume.errors.ofInput = t.errors.ofInput ++
      if t.input.advance.fresh then
        ((t.input.peek.bind flawKind?).map (⟨·, t.input.advance.position⟩)).toList else [] := by
    unfold Tokenizer.consume
    cases hpeek : t.input.peek with
    | none => simp
    | some c =>
      simp only [inputError?_eq, Option.bind_some]
      cases hkind : flawKind? c with
      | none => simp
      | some kind =>
        dsimp only
        split
        · rw [Tokenizer.report, ErrorLog.ofInput_record, isOfInput_of_flawKind? hkind]
          rfl
        · simp
  refine ⟨hinput ▸ h.walks.advance, hinput ▸ Cursor.reached_advance h.reached, ?_, ?_⟩
  · rw [hinput, herrors, ← List.append_assoc, h.errors, h.walks.flawsUpTo_advance h.reached]
  · rw [hinput, hended]
    rintro (hpeek | he)
    · -- everything has been read
      have hoffset := h.walks.stands.offset_add
      rw [Cursor.peek, List.head?_eq_none_iff] at hpeek
      rw [hpeek, List.length_nil] at hoffset
      have hle := t.input.highWater_le_advance
      have hreached := h.reached
      omega
    · exact Nat.le_trans (h.complete (Or.inr he)) t.input.highWater_le_advance

@[grind ←]
theorem pushBack : Screened text ending seen { t with input := t.input.pushBack } := by
  refine ⟨h.walks.pushBack, ?_, ?_, ?_⟩
  · rw [Cursor.highWater_pushBack]
    exact Nat.le_trans h.walks.pushBack_le_offset h.reached
  · rw [Cursor.highWater_pushBack]
    exact h.errors
  · rw [Cursor.highWater_pushBack]
    exact h.complete

/-- Good characters may be skipped. -/
@[grind ←]
theorem skip (hclean : Clean t.input.ahead target) :
    Screened text ending seen { t with input := t.input.skip target } := by
  induction target generalizing t with
  | nil => exact h
  | cons x target ih =>
    -- the next character is among those that are skipped, so it adds no error
    have hgood : (t.input.peek.bind flawKind?) = none := by
      rw [Cursor.peek]
      cases hahead : t.input.ahead with
      | nil => rfl
      | cons y ahead =>
        rw [hahead] at hclean
        exact hclean y List.mem_cons_self
    have hadvance : Screened text ending seen { t with input := t.input.advance } := by
      refine ⟨h.walks.advance, Cursor.reached_advance h.reached, ?_, fun he =>
        Nat.le_trans (h.complete he) t.input.highWater_le_advance⟩
      rw [h.walks.flawsUpTo_advance h.reached, hgood]
      simpa using h.errors
    refine ih hadvance fun c hc => hclean c ?_
    have hc : c ∈ t.input.advance.ahead.take target.length := hc
    rw [Cursor.ahead_advance] at hc
    cases hahead : t.input.ahead with
    | nil => simp [hahead] at hc
    | cons y ahead =>
      rw [hahead] at hc
      exact List.mem_cons_of_mem y hc

@[grind ←]
theorem switchTo (s : State) : Screened text ending seen (t.switchTo s) := h.congr rfl rfl rfl

@[grind ←]
theorem reconsumeIn (s : State) : Screened text ending seen (t.reconsumeIn s) :=
  h.pushBack.congr rfl rfl rfl

@[grind ←]
theorem enterReference (s : State) : Screened text ending seen (t.enterReference s) :=
  h.congr rfl rfl rfl

@[grind ←]
theorem switchToReturn : Screened text ending seen t.switchToReturn := h.congr rfl rfl rfl

@[grind ←]
theorem reconsumeInReturn : Screened text ending seen t.reconsumeInReturn :=
  h.pushBack.congr rfl rfl rfl

@[grind ←]
theorem markStart : Screened text ending seen t.markStart := h.congr rfl rfl rfl

@[grind ←]
theorem buffer (buffer : List Char) : Screened text ending seen { t with buffer } :=
  h.congr rfl rfl rfl

@[grind ←]
theorem code (buffer : List Char) (code : Nat) :
    Screened text ending seen { t with buffer, code } :=
  h.congr rfl rfl rfl

@[grind ←]
theorem current (current : Option Token) : Screened text ending seen { t with current } :=
  h.congr rfl rfl rfl

@[grind ←]
theorem enqueue (token : Token) (position : Position) :
    Screened text ending seen (t.enqueue token position) :=
  h.congr rfl rfl rfl

@[grind ←]
theorem emitChar (c : Char) : Screened text ending seen (t.emitChar c) := h.enqueue _ _

@[grind ←]
theorem emitChars (cs : List Char) : Screened text ending seen (t.emitChars cs) := by
  induction cs generalizing t with
  | nil => exact h
  | cons c cs ih => exact ih (h.emitChar c)

/-- The input is finished when everything has been read. -/
@[grind ←]
theorem emitEnd (he : ending) : Screened text ending seen t.emitEnd :=
  ⟨h.walks, h.reached, h.errors, fun _ => h.complete (Or.inl he)⟩

@[grind ←]
theorem begin (token : Token) : Screened text ending seen (t.begin token) := h.congr rfl rfl rfl

@[grind ←]
theorem edit (e : Edit) : Screened text ending seen (t.edit e) := by
  unfold Tokenizer.edit
  split
  · exact h
  · split
    · exact h.congr rfl rfl rfl
    · exact h.congr rfl rfl rfl

@[grind ←]
theorem editTag (e : TagEdit) : Screened text ending seen (t.editTag e) := h.edit _

@[grind ←]
theorem editComment (e : CommentEdit) : Screened text ending seen (t.editComment e) := h.edit _

@[grind ←]
theorem editDoctype (e : DoctypeEdit) : Screened text ending seen (t.editDoctype e) :=
  (h.begin _).edit _

@[grind ←]
theorem deliver (cs : List Char) : Screened text ending seen (t.deliver cs) := by
  unfold Tokenizer.deliver
  split
  · clear * - h
    induction cs generalizing t with
    | nil => exact h
    | cons c cs ih => exact ih (h.editTag _)
  · exact h.emitChars cs

@[grind ←]
theorem flush : Screened text ending seen t.flush := h.deliver _

@[grind ←]
theorem resolve (cs : List Char) : Screened text ending seen (t.resolve cs) := (h.buffer cs).flush

@[grind ←]
theorem dropDuplicate : Screened text ending seen t.dropDuplicate := by
  unfold Tokenizer.dropDuplicate
  split
  · have hd : Screened text ending seen { t with duplicate := false } := h.congr rfl rfl rfl
    exact hd.editTag _
  · exact h

@[grind ←]
theorem newAttribute : Screened text ending seen t.newAttribute := h.dropDuplicate.editTag _

@[grind ←]
theorem checkDuplicate : Screened text ending seen t.checkDuplicate := by
  unfold Tokenizer.checkDuplicate
  split
  · split
    · exact (h.report rfl).congr rfl rfl rfl
    · exact h
  · exact h

@[grind ←]
theorem emitCurrent : Screened text ending seen t.emitCurrent := by
  have hd := h.dropDuplicate
  unfold Tokenizer.emitCurrent
  extract_lets t'
  split
  · exact hd
  · next token htoken =>
    have hnone := hd.current none
    dsimp only
    split
    · next tag =>
      have hlast : Screened text ending seen
          { t' with current := none, lastStartTag := some tag.name } :=
        hnone.congr rfl rfl rfl
      exact hlast.enqueue _ _
    · refine Screened.enqueue ?_ _ _
      repeat' split
      all_goals first
        | exact hnone
        | exact hnone.report rfl
        | exact (hnone.report rfl).report rfl
    · exact hnone.enqueue _ _

@[grind ←]
theorem finish : Screened text ending seen t.finish := (h.switchTo _).emitCurrent

end Screened

/-! ## 3. Rules -/

section Rules

variable (h : Screened text ending seen t) (hc : c = none → ending)
include h

/-! ### The end of the input -/

@[grind ←]
theorem screened_endInScriptComment (he : ending) :
    Screened text ending seen t.endInScriptComment :=
  (h.report rfl).emitEnd he

@[grind ←]
theorem screened_endInTag (he : ending) : Screened text ending seen t.endInTag := by
  have hreport : Screened text ending seen (t.report .eofInTag) := h.report rfl
  have hdrop : Screened text ending seen { t.report .eofInTag with
      current := none, duplicate := false } :=
    hreport.congr rfl rfl rfl
  exact hdrop.emitEnd he

@[grind ←]
theorem screened_endInComment (he : ending) : Screened text ending seen t.endInComment :=
  (h.report rfl).emitCurrent.emitEnd he

@[grind ←]
theorem screened_endInDoctype (he : ending) : Screened text ending seen t.endInDoctype :=
  ((h.report rfl).editDoctype _).emitCurrent.emitEnd he

@[grind ←]
theorem screened_abandonEndTag (kind : RawText) :
    Screened text ending seen (t.abandonEndTag kind) :=
  ((((h.emitChar _).emitChar _).emitChars _).current none).reconsumeIn _

/-! ### What the text ahead decides -/

/-- The name that is skipped was looked for in a candidate of good characters. -/
@[grind ←]
theorem screened_namedCharacterReference : Screened text ending seen t.namedCharacterReference := by
  unfold Tokenizer.namedCharacterReference
  dsimp only
  split
  · exact h.pushBack.flush.switchTo _
  · next entry hmatch =>
    have hname := (Entity.longestMatch_eq_some hmatch).2
    have hclean : Clean t.input.pushBack.ahead entry.name :=
      clean_of_isPrefix (hname.trans (nameCandidate_isPrefix _ _)) fun c hc =>
        flawKind?_of_nameCandidate (hname.subset hc)
    have hread := (h.pushBack.skip hclean).buffer (t.buffer ++ entry.name)
    split_ifs
    · exact (hread.resolve _).switchToReturn
    · exact hread.flush.switchToReturn
    · exact ((hread.report rfl).resolve _).switchToReturn

@[grind ←]
theorem screened_markupDeclarationOpen : Screened text ending seen t.markupDeclarationOpen := by
  have hback := h.pushBack
  unfold Tokenizer.markupDeclarationOpen
  dsimp only
  split_ifs with hcomment hdoctype hcdata
  · exact ((hback.skip (clean_of_startsWith hcomment (by decide))).begin _).switchTo _
  · exact (hback.skip (clean_of_startsWithIgnoringCase hdoctype (by decide))).switchTo _
  · exact (hback.skip (clean_of_startsWith hcdata (by decide))).switchTo _
  · exact (((hback.skip (clean_of_startsWith hcdata (by decide))).report rfl).begin _).switchTo _
  · exact ((hback.report rfl).begin _).switchTo _

include hc in
@[grind ←]
theorem screened_afterDoctypeName : Screened text ending seen (t.afterDoctypeName c) := by
  have hback := h.pushBack
  unfold Tokenizer.afterDoctypeName
  cases c with
  | none => exact screened_endInDoctype h (hc rfl)
  | some x =>
    dsimp only
    split_ifs with hblank hend hpublic hsystem
    · exact h
    · exact h.finish
    · exact (hback.skip (clean_of_startsWithIgnoringCase hpublic (by decide))).switchTo _
    · exact (hback.skip (clean_of_startsWithIgnoringCase hsystem (by decide))).switchTo _
    · exact ((hback.report rfl).editDoctype _).switchTo _

@[grind ←]
theorem screened_numericReferenceEnd : Screened text ending seen t.numericReferenceEnd := by
  unfold Tokenizer.numericReferenceEnd
  dsimp only
  split
  · next kind hkind =>
    have hk : kind.isOfInput = false := by
      unfold resolveCode at hkind
      split_ifs at hkind
      all_goals
        cases hkind
        rfl
    exact ((h.pushBack.report hk).resolve _).switchToReturn
  · exact (h.pushBack.resolve _).switchToReturn

include hc in
@[grind ←]
theorem screened_endTagOpen : Screened text ending seen (t.endTagOpen c) := by
  unfold Tokenizer.endTagOpen
  split
  · exact (((h.report rfl).emitChar _).emitChar _).emitEnd (hc rfl)
  · grind

include hc in
theorem screened_handle : Screened text ending seen (t.handle c) := by
  unfold handle
  split
  all_goals try simp only [data.eq_def, rawCharacter.eq_def, escapedCharacter,
    Tokenizer.text.eq_def, textLessThanSign.eq_def, textEndTagOpen.eq_def, textEndTagName.eq_def,
    scriptDataEscapeStart.eq_def, scriptDataEscapeStartDash.eq_def, scriptDataEscapedDash.eq_def,
    scriptDataEscapedDashDash.eq_def, doubleEscapeBoundary.eq_def, scriptDataDoubleEscaped.eq_def,
    scriptDataDoubleEscapedDash.eq_def, scriptDataDoubleEscapedDashDash.eq_def,
    scriptDataDoubleEscapedLessThanSign.eq_def, cdataSection.eq_def, cdataSectionBracket.eq_def,
    cdataSectionEnd.eq_def, tagOpen.eq_def, tagName.eq_def,
    beforeAttributeName.eq_def, attributeName.eq_def, afterAttributeName.eq_def,
    beforeAttributeValue.eq_def, attributeValueQuoted.eq_def, attributeValueUnquoted.eq_def,
    afterAttributeValueQuoted.eq_def, selfClosingStartTag.eq_def, bogusComment.eq_def,
    commentStart.eq_def, commentStartDash.eq_def,
    comment.eq_def, commentLessThanSign.eq_def, commentLessThanSignBang.eq_def,
    commentLessThanSignBangDash.eq_def, commentLessThanSignBangDashDash.eq_def,
    commentEndDash.eq_def, commentEnd.eq_def, commentEndBang.eq_def, doctype.eq_def, beginDoctype,
    beforeDoctypeName.eq_def, doctypeName.eq_def, beginIdentifier, missingIdentifier, missingQuote,
    afterDoctypeKeyword.eq_def, beforeDoctypeIdentifier.eq_def, doctypeIdentifier.eq_def,
    afterPublicIdentifier.eq_def, betweenDoctypeIdentifiers.eq_def, afterSystemIdentifier.eq_def,
    bogusDoctype.eq_def, characterReference.eq_def, ambiguousAmpersand.eq_def,
    numericCharacterReference.eq_def, numericReferenceStart.eq_def, numericReferenceDigits.eq_def]
  -- only the lemmas for the operations are needed; each handler is a tree of tests with an
  -- operation at each leaf
  all_goals grind -ring -linarith -lia

end Rules

/-! ## 4. Steps -/

theorem Screened.step (h : Screened text False seen t) : Screened text False seen t.step := by
  have hstep : Screened text (t.input.peek = none) seen t.step := screened_handle h.consume id
  exact ⟨hstep.walks, hstep.reached, hstep.errors,
    fun he => hstep.complete (Or.inr (he.resolve_left id))⟩

theorem Pulls.screened {p : PositionedToken} (hp : Pulls t p t') (h : Screened text False seen t) :
    Screened text False seen t' := by
  induction hp with
  | queued hp => exact h.congr rfl rfl rfl
  | ended => exact h
  | step _ _ _ ih => exact ih h.step

theorem Screened.nextToken (h : Screened text False seen t) (hb : Between t) (foreign : Bool) :
    Screened text False seen (t.nextToken foreign).2 :=
  (hb.pulls_nextToken foreign).screened (h.congr rfl rfl rfl)

/-- What is taken out of the log has been seen. -/
theorem Screened.takeErrors (h : Screened text ending seen t) :
    Screened text ending (seen ++ t.errors.ofInput) t.takeErrors.2 :=
  ⟨h.walks, h.reached, (List.append_nil _).trans h.errors, h.complete⟩

theorem screened_ofString (s : String) :
    Screened (normalizeNewlines s.toList) False [] (ofString s) :=
  ⟨Cursor.walks_ofString s, Nat.le_refl _, rfl, by rintro (⟨⟨⟩⟩ | ⟨⟨⟩⟩)⟩

end Tokenizer

end Hypertext
