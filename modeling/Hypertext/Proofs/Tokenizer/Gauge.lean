import Hypertext.Proofs.Cursor
import Hypertext.Proofs.Entity
import Hypertext.Proofs.Tokenizer.States

/-!
# How long a tokenizer goes on

A state may push back the character it was given and hand it to another state. What is left to do is
measured by the input ahead and, among the states that read nothing, by a rank that depends on the
next character as well: the states around attribute names hand characters to each other, but never
the same one twice. A second measure bounds the tokens that are still to come.
-/

namespace Hypertext

namespace Tokenizer

/-! ## 1. What progress depends on -/

/-- What decides how long a tokenizer goes on. -/
structure Gauge where
  ahead : List Char
  /-- What a push-back puts back. -/
  previous : Option (List Char)
  state : State
  returnState : Option State
  buffer : List Char
  /-- How many tokens wait. -/
  queued : Nat
  /-- Whether a token is under construction. -/
  building : Bool
  ended : Bool

def gauge (t : Tokenizer) : Gauge where
  ahead := t.input.ahead
  previous := t.input.previous.map (·.ahead)
  state := t.state
  returnState := t.returnState
  buffer := t.buffer
  queued := t.pending.length
  building := t.current.isSome
  ended := t.ended

/-- Whether a name of an attribute ends before the next character. -/
def endsName (next : Option Char) : Bool :=
  next.all fun c => Ascii.isBlank c || c == '/' || c == '>'

/-- How many states the next character can be handed through. -/
@[simp] def rank (next : Option Char) : State → Nat
  | .numericCharacterReference => 4
  | .characterReference | .numericReferenceStart _ | .afterAttributeValueQuoted
  | .selfClosingStartTag => 3
  | .namedCharacterReference | .numericReferenceDigits _ | .beforeAttributeName
  | .commentLessThanSignBangDash | .commentLessThanSignBangDashDash => 2
  | .attributeName => if endsName next then 1 else 0
  | .afterAttributeName => if endsName next then 0 else 1
  | .ambiguousAmpersand | .numericReferenceEnd | .beforeAttributeValue
  | .tagOpen | .endTagOpen | .textEndTagOpen _ | .markupDeclarationOpen
  | .scriptDataEscapeStart | .scriptDataEscapeStartDash | .scriptDataDoubleEscapeStart
  | .scriptDataDoubleEscapeEnd | .scriptDataDoubleEscapedLessThanSign
  | .commentStart | .commentStartDash | .commentLessThanSign | .commentLessThanSignBang
  | .commentEndDash | .commentEnd | .commentEndBang
  | .doctype | .afterDoctypeName | .afterDoctypeKeyword _ | .beforeDoctypeIdentifier _
  | .afterDoctypeIdentifier _ | .betweenDoctypeIdentifiers => 1
  | _ => 0

/-- Whether a reference that goes back to this state is part of an attribute value. -/
def isAttributeValue : Option State → Bool
  | some (.attributeValueQuoted _) | some .attributeValueUnquoted => true
  | _ => false

/-- How many tokens the characters that have been read may still turn into. -/
@[simp] def debt (returnState : Option State) (buffer : List Char) : State → Nat
  | .data | .plaintext | .text _ | .cdataSection | .scriptDataEscapeStart
  | .scriptDataEscapeStartDash
  | .scriptDataEscapedDash | .scriptDataEscapedDashDash | .scriptDataDoubleEscapeStart
  | .scriptDataDoubleEscaped | .scriptDataDoubleEscapedDash | .scriptDataDoubleEscapedDashDash
  | .scriptDataDoubleEscapedLessThanSign | .scriptDataDoubleEscapeEnd => 0
  | .endTagOpen | .cdataSectionEnd => 2
  | .textEndTagOpen _ | .textEndTagName _ => 2 + buffer.length
  | .namedCharacterReference => buffer.length + (isAttributeValue returnState).toNat
  | .ambiguousAmpersand => (isAttributeValue returnState).toNat
  | .numericCharacterReference | .numericReferenceStart _ =>
    max 1 buffer.length + (isAttributeValue returnState).toNat
  | .characterReference | .numericReferenceDigits _ | .numericReferenceEnd =>
    1 + (isAttributeValue returnState).toNat
  | _ => 1

/-- What a step from a tokenizer without waiting tokens comes to: the input ends, a token waits, or
there is less to read or a lower rank; and no more tokens are to come than before. -/
structure Moves (ahead : List Char) (state : State) (returnState : Option State)
    (buffer : List Char) (g : Gauge) : Prop where
  works : g.ended = true ∨ g.queued ≠ 0 ∨ g.ahead.length < ahead.length ∨
    g.ahead = ahead ∧ rank ahead.head? g.state < rank ahead.head? state
  yields : g.queued +
      (if g.ended then 0 else g.ahead.length + debt g.returnState g.buffer g.state + 1) ≤
    ahead.length + debt returnState buffer state + 1

/-! ## 2. What the moves do -/

section

variable (t : Tokenizer)

@[simp] theorem gauge_switchTo (s : State) :
    (t.switchTo s).gauge = { t.gauge with state := s } := rfl

@[simp] theorem gauge_report (kind : ErrorKind) : (t.report kind).gauge = t.gauge := rfl

@[simp] theorem gauge_markStart : t.markStart.gauge = t.gauge := rfl

@[simp] theorem gauge_enterReference (s : State) : (t.enterReference s).gauge =
    { t.gauge with returnState := some s, state := .characterReference } := rfl

@[simp] theorem gauge_input (input : Cursor) : ({ t with input } : Tokenizer).gauge =
    { t.gauge with ahead := input.ahead, previous := input.previous.map (·.ahead) } := rfl

@[simp] theorem gauge_buffer (buffer : List Char) :
    ({ t with buffer } : Tokenizer).gauge = { t.gauge with buffer } := rfl

theorem gauge_input_buffer (input : Cursor) (buffer : List Char) :
    ({ t with input, buffer } : Tokenizer).gauge = { t.gauge with
      ahead := input.ahead, previous := input.previous.map (·.ahead), buffer } := rfl

theorem gauge_buffer_code (buffer : List Char) (code : Nat) :
    ({ t with buffer, code } : Tokenizer).gauge = { t.gauge with buffer } := rfl

@[simp] theorem gauge_code (code : Nat) : ({ t with code } : Tokenizer).gauge = t.gauge := rfl

@[simp] theorem gauge_current (current : Option Token) : ({ t with current } : Tokenizer).gauge =
    { t.gauge with building := current.isSome } := rfl

theorem ahead_pushBack :
    t.input.pushBack.ahead = t.gauge.previous.getD t.gauge.ahead := t.input.ahead_pushBack

@[simp] theorem gauge_reconsumeIn (s : State) : (t.reconsumeIn s).gauge =
    { t.gauge with
      ahead := t.gauge.previous.getD t.gauge.ahead
      previous := t.input.pushBack.previous.map (·.ahead), state := s } := by
  rw [← ahead_pushBack]
  rfl

@[simp] theorem gauge_switchToReturn : t.switchToReturn.gauge =
    { t.gauge with state := t.gauge.returnState.getD .data, returnState := none } := rfl

@[simp] theorem gauge_emitChar (c : Char) :
    (t.emitChar c).gauge = { t.gauge with queued := t.gauge.queued + 1 } := by
  simp [gauge, emitChar, enqueue]

@[simp] theorem gauge_emitChars (cs : List Char) :
    (t.emitChars cs).gauge = { t.gauge with queued := t.gauge.queued + cs.length } := by
  rw [emitChars_eq]
  simp [gauge]

@[simp] theorem gauge_emitEnd : t.emitEnd.gauge =
    { t.gauge with queued := t.gauge.queued + 1, ended := true } := by
  simp [gauge, emitEnd, enqueue]

@[simp] theorem gauge_begin (token : Token) :
    (t.begin token).gauge = { t.gauge with building := true } := rfl

@[simp] theorem gauge_edit (e : Edit) : (t.edit e).gauge = t.gauge := by
  unfold edit
  split
  · rfl
  · next token hc =>
    split
    · simp [gauge, hc]
    · rfl

@[simp] theorem gauge_editTag (e : TagEdit) : (t.editTag e).gauge = t.gauge := gauge_edit t _

@[simp] theorem gauge_editComment (e : CommentEdit) : (t.editComment e).gauge = t.gauge :=
  gauge_edit t _

@[simp] theorem gauge_editDoctype (e : DoctypeEdit) :
    (t.editDoctype e).gauge = { t.gauge with building := true } := by
  rw [editDoctype, gauge_edit, gauge_begin]

@[simp] theorem gauge_dropDuplicate : t.dropDuplicate.gauge = t.gauge := by
  unfold dropDuplicate
  split
  · rw [gauge_editTag]
    rfl
  · rfl

@[simp] theorem gauge_newAttribute : t.newAttribute.gauge = t.gauge := by
  rw [newAttribute, gauge_editTag, gauge_dropDuplicate]

@[simp] theorem gauge_checkDuplicate : t.checkDuplicate.gauge = t.gauge := by
  unfold checkDuplicate
  split
  · split <;> rfl
  · rfl

@[simp] theorem gauge_emitCurrent : t.emitCurrent.gauge =
    { t.gauge with queued := t.gauge.queued + t.gauge.building.toNat, building := false } := by
  rw [← gauge_dropDuplicate t]
  unfold emitCurrent
  generalize t.dropDuplicate = t'
  cases hc : t'.current with
  | none => simp [gauge, hc]
  | some token =>
    cases token with
    | endTag tag =>
      by_cases ha : tag.attributes.isEmpty = true <;> by_cases hs : tag.selfClosing = true <;>
        simp [ha, hs, gauge, enqueue, report, hc]
    | _ => simp [gauge, enqueue, hc]

@[simp] theorem gauge_finish : t.finish.gauge =
    { t.gauge with
      state := .data, queued := t.gauge.queued + t.gauge.building.toNat, building := false } := by
  rw [finish, gauge_emitCurrent, gauge_switchTo]

@[simp] theorem gauge_deliver (cs : List Char) : (t.deliver cs).gauge =
    { t.gauge with
      queued := t.gauge.queued +
        if isAttributeValue t.gauge.returnState then 0 else cs.length } := by
  have hvalue : (cs.foldl (fun t c => t.editTag (.attributeValue c)) t).gauge = t.gauge :=
    List.foldlRecOn cs _ (motive := fun t' : Tokenizer => t'.gauge = t.gauge) rfl
      fun t' ht' _ _ => (gauge_editTag t' _).trans ht'
  unfold deliver
  rw [show t.inAttribute = isAttributeValue t.gauge.returnState from rfl]
  split
  · exact hvalue
  · exact gauge_emitChars t cs

@[simp] theorem gauge_flush : t.flush.gauge =
    { t.gauge with queued := t.gauge.queued +
        if isAttributeValue t.gauge.returnState then 0 else t.gauge.buffer.length } :=
  gauge_deliver t _

@[simp] theorem gauge_endInTag : t.endInTag.gauge =
    { t.gauge with queued := t.gauge.queued + 1, building := false, ended := true } := by
  simp [gauge, endInTag, emitEnd, enqueue, report]

end

/-! ## 3. The three kinds of steps -/

variable {t : Tokenizer} {g : Gauge} {ahead : List Char} {s : State} {r : Option State}
  {b : List Char} {k : Bool}

/-- The gauge when a character has been read from `ahead`, or its end, and no token waits. -/
abbrev Gauge.given (ahead : List Char) (s : State) (r : Option State) (b : List Char) (k : Bool) :
    Gauge := ⟨ahead.tail, some ahead, s, r, b, 0, k, false⟩

/-- The character is used up. -/
theorem Moves.read {c : Char} (hc : ahead.head? = some c) (ha : g.ahead = ahead.tail)
    (hy : g.queued + debt g.returnState g.buffer g.state ≤ debt r b s + 1) :
    Moves ahead s r b g := by
  have hlength : g.ahead.length + 1 = ahead.length := by
    rw [ha]
    cases ahead with
    | nil => cases hc
    | cons => rfl
  refine ⟨Or.inr (Or.inr (Or.inl (by omega))), ?_⟩
  split <;> omega

/-- The character is pushed back, and a token waits or the next state has a lower rank. -/
theorem Moves.back (ha : g.ahead = ahead)
    (hw : g.queued ≠ 0 ∨ rank ahead.head? g.state < rank ahead.head? s)
    (hy : g.queued + debt g.returnState g.buffer g.state ≤ debt r b s) : Moves ahead s r b g := by
  refine ⟨Or.inr (hw.imp_right fun hrank => Or.inr ⟨ha, hrank⟩), ?_⟩
  rw [ha]
  split <;> omega

/-- The input ends. -/
theorem Moves.last (he : g.ended = true) (hy : g.queued ≤ debt r b s + 1) :
    Moves ahead s r b g := by
  refine ⟨Or.inl he, ?_⟩
  rw [if_pos he]
  omega

theorem Moves.finish {c : Char} (hc : ahead.head? = some c) (ha : t.gauge.ahead = ahead.tail)
    (hq : t.gauge.queued = 0) : Moves ahead s r b t.finish.gauge := by
  have hk := Bool.toNat_le t.gauge.building
  refine .read hc (by simp [ha]) ?_
  rw [gauge_finish]
  show t.gauge.queued + t.gauge.building.toNat + 0 ≤ debt r b s + 1
  omega

theorem Moves.emitLast (hq : t.gauge.queued = 0) (hd : debt r b s = 1) :
    Moves ahead s r b t.emitCurrent.emitEnd.gauge := by
  have hk := Bool.toNat_le t.gauge.building
  refine .last (by simp) ?_
  rw [gauge_emitEnd, gauge_emitCurrent]
  show t.gauge.queued + t.gauge.building.toNat + 1 ≤ debt r b s + 1
  omega

end Tokenizer

end Hypertext
