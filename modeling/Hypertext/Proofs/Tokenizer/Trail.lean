import Hypertext.Proofs.Tokenizer.Gauge

/-!
# How far finished tokens reach

The tokenizer places a token when it is opened, or when a character is finished, and it may push a
character back in between. So its own place does not show that later tokens are not placed before
earlier ones. What is kept is how far the tokens that are finished reach: up to the next character,
up to the one read last, or up to the `<` of a token that is open.
-/

namespace Hypertext

/-! ## 1. Rising positions -/

/-- The tokens are placed one after the other, from the offset `low` up to `high`. -/
def Rising (high : Nat) : (low : Nat) → List PositionedToken → Prop
  | low, [] => low ≤ high
  | low, p :: rest => low ≤ p.position.offset ∧ Rising high p.position.offset rest

theorem Rising.mono {low high high' : Nat} {queue : List PositionedToken}
    (h : Rising high low queue) (hle : high ≤ high') : Rising high' low queue := by
  induction queue generalizing low with
  | nil => exact Nat.le_trans h hle
  | cons p rest ih => exact ⟨h.1, ih h.2⟩

theorem Rising.concat {low high : Nat} {queue : List PositionedToken} {p : PositionedToken}
    (h : Rising high low queue) (hp : p.position.offset = high) :
    Rising high low (queue ++ [p]) := by
  induction queue generalizing low with
  | nil => exact ⟨Nat.le_trans h (Nat.le_of_eq hp.symm), Nat.le_of_eq hp⟩
  | cons q rest ih => exact ⟨h.1, ih h.2⟩

/-! ## 2. What holds in the middle of a rule -/

/-- Whether a token comes from markup. -/
def Token.isMarkup : Token → Bool
  | .character _ | .endOfFile => false
  | _ => true

namespace Tokenizer

/-- The parts that hold positions. -/
structure Trail where
  input : Cursor
  start : Position
  queue : List PositionedToken
  errors : ErrorLog

def trail (t : Tokenizer) : Trail := ⟨t.input, t.tokenStart, t.pending, t.errors⟩

/-- All positions are in the text. -/
structure Trail.Tracks (text : List Char) (g : Trail) : Prop where
  input : g.input.Walks text
  start : g.start.On text
  queue : ∀ p ∈ g.queue, p.position.On text
  errors : g.errors.On text

section

variable (text : List Char) (low : Nat) (t : Tokenizer)

/-- What has been finished reaches up to the next character at most. -/
def Next : Prop :=
  t.trail.Tracks text ∧ Rising t.input.advance.position.offset low t.pending

/-- What has been finished reaches up to the character read last at most. -/
def Here : Prop := t.trail.Tracks text ∧ Rising t.input.position.offset low t.pending

/-- What has been finished reaches up to the place of a push-back at most. -/
def Held : Prop := t.trail.Tracks text ∧ Rising t.input.pushBack.position.offset low t.pending

/-- A token was opened after all that has been finished. -/
def Opened : Prop :=
  t.trail.Tracks text ∧ Rising t.tokenStart.offset low t.pending ∧
    t.tokenStart.offset ≤ t.input.position.offset

/-- A token was opened after all that has been finished, and a push-back does not go before it. -/
def Marked : Prop :=
  t.trail.Tracks text ∧ Rising t.tokenStart.offset low t.pending ∧
    t.tokenStart.offset ≤ t.input.pushBack.position.offset

end

variable {text : List Char} {low : Nat} {t : Tokenizer} {c : Option Char}

theorem Trail.Tracks.here {g : Trail} (h : g.Tracks text) : g.input.position.On text :=
  h.input.stands.on

theorem Trail.Tracks.report {g : Trail} (h : g.Tracks text) (kind : ErrorKind) :
    { g with errors := g.errors.record kind g.input.position }.Tracks text := by
  exact ⟨h.input, h.start, h.queue, h.errors.record h.here⟩

theorem Trail.Tracks.enqueue {g : Trail} (h : g.Tracks text) {p : PositionedToken}
    (hp : p.position.On text) :
    { g with queue := g.queue ++ [p] }.Tracks text := by
  refine ⟨h.input, h.start, fun q hq => ?_, h.errors⟩
  obtain hq | hq := List.mem_append.1 hq
  · exact h.queue q hq
  · rw [List.mem_singleton.1 hq]
    exact hp

/-! ### From one to another -/

theorem Here.next (h : Here text low t) : Next text low t :=
  ⟨h.1, h.2.mono h.1.input.offset_le_advance⟩

theorem Held.here (h : Held text low t) : Here text low t :=
  ⟨h.1, h.2.mono h.1.input.pushBack_le_offset⟩

theorem Opened.here (h : Opened text low t) : Here text low t :=
  ⟨h.1, h.2.1.mono h.2.2⟩

theorem Marked.opened (h : Marked text low t) : Opened text low t :=
  ⟨h.1, h.2.1, Nat.le_trans h.2.2 h.1.input.pushBack_le_offset⟩

theorem Marked.held (h : Marked text low t) : Held text low t := ⟨h.1, h.2.1.mono h.2.2⟩

/-- Pushing back what was read last makes it the next character. -/
theorem Here.reconsumeIn (h : Here text low t) (s : State) : Next text low (t.reconsumeIn s) :=
  ⟨⟨h.1.input.pushBack, h.1.start, h.1.queue, h.1.errors⟩,
    h.2.mono h.1.input.offset_le_advance_pushBack⟩

/-! ### Reports and characters -/

theorem Here.report (h : Here text low t) (kind : ErrorKind) : Here text low (t.report kind) :=
  ⟨h.1.report kind, h.2⟩

theorem Held.report (h : Held text low t) (kind : ErrorKind) : Held text low (t.report kind) :=
  ⟨h.1.report kind, h.2⟩

theorem Here.emitChar (h : Here text low t) (c : Char) : Here text low (t.emitChar c) :=
  ⟨h.1.enqueue h.1.here, h.2.concat rfl⟩

theorem Here.emitChars (h : Here text low t) (cs : List Char) : Here text low (t.emitChars cs) := by
  induction cs generalizing t with
  | nil => exact h
  | cons c cs ih => exact ih (h.emitChar c)

theorem Here.emitEnd (h : Here text low t) : Here text low t.emitEnd :=
  ⟨h.1.enqueue (p := ⟨.endOfFile, t.input.position⟩) h.1.here, h.2.concat rfl⟩

theorem Here.switchTo (h : Here text low t) (s : State) : Here text low (t.switchTo s) := h

theorem Here.buffer (h : Here text low t) (buffer : List Char) :
    Here text low { t with buffer } := h

theorem Here.mark (h : Here text low t) :
    Opened text low t.markStart :=
  ⟨⟨h.1.input, h.1.here, h.1.queue, h.1.errors⟩, h.2, Nat.le_refl _⟩

/-- Stepping back, and on again. -/
theorem Held.back (h : Held text low t) :
    Here text low { t with input := t.input.pushBack } :=
  ⟨⟨h.1.input.pushBack, h.1.start, h.1.queue, h.1.errors⟩, h.2⟩

theorem Here.skip (h : Here text low t) (target : List Char) :
    Here text low { t with input := t.input.skip target } :=
  ⟨⟨h.1.input.skip target, h.1.start, h.1.queue, h.1.errors⟩,
    h.2.mono (h.1.input.offset_le_skip target)⟩

/-! ### Open tokens -/

/-- The positions are all that matters. -/
theorem Marked.congr {t' : Tokenizer} (h : Marked text low t) (ht : t'.trail = t.trail) :
    Marked text low t' := by
  obtain ⟨hinput, hstart, hqueue, -⟩ := Trail.mk.inj ht
  refine ⟨ht ▸ h.1, ?_, ?_⟩
  · rw [hstart, hqueue]
    exact h.2.1
  · rw [hstart, hinput]
    exact h.2.2

theorem trail_edit (t : Tokenizer) (e : Edit) : (t.edit e).trail = t.trail := by
  unfold edit
  split
  · rfl
  · split <;> rfl

theorem trail_editTag (t : Tokenizer) (e : TagEdit) : (t.editTag e).trail = t.trail :=
  trail_edit t _

theorem trail_dropDuplicate (t : Tokenizer) : t.dropDuplicate.trail = t.trail := by
  unfold dropDuplicate
  split
  · exact trail_editTag _ _
  · rfl

@[grind ←]
theorem Marked.report (h : Marked text low t) (kind : ErrorKind) :
    Marked text low (t.report kind) := ⟨h.1.report kind, h.2⟩

@[grind ←]
theorem Marked.switchTo (h : Marked text low t) (s : State) :
    Marked text low (t.switchTo s) := h

@[grind ←]
theorem Marked.begin (h : Marked text low t) (token : Token) :
    Marked text low (t.begin token) := h

@[grind ←]
theorem Marked.enterReference (h : Marked text low t) (s : State) :
    Marked text low (t.enterReference s) := h

@[grind ←]
theorem Marked.editTag (h : Marked text low t) (e : TagEdit) :
    Marked text low (t.editTag e) := h.congr (trail_edit t _)

@[grind ←]
theorem Marked.editComment (h : Marked text low t) (e : CommentEdit) :
    Marked text low (t.editComment e) := h.congr (trail_edit t _)

@[grind ←]
theorem Marked.editDoctype (h : Marked text low t) (e : DoctypeEdit) :
    Marked text low (t.editDoctype e) := (h.begin _).congr (trail_edit _ _)

@[grind ←]
theorem Marked.newAttribute (h : Marked text low t) : Marked text low t.newAttribute :=
  (h.congr (trail_dropDuplicate t)).editTag _

@[grind ←]
theorem Marked.checkDuplicate (h : Marked text low t) :
    Marked text low t.checkDuplicate := by
  unfold Tokenizer.checkDuplicate
  split
  · split
    · exact h.report _
    · exact h
  · exact h

theorem Marked.pushBack (h : Marked text low t) :
    Marked text low { t with input := t.input.pushBack } := by
  refine ⟨⟨h.1.input.pushBack, h.1.start, h.1.queue, h.1.errors⟩, h.2.1, ?_⟩
  show t.tokenStart.offset ≤ t.input.pushBack.pushBack.position.offset
  rw [Cursor.pushBack_pushBack]
  exact h.2.2

@[grind ←]
theorem Marked.reconsumeIn (h : Marked text low t) (s : State) :
    Marked text low (t.reconsumeIn s) := h.pushBack

theorem Marked.buffer (h : Marked text low t) (buffer : List Char) :
    Marked text low { t with buffer } := h

theorem Marked.skip (h : Marked text low t) (target : List Char) :
    Marked text low { t with input := t.input.skip target } :=
  ⟨⟨h.1.input.skip target, h.1.start, h.1.queue, h.1.errors⟩, h.2.1,
    Nat.le_trans h.2.2 (h.1.input.pushBack_le_skip target)⟩

theorem Opened.switchTo (h : Opened text low t) (s : State) :
    Opened text low (t.switchTo s) := h

/-- A token that is finished is placed where it was opened. -/
@[grind ←]
theorem Marked.enqueue (h : Marked text low t) (token : Token) :
    Marked text low (t.enqueue token t.tokenStart) :=
  ⟨h.1.enqueue h.1.start, h.2.1.concat rfl, h.2.2⟩

@[grind ←]
theorem Marked.emitCurrent (h : Marked text low t) : Marked text low t.emitCurrent := by
  have h' : Marked text low t.dropDuplicate := h.congr (trail_dropDuplicate t)
  unfold Tokenizer.emitCurrent
  generalize t.dropDuplicate = t' at h'
  have hnone : ∀ last, Marked text low { t' with current := none, lastStartTag := last } :=
    fun _ => h'
  cases hc : t'.current with
  | none => simpa only [hc] using h'
  | some token =>
    cases token with
    | startTag tag => simpa only [hc] using (hnone (some tag.name)).enqueue _
    | endTag tag =>
      simp only [hc]
      split_ifs
      · exact ((hnone _).report _).enqueue _
      · exact (((hnone _).report _).report _).enqueue _
      · exact (hnone _).enqueue _
      · exact ((hnone _).report _).enqueue _
    | _ => simpa only [hc] using (hnone _).enqueue _

@[grind ←]
theorem Marked.finish (h : Marked text low t) : Marked text low t.finish :=
  (h.switchTo .data).emitCurrent

theorem Marked.here (h : Marked text low t) : Here text low t := h.held.here

end Tokenizer

end Hypertext
