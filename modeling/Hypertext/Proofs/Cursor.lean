import Hypertext.Cursor
import Hypertext.Proofs.Position

/-!
# Cursors

What is ahead of a cursor, which position that is, and how far the cursor has been: a read goes one
character on, and a push-back undoes the last read.
-/

namespace Hypertext.Cursor

variable {text ahead : List Char} {c : Cursor} {p : Position}

/-! ## 1. What is ahead -/

theorem ahead_pushBack (c : Cursor) :
    c.pushBack.ahead = (c.previous.map (·.ahead)).getD c.ahead := by
  unfold pushBack
  cases c.previous <;> rfl

theorem ahead_advance (c : Cursor) : c.advance.ahead = c.ahead.tail := by
  unfold advance
  cases c.ahead <;> rfl

theorem previous_advance (c : Cursor) : c.advance.previous.map (·.ahead) = some c.ahead := by
  unfold advance
  cases h : c.ahead <;> rfl

theorem ahead_skip (c : Cursor) (target : List Char) :
    (c.skip target).ahead = c.ahead.drop target.length := by
  induction target generalizing c with
  | nil => rfl
  | cons x target ih =>
    rw [skip, ih, ahead_advance, List.drop_tail, List.length_cons]

/-! ## 2. Cursors on a text -/

/-- The position is the one after what has been read of the text. -/
def Stands (text ahead : List Char) (p : Position) : Prop :=
  ∃ done, text = done ++ ahead ∧ p = Position.start.advanceBy done

/-- The cursor walks over this text, and can step back by what it read last. -/
structure Walks (text : List Char) (c : Cursor) : Prop where
  stands : Stands text c.ahead c.position
  previous : ∀ s, c.previous = some s → Stands text s.ahead s.position ∧ s.ahead.tail = c.ahead

theorem Stands.on (h : Stands text ahead p) : p.On text := by
  obtain ⟨done, htext, hp⟩ := h
  exact ⟨done, ⟨ahead, htext.symm⟩, hp⟩

/-- What is ahead and what has been read make up the text. -/
theorem Stands.offset_add (h : Stands text ahead p) : p.offset + ahead.length = text.length := by
  obtain ⟨done, rfl, rfl⟩ := h
  rw [Position.offset_advanceBy, List.length_append]
  exact congrArg (· + ahead.length) (Nat.zero_add _)

theorem Stands.advance {x : Char} (h : Stands text (x :: ahead) p) :
    Stands text ahead (p.advance x) := by
  obtain ⟨done, htext, rfl⟩ := h
  refine ⟨done ++ [x], by simp [htext], ?_⟩
  simp [Position.advanceBy]

theorem walks_ofString (s : String) : (ofString s).Walks (normalizeNewlines s.toList) :=
  ⟨⟨[], rfl, rfl⟩, nofun⟩

theorem Walks.advance (h : c.Walks text) : c.advance.Walks text := by
  unfold Cursor.advance
  split
  · next hahead =>
    refine ⟨h.stands, fun s hs => ?_⟩
    cases hs
    exact ⟨h.stands, by rw [hahead]; rfl⟩
  · next x rest hahead =>
    have hs := h.stands
    rw [hahead] at hs
    refine ⟨hs.advance, fun s hs' => ?_⟩
    cases hs'
    exact ⟨h.stands, by rw [hahead]; rfl⟩

theorem Walks.pushBack (h : c.Walks text) : c.pushBack.Walks text := by
  unfold Cursor.pushBack
  split
  · exact h
  · next s hs => exact ⟨(h.previous s hs).1, nofun⟩

theorem Walks.skip (h : c.Walks text) (target : List Char) : (c.skip target).Walks text := by
  induction target generalizing c with
  | nil => exact h
  | cons x target ih => exact ih h.advance

theorem Walks.offset_le_advance (h : c.Walks text) :
    c.position.offset ≤ c.advance.position.offset := by
  have here := h.stands.offset_add
  have next := h.advance.stands.offset_add
  rw [ahead_advance, List.length_tail] at next
  omega

theorem Walks.offset_le_skip (h : c.Walks text) (target : List Char) :
    c.position.offset ≤ (c.skip target).position.offset := by
  induction target generalizing c with
  | nil => exact Nat.le_refl _
  | cons x target ih => exact Nat.le_trans h.offset_le_advance (ih h.advance)

theorem Walks.pushBack_le_offset (h : c.Walks text) :
    c.pushBack.position.offset ≤ c.position.offset := by
  unfold Cursor.pushBack
  split
  · exact Nat.le_refl _
  · next s hs =>
    have here := h.stands.offset_add
    obtain ⟨hstands, htail⟩ := h.previous s hs
    have back := hstands.offset_add
    rw [← htail, List.length_tail] at here
    show s.position.offset ≤ c.position.offset
    omega

theorem pushBack_advance_ahead (c : Cursor) : c.advance.pushBack.ahead = c.ahead := by
  rw [ahead_pushBack, previous_advance, Option.getD_some]

theorem pushBack_advance_position (c : Cursor) : c.advance.pushBack.position = c.position := by
  unfold Cursor.advance
  split <;> rfl

/-- A push-back does not go before the place of an earlier one. -/
theorem Walks.pushBack_le_skip (h : c.Walks text) (target : List Char) :
    c.pushBack.position.offset ≤ (c.skip target).pushBack.position.offset := by
  induction target generalizing c with
  | nil => exact Nat.le_refl _
  | cons x target ih =>
    refine Nat.le_trans ?_ (ih h.advance)
    rw [pushBack_advance_position]
    exact h.pushBack_le_offset

/-- What has been pushed back is read again next. -/
theorem Walks.offset_le_advance_pushBack (h : c.Walks text) :
    c.position.offset ≤ c.pushBack.advance.position.offset := by
  have here := h.stands.offset_add
  have next := h.pushBack.advance.stands.offset_add
  rw [ahead_advance, ahead_pushBack] at next
  cases hp : c.previous with
  | none =>
    rw [hp, Option.map_none, Option.getD_none, List.length_tail] at next
    omega
  | some s =>
    rw [hp, Option.map_some, Option.getD_some, (h.previous s hp).2] at next
    omega

theorem pushBack_pushBack (c : Cursor) : c.pushBack.pushBack = c.pushBack := by
  cases h : c.previous <;> simp [pushBack, h]

/-! ## 3. How far a cursor has been -/

theorem highWater_advance (c : Cursor) :
    c.advance.highWater =
      if c.ahead = [] then c.highWater else max c.highWater (c.position.offset + 1) := by
  unfold advance
  split
  · next hahead => rw [if_pos hahead]
  · next x rest hahead =>
    rw [hahead, if_neg (List.cons_ne_nil x rest), ← Position.offset_advance c.position x]

/-- A read is fresh if there is a character to read and the cursor has not been behind it. -/
theorem fresh_advance (c : Cursor) :
    c.advance.fresh = true ↔ c.ahead ≠ [] ∧ c.highWater ≤ c.position.offset := by
  unfold advance
  split
  · next hahead => exact ⟨fun h => absurd h Bool.false_ne_true, fun h => absurd hahead h.1⟩
  · next x rest hahead =>
    rw [hahead, decide_eq_true_iff, Position.offset_advance, Nat.lt_succ_iff]
    exact ⟨fun hle => ⟨List.cons_ne_nil x rest, hle⟩, And.right⟩

theorem highWater_le_advance (c : Cursor) : c.highWater ≤ c.advance.highWater := by
  unfold Cursor.advance
  split
  · exact Nat.le_refl _
  · exact Nat.le_max_left _ _

theorem reached_advance (hr : c.position.offset ≤ c.highWater) :
    c.advance.position.offset ≤ c.advance.highWater := by
  unfold Cursor.advance
  split
  · exact hr
  · exact Nat.le_max_right _ _

theorem highWater_pushBack (c : Cursor) : c.pushBack.highWater = c.highWater := by
  unfold Cursor.pushBack
  split <;> rfl

end Hypertext.Cursor
