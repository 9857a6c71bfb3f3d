import Hypertext.Proofs.Cursor
import Hypertext.Proofs.Newlines
import Hypertext.Session

/-!
# What is done with a cursor

However a cursor is moved, its position is the one after the characters in front of the next one, a
push-back undoes the read right before it, and a read is fresh if it gives a character that no read
before it gave. The characters that have been read are those in front of the farthest place, so
comparing with that place is enough.
-/

namespace Hypertext

namespace Cursor

/-! ## 1. Calls and moves -/

/-- What is done with a cursor. -/
inductive Call where
  | advance
  | pushBack
  | skip (target : List Char)
deriving DecidableEq

def call (c : Cursor) : Call → Cursor
  | .advance => c.advance
  | .pushBack => c.pushBack
  | .skip target => c.skip target

def after (c : Cursor) (calls : List Call) : Cursor := calls.foldl call c

/-- A read or a step back. -/
inductive Move where
  | read
  | back
deriving DecidableEq

def move (c : Cursor) : Move → Cursor
  | .read => c.advance
  | .back => c.pushBack

/-- What a call is made of. -/
def Call.moves : Call → List Move
  | .advance => [.read]
  | .pushBack => [.back]
  | .skip target => target.map fun _ => .read

/-- How many characters of the text are in front of the next one. -/
def index (text : List Char) (c : Cursor) : Nat := text.length - c.ahead.length

/-- A read: the index of the character that it gave, unless it was at the end, and whether that
counted as fresh. -/
structure Read where
  place : Option Nat
  fresh : Bool
deriving DecidableEq

def nextRead (text : List Char) (c : Cursor) : Read :=
  ⟨c.peek.map fun _ => c.index text, c.advance.fresh⟩

/-- The reads among some moves, one after the other. -/
def reads (text : List Char) : Cursor → List Move → List Read
  | _, [] => []
  | c, .read :: moves => c.nextRead text :: reads text c.advance moves
  | c, .back :: moves => reads text c.pushBack moves

variable {text : List Char} {c : Cursor} {r : Read} {done before later : List Read} {i : Nat}

theorem skip_concat (c : Cursor) (target : List Char) (x : Char) :
    c.skip (target ++ [x]) = (c.skip target).advance := by
  induction target generalizing c with
  | nil => rfl
  | cons y target ih => exact ih c.advance

theorem foldl_move_moves (c : Cursor) (call : Call) : call.moves.foldl move c = c.call call := by
  cases call with
  | advance => rfl
  | pushBack => rfl
  | skip target =>
    induction target generalizing c with
    | nil => rfl
    | cons x target ih => exact ih c.advance

theorem after_eq_foldl_move (c : Cursor) (calls : List Call) :
    c.after calls = (calls.flatMap Call.moves).foldl move c := by
  induction calls generalizing c with
  | nil => rfl
  | cons call calls ih =>
    rw [List.flatMap_cons, List.foldl_append, foldl_move_moves, ← ih, after, after, List.foldl_cons]

/-! ## 2. Positions -/

theorem Walks.move (h : c.Walks text) (m : Move) : (c.move m).Walks text := by
  cases m with
  | read => exact h.advance
  | back => exact h.pushBack

theorem Walks.moves (h : c.Walks text) (moves : List Move) :
    (moves.foldl Cursor.move c).Walks text := by
  induction moves generalizing c with
  | nil => exact h
  | cons m moves ih => exact ih (h.move m)

theorem Walks.index_eq (h : c.Walks text) : c.index text = c.position.offset := by
  have hoffset := h.stands.offset_add
  unfold index
  omega

/-- The next character is the one at the index, and the position is the one after all in
front of it. -/
theorem Walks.split (h : c.Walks text) : c.ahead = text.drop (c.index text) ∧
    c.position = Position.start.advanceBy (text.take (c.index text)) := by
  obtain ⟨done, htext, hposition⟩ := h.stands
  have hindex : c.index text = done.length := by
    rw [index, htext, List.length_append, Nat.add_sub_cancel]
  rw [hindex, htext, List.drop_left, List.take_left]
  exact ⟨rfl, hposition⟩

/-! ## 3. Fresh characters -/

/-- A character of the text has been read if it is in front of the farthest place. -/
structure Recorded (text : List Char) (done : List Read) (c : Cursor) : Prop where
  walks : c.Walks text
  reached : c.position.offset ≤ c.highWater
  read_iff : ∀ i, (∃ r ∈ done, r.place = some i) ↔ i < c.highWater

theorem Recorded.back (h : Recorded text done c) : Recorded text done c.pushBack := by
  refine ⟨h.walks.pushBack, ?_, ?_⟩
  · rw [highWater_pushBack]
    exact Nat.le_trans h.walks.pushBack_le_offset h.reached
  · rw [highWater_pushBack]
    exact h.read_iff

theorem Walks.place_nextRead (h : c.Walks text) :
    (c.nextRead text).place = some i ↔ c.ahead ≠ [] ∧ i = c.position.offset := by
  rw [nextRead, peek, Option.map_eq_some_iff, h.index_eq]
  cases c.ahead <;> simp [eq_comm]

theorem Recorded.read (h : Recorded text done c) :
    Recorded text (done ++ [c.nextRead text]) c.advance := by
  refine ⟨h.walks.advance, reached_advance h.reached, fun i => ?_⟩
  have hmem : (∃ r ∈ done ++ [c.nextRead text], r.place = some i) ↔
      i < c.highWater ∨ c.ahead ≠ [] ∧ i = c.position.offset := by
    simp only [List.mem_append, List.mem_singleton, or_and_right, exists_or,
      exists_eq_left, h.read_iff, h.walks.place_nextRead]
  have hreached := h.reached
  rw [hmem, highWater_advance]
  split
  · next hahead => simp [hahead]
  · next hahead =>
    -- the place of the cursor is the farthest one or has been left behind
    rw [and_iff_right hahead]
    omega

/-- A read is fresh if it gives a character that has not been read. -/
theorem Recorded.fresh_iff (h : Recorded text done c) : (c.nextRead text).fresh = true ↔
    ∃ i, (c.nextRead text).place = some i ∧ ∀ r ∈ done, r.place ≠ some i := by
  have hunread : (∀ r ∈ done, r.place ≠ some c.position.offset) ↔
      c.highWater ≤ c.position.offset := by
    rw [← Nat.not_lt, ← h.read_iff]
    simp only [not_exists, not_and, ne_eq]
  simp only [h.walks.place_nextRead]
  rw [nextRead, fresh_advance]
  constructor
  · exact fun ⟨hne, hle⟩ => ⟨_, ⟨hne, rfl⟩, hunread.2 hle⟩
  · rintro ⟨i, ⟨hne, rfl⟩, hnot⟩
    exact ⟨hne, hunread.1 hnot⟩

/-- Among all reads, those are fresh that give a character for the first time. -/
theorem Recorded.fresh_iff_of_reads (h : Recorded text done c) {moves : List Move}
    (hreads : reads text c moves = before ++ r :: later) :
    r.fresh = true ↔ ∃ i, r.place = some i ∧ ∀ r' ∈ done ++ before, r'.place ≠ some i := by
  induction moves generalizing c done before with
  | nil => simp [reads] at hreads
  | cons m moves ih =>
    cases m with
    | back => exact ih h.back hreads
    | read =>
      rw [reads] at hreads
      cases before with
      | nil =>
        obtain ⟨rfl, -⟩ := List.cons.inj hreads
        rw [List.append_nil]
        exact h.fresh_iff
      | cons r' before =>
        obtain ⟨rfl, hrest⟩ := List.cons.inj hreads
        rw [List.append_cons]
        exact ih h.read hrest

theorem recorded_ofString (s : String) : Recorded (normalizeNewlines s.toList) [] (ofString s) :=
  ⟨walks_ofString s, Nat.le_refl _, fun _ => ⟨nofun, nofun⟩⟩

end Cursor

/-! ## 4. Normalized texts -/

theorem ofString_normalizeNewlines (input : String) :
    Cursor.ofString (String.ofList (normalizeNewlines input.toList)) = Cursor.ofString input := by
  rw [Cursor.ofString, String.toList_ofList, normalizeNewlines_normalizeNewlines, Cursor.ofString]

/-- Documents are parsed alike if a cursor reads them alike. -/
theorem parseDocument_congr {input input' : String}
    (h : Cursor.ofString input = Cursor.ofString input')
    (options : ParseOptions) : parseDocument input options = parseDocument input' options := by
  have htokenizer : Tokenizer.ofString input = Tokenizer.ofString input' := by
    rw [Tokenizer.ofString, h, Tokenizer.ofString]
  have hstart : Session.start input options = Session.start input' options := by
    rw [Session.start, Session.tokenizerFor, htokenizer, Session.start, Session.tokenizerFor]
  rw [parseDocument, hstart, parseDocument]

namespace Cursor

/-- A cursor holds the text with all newlines normalized, which is parsed like the text itself.
Whatever has been called, the position is the one after the characters in front of the next one, a
read that is pushed back leaves the cursor where it was, a second push-back does nothing, and every
read, also in a skip, is fresh if it gives a character that no read before it gave. -/
theorem consistent_of_calls (input : String) (calls : List Call) :
    let text := normalizeNewlines input.toList
    let start := ofString input
    let c := start.after calls
    let moves := calls.flatMap Call.moves
    (start.ahead = text ∧
      text = replaceAll ['\r'] ['\n'] (replaceAll ['\r', '\n'] ['\n'] input.toList)) ∧
    (ofString (String.ofList text) = start ∧
      ∀ options, parseDocument (String.ofList text) options = parseDocument input options) ∧
    (c.ahead = text.drop (c.index text) ∧
      c.position = Position.start.advanceBy (text.take (c.index text))) ∧
    (c.advance.pushBack.ahead = c.ahead ∧ c.advance.pushBack.position = c.position ∧
      c.advance.pushBack.pushBack = c.advance.pushBack) ∧
    (c = moves.foldl move start ∧ ∀ target x, c.skip (target ++ [x]) = (c.skip target).advance) ∧
    ∀ before r later, reads text start moves = before ++ r :: later →
      (r.fresh = true ↔ ∃ i, r.place = some i ∧ ∀ r' ∈ before, r'.place ≠ some i) := by
  intro text start c moves
  have hmoves : c = moves.foldl move start := after_eq_foldl_move start calls
  have hwalks : c.Walks text := hmoves ▸ (walks_ofString input).moves moves
  refine ⟨⟨rfl, normalizeNewlines_eq_replaceAll _⟩,
    ⟨ofString_normalizeNewlines input, fun options => ?_⟩, hwalks.split,
    ⟨pushBack_advance_ahead c, pushBack_advance_position c, pushBack_pushBack _⟩,
    ⟨hmoves, fun target x => skip_concat c target x⟩, fun before r later hreads => ?_⟩
  · exact parseDocument_congr (ofString_normalizeNewlines input) options
  · have hfresh := (recorded_ofString input).fresh_iff_of_reads hreads
    rwa [List.nil_append] at hfresh

/-- The line feed at the end is read for the first time in a skip that begins with a character that
was pushed back and goes on beyond the end. -/
theorem consistent_skippedAgain :
    let text := normalizeNewlines "a\r\nb\r".toList
    let calls : List Call :=
      [.advance, .advance, .pushBack, .pushBack, .skip ['\n', 'b'], .pushBack,
        .skip ['b', '\n', 'c'], .pushBack]
    let before : List Read :=
    [⟨some 0, true⟩, ⟨some 1, true⟩, ⟨some 1, false⟩, ⟨some 2, true⟩, ⟨some 2, false⟩]
    reads text (ofString "a\r\nb\r") (calls.flatMap Call.moves) =
      before ++ ⟨some 3, true⟩ :: [⟨none, false⟩] ∧
      ∃ i, some 3 = some i ∧ ∀ r ∈ before, r.place ≠ some i := by
  intro text calls before
  have hreads : reads text (ofString "a\r\nb\r") (calls.flatMap Call.moves) =
      before ++ ⟨some 3, true⟩ :: [⟨none, false⟩] := by decide
  obtain ⟨-, -, -, -, -, hfresh⟩ := consistent_of_calls "a\r\nb\r" calls
  exact ⟨hreads, (hfresh before _ _ hreads).1 rfl⟩

end Cursor

end Hypertext
