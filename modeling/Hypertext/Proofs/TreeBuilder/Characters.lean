import Hypertext.Proofs.TreeBuilder.Rounds
import Mathlib.Algebra.BigOperators.Group.Finset.Piecewise

/-!
# No character is lost

Characters are held by text nodes, wherever these hang, and by the text of a table that is
still being collected. Steps move them about, but a character comes in with its token only,
and never goes.
-/

namespace Hypertext

/-! ## 1. The characters of a tree -/

namespace Tree

def charactersAt (t : Tree) (x : NodeId) : Multiset Char := ((t.text? x).getD "").toList

/-- The characters of all text nodes. -/
def characters (t : Tree) : Multiset Char := ∑ x ∈ Finset.range t.size, t.charactersAt x

variable {t t' : Tree}

theorem charactersAt_of_size_le {x : NodeId} (h : t.size ≤ x) : t.charactersAt x = 0 := by
  rw [charactersAt, text?, data?, get?_eq_none t x h]
  rfl

theorem characters_add {s : Multiset Char} {a : NodeId} (hsize : t.size ≤ t'.size)
    (ha : a < t'.size) (h : ∀ x, t'.charactersAt x = t.charactersAt x + if x = a then s else 0) :
    t'.characters = t.characters + s := by
  have hold : ∑ x ∈ Finset.range t'.size, t.charactersAt x = t.characters :=
    (Finset.sum_subset (Finset.range_subset_range.2 hsize) fun x _ hx =>
      charactersAt_of_size_le (by simpa using hx)).symm
  rw [characters, Finset.sum_congr rfl fun x _ => h x, Finset.sum_add_distrib, hold,
    Finset.sum_ite_eq' _ a, if_pos (Finset.mem_range.2 ha)]

theorem characters_congr (hsize : t.size ≤ t'.size) (h : ∀ x, t'.text? x = t.text? x) :
    t'.characters = t.characters := by
  have hat : ∀ x, t'.charactersAt x = t.charactersAt x := fun x => by
    rw [charactersAt, charactersAt, h]
  rw [characters, Finset.sum_congr rfl fun x _ => hat x]
  exact (Finset.sum_subset (Finset.range_subset_range.2 hsize) fun x _ hx =>
    charactersAt_of_size_le (by simpa using hx)).symm

/-- Text goes into the tree once, whether there is a node for it or not. -/
theorem characters_insertText (h : Forest t) {p : NodeId} (hp : p < t.size) (before : Option NodeId)
    (text : String) : (t.insertText p before text).2.characters = t.characters + ↑text.toList := by
  obtain ⟨prev, old, -, hold, heq⟩ | ⟨-, heq⟩ := insertText_cases t p before text
  · have hprev : prev < t.size := lt_size_of_data? (text?_eq_some.1 hold)
    rw [heq]
    refine characters_add (a := prev) (by simp [setData]) (by simpa [setData] using hprev) fun x =>
      ?_
    rw [charactersAt, charactersAt, text?_setData t hprev]
    split
    · next hx => simp [hx, hold, String.toList_append]
    · simp
  · have hlt : p < (t.alloc (.text text)).2.size := by
      rw [size_alloc]
      exact Nat.lt_succ_of_lt hp
    have m := moved_insertAt (h.linked.alloc (.text text)) hlt (by simp) before (c := t.size)
    rw [heq]
    refine characters_add (a := t.size) (by simp [m.size]) (by simp [m.size]) fun x => ?_
    rw [charactersAt, text?_congr (m.data x)]
    by_cases hx : x = t.size
    · have htext : (t.alloc (.text text)).2.text? x = some text := by
        rw [text?_eq_some, data?_alloc, if_pos hx]
      rw [htext, if_pos hx, charactersAt_of_size_le (Nat.le_of_eq hx.symm), zero_add]
      rfl
    · rw [text?_congr (t := t) (by rw [data?_alloc, if_neg hx]), if_neg hx, add_zero]
      rfl

end Tree

namespace TreeBuilder

open Hypertext.Tree

variable {token : Token} {mode : InsertionMode} {b b' a : TreeBuilder} {cs : List Char}
  {o : Outcome}

/-! ## 2. Steps -/

theorem Step.characters (s : Step token mode b b') (h : Rooted b) :
    b'.tree.characters = b.tree.characters := characters_congr (s.size_le h) (s.text? h)

theorem characters_insertChar (h : Rooted b) (hp : b.place.parent ≠ Tree.root) (c : Char) :
    (b.insertChar c).tree.characters = b.tree.characters + {c} := by
  rw [insertChar_eq_insertText h.anchored, if_neg hp,
    characters_insertText h.anchored.forest (place_lt h.anchored), Char.toString_eq_singleton,
    String.toList_singleton]
  rfl

theorem Acts.characters (h : Acts token mode b cs a) (hb : Rooted b) :
    a.tree.characters = b.tree.characters + ↑cs := by
  induction h with
  | refl => simp
  | step h s ih => rw [s.characters (h.rooted hb), ih]
  | char h hp _ c ih =>
    rw [characters_insertChar (h.rooted hb) hp, ih, add_assoc, ← Multiset.coe_singleton,
      Multiset.coe_add]

/-! ## 3. Rounds -/

/-- All characters that are in text nodes or waiting for their table. -/
def characters (b : TreeBuilder) : Multiset Char := b.tree.characters + ↑b.tableText

/-- What is new in a round is what its token writes. -/
theorem Round.characters (r : Round b token o) : ∃ new, Writes token o.next new ∧
    o.builder.characters = b.characters + ↑new := by
  obtain ⟨text, cs, new, hacts, hperm, hw, -⟩ := r.performs.exists_acts
  refine ⟨new, hw, ?_⟩
  have htree := hacts.characters (r.working.rooted text)
  have htext : o.builder.tableText = text := hacts.tableText
  rw [TreeBuilder.characters, htree, htext, TreeBuilder.characters, add_assoc, add_assoc,
    Multiset.coe_add, Multiset.coe_add, Multiset.coe_eq_coe.2 hperm]

theorem Rounds.characters (r : Rounds b token o b') : ∃ new : List Char,
    b'.characters = b.characters + ↑new ∧ Writes token .done new := by
  induction r with
  | last r hdone =>
    obtain ⟨new, hw, heq⟩ := r.characters
    exact ⟨new, heq, hdone ▸ hw⟩
  | @more b b' token token' o o' r hon hf _ ih =>
    obtain ⟨new, hw, heq⟩ := r.characters
    obtain ⟨new', heq', hw'⟩ := ih
    exact ⟨new', by rw [heq', heq, hw.of_handOn hon]; simp, hw'.of_follows hf⟩

/-! ## 4. Where a character surely goes -/

/-- The modes whose rules put any character into the current node. -/
def writingModes : List InsertionMode := [.inBody, .inCell, .inCaption, .inTemplate, .text]

/-- Their rules are done with a character at once. -/
theorem acts_writingModes (h : Spine b) (hm : b.mode ∈ writingModes) {c : Char} (hc : c ≠ '\x00') :
    (b.modeRules (.character c)).next = .done ∧
      Acts (.character c) b.mode b [c] (b.modeRules (.character c)).builder := by
  -- raw text goes to the current node as it is; in flow content, the open formatting elements are
  -- reconstructed first
  by_cases htext : b.mode = .text
  · have hs := h.standing
    rw [htext] at hs
    obtain ⟨-, x, outer, -, hopen, hx, -⟩ := hs
    have hbraced : Braced b b.openElements := braced_of_part fun y hy => by
      rw [hopen] at hy
      obtain rfl : x = y := Option.some.inj hy
      rw [hx.part]
      decide
    have hacts : Acts (.character c) b.mode b [c] (b.insertChar c) :=
      Acts.refl.char (place_ne_root h.planted (by simp [hopen])) hbraced c
    simp only [modeRules, htext, rawText]
    exact ⟨rfl, htext ▸ hacts⟩
  · have hr : Ready b := h.ready (by
      revert hm htext
      cases b.mode <;> simp [writingModes, bodyModes])
    have hroom : Roomy b := h.roomy (by
      revert hm htext
      cases b.mode <;> simp [writingModes])
    have hacts : Acts (.character c) b.mode b [c] (b.bodyChar c) := by
      have hrefl : ContentChanges (.character c) b.mode b [] b := .refl
      have hchar := (hrefl.bodyChar hr.toSound hr.begun hroom c).acts
      rwa [if_neg hc] at hchar
    have hrules : b.modeRules (.character c) = (b.bodyChar c).done := by
      revert hm htext
      cases hmode : b.mode <;> simp [writingModes, modeRules, hmode, inBody, inCell,
        inCaption, inTemplate]
    rw [hrules]
    exact ⟨rfl, hacts⟩

theorem Working.dispatch_character (h : Working b) (hm : b.mode ∈ writingModes) {e : Element}
    (he : b.currentElement? = some e) (hns : e.ns = .html) {c : Char} (hc : c ≠ '\x00') :
    (b.dispatch (.character c)).characters = b.characters + {c} := by
  obtain ⟨hdone, hacts⟩ := acts_writingModes h.spine hm hc
  have hrules : b.rules (.character c) = b.modeRules (.character c) :=
    if_pos (by simp [usesMode, he, hns])
  have hdispatch : b.dispatch (.character c) = (b.modeRules (.character c)).builder := by
    rw [dispatch, hrules, roundLimit, Nat.add_comm, settle_succ, Outcome.handOn?, hdone]
  have htext := hacts.tableText
  rw [hdispatch, characters, hacts.characters h.spine.toSound.rooted, htext, characters,
    Multiset.coe_singleton, add_right_comm]

/-! ## 5. Every token -/

theorem characters_release (b : TreeBuilder) : b.release.characters = b.characters := by
  obtain ⟨errors, he⟩ := release_eq b
  rw [he]
  rfl

/-- No character is lost or duplicated: a token other than a character changes nothing, and a
character comes in at most once. It surely does in the modes of flow content and of raw text, if the
current node is an HTML element; the line feed that opens a preformatted text is skipped. -/
theorem characters_of_reachable (h : Reachable b) (hs : b.stopped = false) (t : PositionedToken) :
    ∃ b', b.process t = .ok b' ∧
      ((∀ c, t.token ≠ .character c) → b'.characters = b.characters) ∧
      ∀ c, t.token = .character c →
        (b'.characters = b.characters ∨ b'.characters = b.characters + {c} ∨
          c = '\x00' ∧ b'.characters = b.characters + {'\uFFFD'}) ∧
        (c ≠ '\x00' → (∃ e, b.currentElement? = some e ∧ e.ns = .html) → b.mode ∈ writingModes →
          ¬ (b.skipNewline = true ∧ c = '\n') → b'.characters = b.characters + {c}) := by
  have hw := h.working hs
  obtain ⟨b', hp, -⟩ := hw.spine.process t
  refine ⟨b', hp, ?_⟩
  -- the first line feed of a preformatted text is skipped
  obtain ⟨hskip, hnewline, rfl⟩ | ⟨hskip, rfl⟩ := hw.process_cases hp
  · refine ⟨fun _ => rfl, fun c ht => ⟨Or.inl rfl, fun _ _ _ hnot => ?_⟩⟩
    rw [hnewline] at ht
    cases ht
    exact absurd ⟨hskip, rfl⟩ hnot
  · have hreceive : (b.receive t).characters = b.characters := rfl
    obtain ⟨new, hnew, hwrites⟩ := ((hw.receive t).rounds t.token).characters
    rw [characters_release, hnew, hreceive]
    refine ⟨fun hc => ?_, fun c ht => ⟨?_, fun hc ⟨e, he, hns⟩ hm _ => ?_⟩⟩
    · obtain rfl | ⟨-, c, ht, -⟩ := hwrites
      · simp
      · exact absurd ht (hc c)
    · obtain rfl | ⟨-, c', ht', rfl | ⟨hnull, rfl⟩⟩ := hwrites
      · exact Or.inl (by simp)
      · rw [ht] at ht'
        cases ht'
        exact Or.inr (Or.inl rfl)
      · rw [ht] at ht'
        cases ht'
        exact Or.inr (Or.inr ⟨hnull, rfl⟩)
    · have hdispatch := (hw.receive t).dispatch_character hm he hns hc
      rw [← ht, hnew, hreceive] at hdispatch
      exact hdispatch

/-- Text in a table, before it and in a cell. -/
def scattered : List Token :=
  [.startTag { name := "table" }, .character 'a', .character ' ', .startTag { name := "td" },
    .character 'b']

theorem characters_scattered : ∃ b b', feed {} scattered = .ok b ∧ b.stopped = false ∧
    b.mode = .inCell ∧ b.characters = {'a', ' ', 'b'} ∧
    b.process ⟨.character 'c', .start⟩ = .ok b' ∧
      b'.characters = {'a', ' ', 'b', 'c'} := by
  obtain ⟨b, hb, hs, hm, hcell, hskip, hc⟩ := exists_ok (feed {} scattered)
    (fun b => b.stopped = false ∧ b.mode = .inCell ∧
      (b.currentElement?.map (·.ns) = some .html) ∧ b.skipNewline = false ∧
      b.characters = {'a', ' ', 'b'}) (by with_unfolding_all decide)
  obtain ⟨e, he, hns⟩ := Option.map_eq_some_iff.1 hcell
  obtain ⟨b', hb', -, hall⟩ :=
    characters_of_reachable (.feed (.start false false) hb) hs ⟨.character 'c', .start⟩
  have hb'c := (hall 'c' rfl).2 (by decide) ⟨e, he, hns⟩ (by rw [hm]; decide) (by simp [hskip])
  refine ⟨b, b', hb, hs, hm, hc, hb', ?_⟩
  rw [hb'c, hc]
  decide

end TreeBuilder

end Hypertext
