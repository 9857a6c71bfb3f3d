import Hypertext.Dom.Outline
import Hypertext.Proofs.Dom.Checked
import Hypertext.Proofs.Dom.Forest
import Hypertext.Proofs.Dom.Walks
import Mathlib.Algebra.Order.BigOperators.Group.List
import Mathlib.Data.Prod.Lex
import Mathlib.Data.String.Basic
import Mathlib.Tactic.IntervalCases

/-!
# What an outline shows

An outline is written with a stack of nodes that are still to be shown, so that no call goes as deep
as the tree. It shows what a recursion would: a node, then what is in its contents, then what is
below it. The attributes of an element are kept in no order, and are shown in the order of the names
they are shown under.
-/

namespace Hypertext

open Relation

/-! ## 1. The order of attributes -/

namespace Attributes

variable {as bs : List (String × String)}

/-- Pairs are compared by name, and by value under the same name. -/
theorem pairLe_iff {a b : String × String} : pairLe a b = true ↔ toLex a ≤ toLex b := by
  rw [Prod.Lex.le_iff, le_iff_lt_or_eq]
  simp only [pairLe, Bool.or_eq_true, Bool.and_eq_true, decide_eq_true_eq, beq_iff_eq, ofLex_toLex]

/-- Sorting forgets the order before. -/
theorem mergeSort_congr (h : as.Perm bs) : as.mergeSort pairLe = bs.mergeSort pairLe := by
  have hsorted (l : List (String × String)) : (l.mergeSort pairLe).Pairwise (pairLe · ·) := by
    refine List.pairwise_mergeSort (fun a b c => ?_) (fun a b => ?_) l
    · simp only [pairLe_iff]
      exact le_trans
    · simp only [Bool.or_eq_true, pairLe_iff]
      exact le_total _ _
  have hperm : (as.mergeSort pairLe).Perm (bs.mergeSort pairLe) :=
    ((List.mergeSort_perm as _).trans h).trans (List.mergeSort_perm bs _).symm
  -- different pairs are never ordered both ways, so the pairs can be sorted in one way only
  refine List.Perm.eq_of_pairwise (fun a b _ _ hab hba => ?_) (hsorted as) (hsorted bs) hperm
  exact toLex.injective (le_antisymm (pairLe_iff.1 hab) (pairLe_iff.1 hba))

end Attributes

/-- The same, but the attributes of an element may come in another order. -/
inductive NodeData.Reordered : NodeData → NodeData → Prop
  | same (data : NodeData) : Reordered data data
  | element {e : Element} {as : Attributes} (h : e.attributes.Perm as) :
      Reordered (.element e) (.element { e with attributes := as })

theorem NodeData.Reordered.nodeLines_eq {data data' : NodeData} (h : data.Reordered data')
    (depth : Nat) : Outline.nodeLines depth data' = Outline.nodeLines depth data := by
  cases h with
  | same => rfl
  | @element e as h =>
    have hshown : Outline.shownAttributes { e with attributes := as } = Outline.shownAttributes e :=
      Attributes.mergeSort_congr (h.symm.map _)
    rw [Outline.nodeLines, Outline.nodeLines, hshown]
    rfl

namespace Tree

/-- The same tree, but the attributes of every element may come in another order. -/
structure Reordered (t t' : Tree) : Prop where
  size : t'.size = t.size
  node : ∀ x n, t.get? x = some n → ∃ data, n.data.Reordered data ∧ t'.get? x = some { n with data }

variable {t t' : Tree} {c p x : NodeId} {pending stack : List (NodeId × Nat)}
  {lines : List Outline.Line}

namespace Reordered

variable (r : t.Reordered t')
include r

theorem cases (x : NodeId) : t.get? x = none ∧ t'.get? x = none ∨
    ∃ n data, t.get? x = some n ∧ t'.get? x = some { n with data } ∧ n.data.Reordered data := by
  cases hn : t.get? x with
  | some n =>
    obtain ⟨data, hdata, hn'⟩ := r.node x n hn
    exact Or.inr ⟨n, data, rfl, hn', hdata⟩
  | none =>
    have hsize : t.size ≤ x := Array.getElem?_eq_none_iff.1 hn
    exact Or.inl ⟨rfl, get?_eq_none t' x (r.size.trans_le hsize)⟩

theorem children (x : NodeId) : t'.children x = t.children x := by
  rcases r.cases x with ⟨hn, hn'⟩ | ⟨n, data, hn, hn', -⟩ <;> simp only [Tree.children, hn, hn']

theorem contents? (x : NodeId) : t'.contents? x = t.contents? x := by
  rcases r.cases x with ⟨hn, hn'⟩ | ⟨n, data, hn, hn', hdata⟩
  · simp only [Tree.contents?, element?, data?, hn, hn']
  · simp only [Tree.contents?, element?, data?, hn, hn', Option.map_some]
    generalize n.data = old at hdata
    cases hdata <;> rfl

theorem linesOf (x : NodeId) (depth : Nat) : t'.linesOf x depth = t.linesOf x depth := by
  rcases r.cases x with ⟨hn, hn'⟩ | ⟨n, data, hn, hn', hdata⟩
  · simp only [Tree.linesOf, data?, hn, hn']
  · simp only [Tree.linesOf, data?, hn, hn', Option.map_some]
    exact hdata.nodeLines_eq depth

theorem outlineLoop (fuel : Nat) (pending : List (NodeId × Nat)) :
    t'.outlineLoop fuel pending = t.outlineLoop fuel pending := by
  induction fuel generalizing pending with
  | zero => rfl
  | succ fuel ih =>
    cases pending with
    | nil => rfl
    | cons head pending =>
      obtain ⟨x, depth⟩ := head
      have hbelow : t'.below x depth = t.below x depth := by
        simp only [below, r.contents?, r.children]
      rw [Tree.outlineLoop, Tree.outlineLoop, r.linesOf, hbelow, ih]

theorem outline_eq : t'.outline = t.outline := by
  rw [outline, outline, outlineLines, outlineLines, outlineLimit, outlineLimit, r.size, r.children,
    r.outlineLoop]

end Reordered

theorem reordered_modifyElement (t : Tree) (id : NodeId) {f : Attributes → Attributes}
    (hf : ∀ as, List.Perm as (f as)) :
    t.Reordered (t.modifyElement id fun e => { e with attributes := f e.attributes }) where
  size := size_modify t id _
  node x n hn := by
    rw [modifyElement, get?_modify]
    split
    · rw [hn, Option.map_some]
      obtain ⟨data, parent, children, next, prev⟩ := n
      cases data with
      | element e => exact ⟨_, .element (hf e.attributes), rfl⟩
      | _ => exact ⟨_, .same _, rfl⟩
    · exact ⟨n.data, .same _, hn⟩

/-! ## 2. The recursion -/

/-- The children of the root of the contents of a template. -/
def inside (t : Tree) (x : NodeId) : List NodeId :=
  match t.contents? x with
  | some root => t.children root
  | none => []

theorem below_eq (t : Tree) (x : NodeId) (depth : Nat) :
    t.below x depth = (t.inside x).map (·, depth + 2) ++ (t.children x).map (·, depth + 1) := by
  rw [below, inside]
  cases t.contents? x <;> rfl

/-- `c` is shown directly below `p`. -/
def Nested (t : Tree) (p c : NodeId) : Prop := c ∈ t.inside p ∨ c ∈ t.children p

/-- The lines of a node, then those of its contents two levels deeper, then those of its children
one level deeper. -/
def shown (t : Tree) (hwf : WellFounded fun c p => t.Nested p c) (x : NodeId) (depth : Nat) :
    List Outline.Line :=
  t.linesOf x depth
    ++ (t.inside x).attach.flatMap (fun c => t.shown hwf c.1 (depth + 2))
    ++ (t.children x).attach.flatMap (fun c => t.shown hwf c.1 (depth + 1))
termination_by hwf.wrap x
decreasing_by
  · exact Or.inl c.2
  · exact Or.inr c.2

variable {hwf : WellFounded fun c p => t.Nested p c}

theorem shown_eq (x : NodeId) (depth : Nat) : t.shown hwf x depth = t.linesOf x depth
    ++ (t.inside x).flatMap (t.shown hwf · (depth + 2)) ++
      (t.children x).flatMap (t.shown hwf · (depth + 1)) := by
  have hattach (l : List NodeId) (d : Nat) :
      l.attach.flatMap (fun c => t.shown hwf c.1 d) = l.flatMap (t.shown hwf · d) := by
    rw [List.flatMap_def, List.flatMap_def, List.attach_map_val (f := (t.shown hwf · d))]
  rw [shown, hattach, hattach]

/-- What is directly below a node is shown after its own lines. -/
theorem shown_eq_below (x : NodeId) (depth : Nat) : t.shown hwf x depth =
    t.linesOf x depth ++ (t.below x depth).flatMap fun p => t.shown hwf p.1 p.2 := by
  rw [shown_eq, below_eq, List.flatMap_append, List.flatMap_map, List.flatMap_map,
    List.append_assoc]

/-! ## 3. The loop -/

/-- What is put on a stack, whose top is at its end, to be shown after a node: its children, from
the last to the first, and on top of them what is in its contents, in the same way. -/
def pushed (t : Tree) (x : NodeId) (depth : Nat) : List (NodeId × Nat) :=
  (t.children x).reverse.map (·, depth + 1) ++ (t.inside x).reverse.map (·, depth + 2)

/-- What the loop writes until its stack is empty. -/
inductive Empties (t : Tree) : (stack : List (NodeId × Nat)) → List Outline.Line → Prop
  | done : Empties t [] []
  | pop {stack : List (NodeId × Nat)} {x : NodeId} {depth : Nat} {lines : List Outline.Line}
      (hrest : Empties t (stack ++ t.pushed x depth) lines) :
      Empties t (stack ++ [(x, depth)]) (t.linesOf x depth ++ lines)

theorem reverse_pushed (t : Tree) (x : NodeId) (depth : Nat) :
    (t.pushed x depth).reverse = t.below x depth := by
  rw [pushed, below_eq, List.reverse_append, List.map_reverse, List.map_reverse,
    List.reverse_reverse, List.reverse_reverse]

/-- Whatever is on the stack, the recursion shows it from the top down. -/
theorem Empties.eq_shown (h : t.Empties stack lines) (hwf : WellFounded fun c p => t.Nested p c) :
    lines = stack.reverse.flatMap fun p => t.shown hwf p.1 p.2 := by
  induction h with
  | done => rfl
  | @pop stack x depth lines _ ih =>
    -- from the top down, what was pushed is what is directly below the node
    rw [List.reverse_append, reverse_pushed, List.flatMap_append] at ih
    rw [List.reverse_concat, List.flatMap_cons, shown_eq_below, ih, List.append_assoc]

/-- More than the turns in which the loop shows some nodes with everything below them. -/
def load (t : Tree) (rank : NodeId → Nat) (pending : List (NodeId × Nat)) : Nat :=
  (pending.map fun p => (2 * t.size + 1) ^ (rank p.1 + 1)).sum

theorem load_cons (rank : NodeId → Nat) (p : NodeId × Nat) (pending : List (NodeId × Nat)) :
    t.load rank (p :: pending) = (2 * t.size + 1) ^ (rank p.1 + 1) + t.load rank pending := by
  rw [load, load, List.map_cons, List.sum_cons]

theorem load_append (rank : NodeId → Nat) (pending pending' : List (NodeId × Nat)) :
    t.load rank (pending ++ pending') = t.load rank pending + t.load rank pending' := by
  rw [load, load, load, List.map_append, List.sum_append]

section Turns

variable {rank : NodeId → Nat} (hrank : ∀ p c, t.Nested p c → rank c < rank p)
include hrank

theorem load_le (hpending : ∀ p ∈ pending, t.Nested x p.1) :
    t.load rank pending ≤ pending.length * (2 * t.size + 1) ^ rank x := by
  have hle : ∀ n ∈ pending.map fun p => (2 * t.size + 1) ^ (rank p.1 + 1),
      n ≤ (2 * t.size + 1) ^ rank x := by
    intro n hn
    obtain ⟨p, hp, rfl⟩ := List.mem_map.1 hn
    -- the rank is smaller, so the exponent is not greater
    exact Nat.pow_le_pow_right (by omega) (hrank x p.1 (hpending p hp))
  simpa [load] using List.sum_le_card_nsmul _ _ hle

/-- Instead of a node there is less to show: what is directly below it. -/
theorem load_below_lt (h : Linked t) (x : NodeId) (depth : Nat) :
    t.load rank (t.below x depth) < (2 * t.size + 1) ^ (rank x + 1) := by
  have hnested : ∀ p ∈ t.below x depth, t.Nested x p.1 := by
    intro p hp
    rw [below_eq, List.mem_append, List.mem_map, List.mem_map] at hp
    rcases hp with ⟨c, hc, rfl⟩ | ⟨c, hc, rfl⟩
    · exact Or.inl hc
    · exact Or.inr hc
  have hlength : (t.below x depth).length ≤ 2 * t.size := by
    have hchildren (p : NodeId) : (t.children p).length ≤ t.size :=
      length_le_size (h.nodup p) fun c hc => h.child_lt hc
    have hinside : (t.inside x).length ≤ t.size := by
      rw [inside]
      split
      · exact hchildren _
      · exact Nat.zero_le _
    rw [below_eq, List.length_append, List.length_map, List.length_map]
    have := hchildren x
    omega
  calc t.load rank (t.below x depth)
      ≤ (t.below x depth).length * (2 * t.size + 1) ^ rank x := load_le hrank hnested
    _ ≤ 2 * t.size * (2 * t.size + 1) ^ rank x := Nat.mul_le_mul_right _ hlength
    _ < (2 * t.size + 1) * (2 * t.size + 1) ^ rank x :=
      Nat.mul_lt_mul_of_pos_right (by omega) (Nat.pow_pos (by omega))
    _ = (2 * t.size + 1) ^ (rank x + 1) := (Nat.pow_succ' ..).symm

/-- With time for everything that is pending, the loop empties its stack. -/
theorem empties_outlineLoop (h : Linked t) {fuel : Nat} (hfuel : t.load rank pending ≤ fuel) :
    t.Empties pending.reverse (t.outlineLoop fuel pending) := by
  induction fuel generalizing pending with
  | zero =>
    cases pending with
    | nil => exact .done
    | cons p pending =>
      have hlt := load_below_lt hrank h p.1 p.2
      rw [load_cons] at hfuel
      omega
  | succ fuel ih =>
    cases pending with
    | nil => exact .done
    | cons p pending =>
      -- a turn takes away more load than it adds, so the time that is left is enough for the others
      have hrest : t.Empties (t.below p.1 p.2 ++ pending).reverse
          (t.outlineLoop fuel (t.below p.1 p.2 ++ pending)) := by
        have hlt := load_below_lt hrank h p.1 p.2
        rw [load_cons] at hfuel
        apply ih
        rw [load_append]
        omega
      have hpushed : (t.below p.1 p.2).reverse = t.pushed p.1 p.2 := by
        rw [← reverse_pushed, List.reverse_reverse]
      rw [List.reverse_append, hpushed] at hrest
      rw [List.reverse_cons]
      exact .pop hrest

end Turns

/-! ## 4. Trees without cycles -/

theorem exists_of_nested (hc : t.Nested p c) :
    ∃ q, ReflTransGen t.Above p q ∧ c ∈ t.children q := by
  rcases hc with hc | hc
  · rw [inside] at hc
    split at hc
    · next f hf => exact ⟨f, .single (Or.inr hf), hc⟩
    · cases hc
  · exact ⟨p, .refl, hc⟩

/-- A node is ranked above everything that is shown below it. -/
theorem Linked.exists_rank (h : Linked t) (hacyclic : ∀ x, ¬ TransGen t.Above x x) :
    ∃ rank : NodeId → Nat, (∀ x, rank x ≤ t.size) ∧ ∀ p c, t.Nested p c → rank c < rank p := by
  have habove : ∀ p c, t.Nested p c → TransGen t.Above p c := by
    intro p c hc
    obtain ⟨q, hq, hc⟩ := exists_of_nested hc
    exact .tail' hq (Or.inl ((h.mem_children q c).1 hc))
  have hirrefl : ∀ x, ¬ TransGen t.Nested x x := fun x hx =>
    hacyclic x (TransGen.closed habove _ _ hx)
  have hlt : ∀ c p, TransGen t.Nested p c → c < t.size := by
    intro c p hpc
    obtain ⟨p', -, hc⟩ := TransGen.tail'_iff.1 hpc
    obtain ⟨q, -, hc⟩ := exists_of_nested hc
    exact h.child_lt hc
  obtain ⟨rank, hle, hrank⟩ := Hierarchy.exists_rank (R := fun c p => TransGen t.Nested p c) hirrefl
    (fun _ _ _ hba hcb => hcb.trans hba) hlt
  exact ⟨rank, hle, fun p c hc => hrank c p (.single hc)⟩

/-- If all ways lead down to greater numbers, none leads back. -/
theorem acyclic_of_lt (hlt : ∀ a b : Nat, t.Above a b → a < b) (x : NodeId) :
    ¬ TransGen t.Above x x := by
  intro hx
  have hxx : TransGen (· < ·) x x := TransGen.mono hlt _ _ hx
  rw [transGen_eq_self] at hxx
  exact Nat.lt_irrefl x hxx

/-- There is time for everything below the document. -/
theorem load_le_outlineLimit {rank : NodeId → Nat} (hrank : ∀ p c, t.Nested p c → rank c < rank p)
    (hle : rank root ≤ t.size) (h : Linked t) :
    t.load rank ((t.children root).map (·, 0)) ≤ t.outlineLimit := by
  have hlength : ((t.children root).map (·, 0)).length ≤ t.size := by
    rw [List.length_map]
    exact length_le_size (h.nodup root) fun c hc => h.child_lt hc
  have hnested : ∀ p ∈ (t.children root).map (·, 0), t.Nested root p.1 := by
    intro p hp
    obtain ⟨c, hc, rfl⟩ := List.mem_map.1 hp
    exact Or.inr hc
  have hpow : (2 * t.size + 1) ^ rank root ≤ (2 * t.size + 2) ^ t.size :=
    (Nat.pow_le_pow_left (by omega) _).trans (Nat.pow_le_pow_right (by omega) hle)
  calc t.load rank ((t.children root).map (·, 0))
      ≤ ((t.children root).map (·, 0)).length * (2 * t.size + 1) ^ rank root :=
      load_le hrank hnested
    _ ≤ (2 * t.size + 2) * (2 * t.size + 2) ^ t.size := Nat.mul_le_mul (by omega) hpow
    _ = t.outlineLimit := (Nat.pow_succ' ..).symm

/-- In a tree whose links agree, without a way down from a node to itself, through children and into
the contents of templates, the loop empties its stack. What it has written then is what the
recursion shows at the children of the document, and the outline consists of these lines. In
whatever order the attributes of the elements come, the outline is the same. -/
theorem outline_of_acyclic (h : Linked t) (hacyclic : ∀ x, ¬ TransGen t.Above x x) :
    ∃ hwf : WellFounded fun c p => t.Nested p c,
      (∀ lines, t.Empties ((t.children root).reverse.map (·, 0)) lines ↔
        lines = (t.children root).flatMap (t.shown hwf · 0)) ∧
      t.outline =
        String.join (((t.children root).flatMap (t.shown hwf · 0)).map Outline.Line.render) ∧
      ∀ t', t.Reordered t' → t'.outline = t.outline := by
  obtain ⟨rank, hle, hrank⟩ := h.exists_rank hacyclic
  have hwf : WellFounded fun c p => t.Nested p c := Subrelation.wf (hrank _ _) (measure rank).wf
  have hempties : t.Empties ((t.children root).reverse.map (·, 0)) t.outlineLines := by
    rw [List.map_reverse]
    exact empties_outlineLoop hrank h (load_le_outlineLimit hrank (hle root) h)
  have hshown {lines : List Outline.Line}
      (hlines : t.Empties ((t.children root).reverse.map (·, 0)) lines) :
      lines = (t.children root).flatMap (t.shown hwf · 0) := by
    rw [hlines.eq_shown hwf, List.map_reverse, List.reverse_reverse, List.flatMap_map]
  refine ⟨hwf, fun lines => ⟨hshown, ?_⟩, ?_, fun t' r => r.outline_eq⟩
  · rintro rfl
    exact hshown hempties ▸ hempties
  · rw [outline, hshown hempties]

/-- A template in the contents of a template, each with a child of its own, and a foreign element in
the contents of the inner one. -/
def templates : List Change :=
  [.alloc (.element { tagName := "template", contents := some 2 }), .alloc .fragment, .append 0 1,
    .alloc (.element { tagName := "template", contents := some 4 }), .alloc .fragment, .append 2 3,
    .alloc (.element
      { tagName := "a", ns := .svg, attributes := [("xlink-a", "1"), ("xlink:href", "#")] }),
    .append 4 5, .alloc (.text "inner"), .append 3 6, .alloc (.text "outer"), .append 1 7,
    .alloc (.comment "end"), .append 0 8]

theorem outline_templates : ∃ t t', Tree.empty.makeAll? templates = some t ∧
    t' = t.modifyElement 5 (fun e => { e with attributes := e.attributes.reverse }) ∧ t.Linked ∧
    (∀ x, ¬ TransGen t.Above x x) ∧ t.Reordered t' ∧ t'.outline = t.outline ∧
    ∃ lines, t.Empties [(8, 0), (1, 0)] lines ∧
    t.outline = String.join (lines.map Outline.Line.render) ∧
      lines = [⟨0, "<template>"⟩, ⟨1, "content"⟩, ⟨2, "<template>"⟩, ⟨3, "content"⟩, ⟨4, "<svg a>"⟩,
        ⟨5, "xlink href=\"#\""⟩, ⟨5, "xlink-a=\"1\""⟩, ⟨3, "\"inner\""⟩, ⟨1, "\"outer\""⟩,
        ⟨0, "<!-- end -->"⟩] := by
  have hr : InRange .empty templates := by decide
  obtain ⟨t, ht, hg⟩ := Grounded.empty.changes hr
  have hdata : (Tree.empty.makeAll? templates).map (fun t => (t.size, (List.range 9).map t.data?)) =
      some (9, [some (.document .noQuirks),
        some (.element { tagName := "template", contents := some 2 }), some .fragment,
        some (.element { tagName := "template", contents := some 4 }), some .fragment,
        some (.element
          { tagName := "a", ns := .svg, attributes := [("xlink-a", "1"), ("xlink:href", "#")] }),
        some (.text "inner"), some (.text "outer"), some (.comment "end")]) := by decide
  have hchildren : (Tree.empty.makeAll? templates).map (fun t => (List.range 9).map t.children) =
      some [[1, 8], [7], [3], [6], [5], [], [], [], []] := by decide
  rw [ht] at hdata hchildren
  simp only [List.range, List.range.loop, Option.map_some, List.map_cons, List.map_nil,
    Option.some.injEq, Prod.mk.injEq, List.cons.injEq, and_true] at hdata hchildren
  obtain ⟨hsize, hdata⟩ := hdata
  have hlt : ∀ a b : Nat, t.Above a b → a < b := by
    intro a b hab
    have ha : a < 9 := by
      rcases hab with hp | hc
      · exact hsize ▸ hg.linked.parent_lt hp
      · exact hsize ▸ lt_size_of_contents? hc
    have hab : b ∈ t.children a ∨ t.contents? a = some b :=
      hab.imp_left (hg.linked.mem_children a b).2
    interval_cases a <;> simp [hchildren, contents?, element?, hdata] at hab <;> grind
  -- before they are sorted, the attributes are in the other order
  have hshown : Outline.shownAttributes
      { tagName := "a", ns := .svg, attributes := [("xlink-a", "1"), ("xlink:href", "#")] } =
        [("xlink href", "#"), ("xlink-a", "1")] := by
    have hnames : Outline.attributeName .svg "xlink-a" = "xlink-a" ∧
        Outline.attributeName .svg "xlink:href" = "xlink href" := by decide
    have hsorted : [("xlink href", "#"), ("xlink-a", "1")].Pairwise (Attributes.pairLe · ·) := by
      decide
    rw [Outline.shownAttributes, List.map_cons, List.map_cons, List.map_nil, hnames.1, hnames.2,
      Attributes.mergeSort_congr (List.Perm.swap ..), List.mergeSort_of_pairwise hsorted]
  have hplain (e : Element) (he : e.attributes = []) : Outline.shownAttributes e = [] := by
    rw [Outline.shownAttributes, he, List.map_nil, List.mergeSort_nil]
  have hreordered := reordered_modifyElement t 5 fun as => as.reverse_perm.symm
  obtain ⟨hwf, hempties, houtline, hsame⟩ := outline_of_acyclic hg.linked (acyclic_of_lt hlt)
  refine ⟨t, _, ht, rfl, hg.linked, acyclic_of_lt hlt, hreordered, hsame _ hreordered, _, ?_,
    houtline, ?_⟩
  · simpa [root, hchildren] using (hempties _).2 rfl
  · simp [root, shown_eq 1, shown_eq 3, shown_eq 5, shown_eq 6, shown_eq 7, shown_eq 8, inside,
      contents?, element?, linesOf, hchildren, hdata, Outline.nodeLines, Outline.elementName,
      hshown, hplain]

end Tree

end Hypertext
