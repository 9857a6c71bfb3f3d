import Hypertext.Proofs.TreeBuilder.Reopening
import Hypertext.Proofs.TreeBuilder.Rightmost

/-!
# The adoption agency, node by node

The adoption agency keeps its place in the stack and in the list as numbers, and corrects them when
entries before it go. Here its round is written down with the nodes alone: which of them leave,
which are replaced, and next to which the new ones go. In every builder that a host can bring about,
both are the same.
-/

namespace Hypertext.TreeBuilder

open Hypertext.Tree

/-! ## 1. A round in terms of nodes -/

/-- The tag in the entry of a node. -/
def entryTag? (b : TreeBuilder) (id : NodeId) : Option Tag :=
  b.formatting.findSome? fun e => if e.id? = some id then e.tag? else none

/-- A node leaves the stack and the list. -/
def leave (b : TreeBuilder) (id : NodeId) : TreeBuilder :=
  { b with
    openElements := b.openElements.filter (· != id)
    formatting := b.formatting.filter (·.id? != some id) }

/-- A new element takes the place of a node in the stack and in the list. -/
def replaceNode (b : TreeBuilder) (node id : NodeId) (tag : Tag) : TreeBuilder :=
  { b with
    openElements := b.openElements.map fun x => if x = node then id else x
    formatting := b.formatting.map fun e => if e.id? = some node then .element id tag else e }

/-- The elements that are open around one, the innermost first. -/
def around (b : TreeBuilder) (id : NodeId) : List NodeId :=
  (b.openElements.dropWhile (· != id)).tail

/-- What has been done on the way up from a block. -/
structure Ascent where
  builder : TreeBuilder
  /-- The outermost of what has been moved. -/
  lastNode : NodeId
  /-- The copy that is nearest to the block. -/
  nearest : Option NodeId

namespace Ascent

/-- A node without an entry leaves, and so does every node after the first few; for any other there
is a copy, which takes in what was moved last. -/
def visit (a : Ascent) (count : Nat) (node : NodeId) : Ascent :=
  match a.builder.entryTag? node with
  | none => { a with builder := a.builder.leave node }
  | some tag =>
    if innerLimit < count then { a with builder := a.builder.leave node }
    else
      let (id, tree) := createElement a.builder.tree tag.name tag.attributes .html
      { builder := { a.builder.replaceNode node id tag with tree := tree.appendChild id a.lastNode }
        lastNode := id
        nearest := a.nearest.or (some id) }

def climb (a : Ascent) : (count : Nat) → List NodeId → Ascent
  | _, [] => a
  | count, node :: nodes => (a.visit count node).climb (count + 1) nodes

/-- The last node goes to the place for what goes into `ancestor`. -/
def putDown (a : Ascent) (ancestor : NodeId) : Ascent :=
  let place := a.builder.placeIn ancestor
  { a with builder := { a.builder with
      tree := a.builder.tree.insertAt place.parent place.before a.lastNode } }

/-- A copy of the formatting element takes the children of the block and becomes its child. It
is open in the block. Its entry comes after that of the nearest copy, or in the place of that of
the element. -/
def wrap (a : Ascent) (element block : NodeId) (tag : Tag) : TreeBuilder :=
  let (copy, tree) := createElement a.builder.tree tag.name tag.attributes .html
  { a.builder with
    tree := (tree.moveChildren block copy).appendChild block copy
    openElements := (a.builder.openElements.filter (· != element)).flatMap fun x =>
      if x = block then [copy, x] else [x]
    formatting := match a.nearest with
      | some nearest => (a.builder.formatting.filter (·.id? != some element)).flatMap fun e =>
          if e.id? = some nearest then [e, .element copy tag] else [e]
      | none => a.builder.formatting.map fun e =>
          if e.id? = some element then .element copy tag else e }

end Ascent

/-- The round for a formatting element and the block that is taken out of it. -/
def hoist (b : TreeBuilder) (element block : NodeId) : TreeBuilder :=
  let nodes := (b.around block).takeWhile (· != element)
  let ancestor := (b.around element).head?.getD Tree.root
  let a := (Ascent.climb ⟨b, block, none⟩ 1 nodes).putDown ancestor
  match a.builder.entryTag? element with
  | none => a.builder
  | some tag => a.wrap element block tag

/-! ## 2. One of a kind in a list -/

section Cut

variable {α κ : Type} {f : α → κ} {k : κ} {l l' : List α} {a : α}
  (hl : ∀ x ∈ l, f x ≠ k) (hl' : ∀ x ∈ l', f x ≠ k) (ha : f a = k)
include hl hl' ha

theorem filter_cut [BEq κ] [LawfulBEq κ] : (l ++ a :: l').filter (f · != k) = l ++ l' := by
  rw [List.filter_append, List.filter_cons_of_neg (by simp [ha]),
    List.filter_eq_self.2 fun x hx => bne_iff_ne.2 (hl x hx),
    List.filter_eq_self.2 fun x hx => bne_iff_ne.2 (hl' x hx)]

theorem flatMap_cut [DecidableEq κ] (g : α → List α) :
    (l ++ a :: l').flatMap (fun x => if f x = k then g x else [x]) = l ++ g a ++ l' := by
  have hsame : ∀ m : List α, (∀ x ∈ m, f x ≠ k) →
      m.flatMap (fun x => if f x = k then g x else [x]) = m := by
    intro m hm
    rw [List.flatMap_congr (g := fun x => [x]) fun x hx => if_neg (hm x hx)]
    simp
  rw [List.flatMap_append, List.flatMap_cons, hsame l hl, hsame l' hl', if_pos ha,
    List.append_assoc]

theorem map_cut [DecidableEq κ] (c : α) :
    (l ++ a :: l').map (fun x => if f x = k then c else x) = l ++ c :: l' := by
  have hsame : ∀ m : List α, (∀ x ∈ m, f x ≠ k) →
      m.map (fun x => if f x = k then c else x) = m := by
    intro m hm
    rw [List.map_congr_left (g := fun x => x) fun x hx => if_neg (hm x hx), List.map_id']
  rw [List.map_append, List.map_cons, hsame l hl, hsame l' hl', if_pos ha]

end Cut

section Nodup

variable {b : TreeBuilder} {l l' : List FormattingEntry} {A B : List NodeId} {x : NodeId}
  {tag : Tag}

/-- No other entry is for the same element. -/
theorem ne_of_nodup (hn : (entryIds (l ++ .element x tag :: l')).Nodup) :
    (∀ e ∈ l, e.id? ≠ some x) ∧ ∀ e ∈ l', e.id? ≠ some x := by
  rw [nodup_entryIds_element, entryIds_append, List.mem_append, not_or] at hn
  exact ⟨fun e he hx => hn.1.1 (List.mem_filterMap.2 ⟨e, he, hx⟩),
    fun e he hx => hn.1.2 (List.mem_filterMap.2 ⟨e, he, hx⟩)⟩

theorem ne_of_nodup_stack (hn : (A ++ x :: B).Nodup) : (∀ y ∈ A, y ≠ x) ∧ ∀ y ∈ B, y ≠ x := by
  rw [List.nodup_middle, List.nodup_cons, List.mem_append, not_or] at hn
  exact ⟨fun y hy he => hn.1.1 (he ▸ hy), fun y hy he => hn.1.2 (he ▸ hy)⟩

theorem entryTag?_eq_none (h : b.formattingIndex? x = none) : b.entryTag? x = none := by
  rw [entryTag?, List.findSome?_eq_none_iff]
  intro e he
  rw [if_neg fun hx => not_mem_entryIds_of_formattingIndex? h (List.mem_filterMap.2 ⟨e, he, hx⟩)]

theorem entryTag?_eq_some (hf : b.formatting = l ++ .element x tag :: l')
    (hn : (entryIds b.formatting).Nodup) : b.entryTag? x = some tag := by
  rw [hf] at hn
  have hl : l.findSome? (fun e => if e.id? = some x then e.tag? else none) = none := by
    rw [List.findSome?_eq_none_iff]
    exact fun e he => if_neg ((ne_of_nodup hn).1 e he)
  rw [entryTag?, hf, List.findSome?_append, hl, Option.none_or, List.findSome?_cons]
  simp [FormattingEntry.id?, FormattingEntry.tag?]

/-- An open element that has one entry leaves the stack and the list. -/
theorem leave_eq (hf : b.formatting = l ++ .element x tag :: l')
    (hopen : b.openElements = A ++ x :: B)
    (hn : (entryIds b.formatting).Nodup) (hs : b.openElements.Nodup) :
    b.leave x = { b with openElements := A ++ B, formatting := l ++ l' } := by
  rw [hf] at hn
  rw [hopen] at hs
  obtain ⟨hl, hl'⟩ := ne_of_nodup hn
  obtain ⟨hA, hB⟩ := ne_of_nodup_stack hs
  have hstack : (A ++ x :: B).filter (· != x) = A ++ B := filter_cut (f := id) hA hB rfl
  rw [leave, hf, hopen, filter_cut hl hl' rfl, hstack]

theorem leave_eq_of_not_mem (hi : b.formattingIndex? x = none)
    (hopen : b.openElements = A ++ x :: B)
    (hs : b.openElements.Nodup) : b.leave x = { b with openElements := A ++ B } := by
  rw [hopen] at hs
  obtain ⟨hA, hB⟩ := ne_of_nodup_stack hs
  have hstack : (A ++ x :: B).filter (· != x) = A ++ B := filter_cut (f := id) hA hB rfl
  have hentries : b.formatting.filter (·.id? != some x) = b.formatting := by
    refine List.filter_eq_self.2 fun e he => bne_iff_ne.2 fun hx => ?_
    exact not_mem_entryIds_of_formattingIndex? hi (List.mem_filterMap.2 ⟨e, he, hx⟩)
  rw [leave, hopen, hentries, hstack]

theorem replaceNode_eq (hf : b.formatting = l ++ .element x tag :: l')
    (hopen : b.openElements = A ++ x :: B)
    (hn : (entryIds b.formatting).Nodup) (hs : b.openElements.Nodup) (id : NodeId) (tag' : Tag) :
    b.replaceNode x id tag' =
      { b with openElements := A ++ id :: B, formatting := l ++ .element id tag' :: l' } := by
  rw [hf] at hn
  rw [hopen] at hs
  obtain ⟨hl, hl'⟩ := ne_of_nodup hn
  obtain ⟨hA, hB⟩ := ne_of_nodup_stack hs
  have hstack : (A ++ x :: B).map (fun y => if y = x then id else y) = A ++ id :: B :=
    map_cut (f := fun y => y) hA hB rfl id
  rw [replaceNode, hf, hopen, map_cut hl hl' rfl, hstack]

theorem around_eq (hopen : b.openElements = A ++ x :: B) (hs : b.openElements.Nodup) :
    b.around x = B := by
  rw [hopen] at hs
  obtain ⟨hA, -⟩ := ne_of_nodup_stack hs
  rw [around, hopen, List.dropWhile_append_of_pos fun y hy => bne_iff_ne.2 (hA y hy),
    List.dropWhile_cons_of_neg (by simp), List.tail_cons]

end Nodup

/-! ## 3. The walk, visit by visit -/

section Climbs

variable {b : TreeBuilder} {deeper between copies rest outer : List NodeId}
  {block element node : NodeId} {w w₀ : Walk} {a : Ascent} {pre tail : List FormattingEntry}

/-- The walk and the ascent have come to the same. -/
structure Walk.Meets (w : Walk) (copies : List NodeId) (a : Ascent) : Prop where
  builder : a.builder = w.builder
  lastNode : a.lastNode = w.lastNode
  nearest : a.nearest = copies.head?

/-- A node that leaves. -/
theorem Walk.Meets.leave (m : w.Meets copies a) {builder : TreeBuilder} {bookmark : Nat}
    (h : a.builder.leave node = builder) :
    Walk.Meets ⟨builder, bookmark, w.lastNode⟩ copies { a with builder := a.builder.leave node } :=
  ⟨h, m.lastNode, m.nearest⟩

/-- The walk visits the nodes as the ascent does. -/
theorem Climbs.exists_meets (c : Climbs deeper block (element :: outer) w₀ between copies rest w)
    (h : Walk.Sound b deeper block [] between (element :: outer) w₀)
    (h₀ : Walk.Listed pre tail block element [] w₀) (hne : element ∉ rest) (count : Nat)
    (m : w.Meets copies a) : ∃ w' copies',
      Walk.climb? block element (rest ++ element :: outer).length count w = some w' ∧
      Climbs deeper block (element :: outer) w₀ between copies' [] w' ∧
      w'.Meets copies' (a.climb count rest) := by
  induction rest generalizing copies count w a with
  | nil =>
    have hnode := openAt?_eq (c.sound h).stack
    refine ⟨w, copies, ?_, c, m⟩
    rw [List.nil_append, List.length_cons, Walk.climb?, hnode]
    simp
  | cons node rest ih =>
    obtain ⟨hnode, hrest⟩ := not_or.1 (mt List.mem_cons.2 hne)
    have hs := c.sound h
    have hl := c.listed h h₀
    have hstack : w.builder.openElements =
        (deeper ++ block :: copies) ++ node :: (rest ++ element :: outer) := hs.stack
    rw [List.cons_append, List.length_cons, Walk.climb?, Ascent.climb]
    simp only [openAt?_eq hstack, Option.bind_eq_bind, Option.bind_some, if_neg (Ne.symm hnode)]
    have hbuilder := m.builder
    cases hi : w.builder.formattingIndex? node with
    | none =>
      -- the node is only open
      have hvisit : a.visit count node = { a with builder := a.builder.leave node } := by
        rw [Ascent.visit, hbuilder, entryTag?_eq_none hi]
      have hleave := leave_eq_of_not_mem hi hstack hl.unique
      have hforget : (if innerLimit < count then w.forget? node else some w) = some w := by
        rw [Walk.forget?, hi]
        exact ite_self _
      simp only [hforget, Option.bind_some, hi, eraseOpen_eq hstack, hvisit]
      exact ih (c.close hi) hrest (count + 1) (m.leave (hbuilder ▸ hleave))
    | some i =>
      obtain ⟨f₁, f₂, tag, hf, rfl⟩ := exists_entry_cut hi
      have htag := entryTag?_eq_some hf hl.nodup
      by_cases hcount : innerLimit < count
      · -- it loses its entry before
        have hvisit : a.visit count node = { a with builder := a.builder.leave node } := by
          simp only [Ascent.visit, hbuilder, htag, if_pos hcount]
        have hleave := leave_eq hf hstack hl.nodup hl.unique
        have herase : w.builder.formatting.eraseIdx f₁.length = f₁ ++ f₂ := by
          rw [hf, eraseIdx_length]
        have c' := c.forget hi
        have hnone : { w.builder with formatting := f₁ ++ f₂ }.formattingIndex? node = none := by
          have hn := hl.nodup
          rw [hf] at hn
          obtain ⟨h₁, h₂⟩ := ne_of_nodup hn
          refine List.findIdx?_eq_none_iff.2 fun e he => beq_eq_false_iff_ne.2 ?_
          exact (List.mem_append.1 he).elim (h₁ e) (h₂ e)
        rw [herase] at c'
        have hopen : { w.builder with formatting := f₁ ++ f₂ }.openElements =
          (deeper ++ block :: copies) ++ node :: (rest ++ element :: outer) := hstack
        simp only [if_pos hcount, Walk.forget?, hi,
          Walk.Sound.forgetAt?_eq (formattingIndex?_lt hi), herase,
          Option.bind_some, hnone, eraseOpen_eq hopen, hvisit]
        exact ih (c'.close hnone) hrest (count + 1) (m.leave (hbuilder ▸ hleave))
      · -- a copy takes its place
        have hentry : w.builder.formatting[f₁.length]? = some (.element node tag) := by simp [hf]
        generalize hnew : createElement w.builder.tree tag.name tag.attributes .html = created
        obtain ⟨id, tree⟩ := created
        have hvisit : a.visit count node =
            { builder := { a.builder.replaceNode node id tag with
                tree := tree.appendChild id a.lastNode }
              lastNode := id
              nearest := a.nearest.or (some id) } := by
          simp only [Ascent.visit, hbuilder, htag, if_neg hcount, hnew]
        have hreplace := replaceNode_eq hf hstack hl.nodup hl.unique id tag
        have hset : w.builder.formatting.set f₁.length (.element id tag) =
            f₁ ++ .element id tag :: f₂ := by
          rw [hf, set_length]
        simp only [if_neg hcount, Option.bind_some, hi, hentry, Climbs.copy?_eq hs hi hnew, hvisit]
        refine ih (c.copy hi hentry hnew) hrest (count + 1) ⟨?_, rfl, ?_⟩
        · rw [hbuilder, hreplace, hset, m.lastNode]
          simp
        · rw [m.nearest, List.head?_append]
          rfl

end Climbs

/-! ## 4. The whole round -/

section Round

variable {b b' : TreeBuilder} {deeper between copies outer : List NodeId}
  {block element id : NodeId} {l l' : List FormattingEntry} {tag : Tag} {a : Ascent}

theorem Ascent.wrap_eq {copy : NodeId} {tree : Tree}
    (h : createElement a.builder.tree tag.name tag.attributes .html = (copy, tree)) :
    a.wrap element block tag = { a.builder with
      tree := (tree.moveChildren block copy).appendChild block copy
      openElements := (a.wrap element block tag).openElements
      formatting := (a.wrap element block tag).formatting } := by
  rw [wrap, h]

/-- What becomes of the stack when the ascent is over. -/
theorem Ascent.openElements_wrap
    (hopen : a.builder.openElements = deeper ++ block :: (copies ++ element :: outer))
    (hs : a.builder.openElements.Nodup) :
    (a.wrap element block tag).openElements =
      deeper ++ (createElement a.builder.tree tag.name tag.attributes .html).1 ::
        block :: (copies ++ outer) := by
  have hcut : a.builder.openElements = (deeper ++ block :: copies) ++ element :: outer := by
    simp [hopen]
  rw [hcut] at hs
  obtain ⟨hinner, houter⟩ := ne_of_nodup_stack hs
  have hleft : a.builder.openElements.filter (· != element) =
      deeper ++ block :: (copies ++ outer) := by
    rw [hcut]
    exact (filter_cut (f := fun x => x) hinner houter rfl).trans (by simp)
  have hn : (deeper ++ block :: (copies ++ outer)).Nodup :=
    hleft ▸ (hcut ▸ hs : a.builder.openElements.Nodup).filter _
  obtain ⟨hdeeper, hrest⟩ := ne_of_nodup_stack hn
  have hput := flatMap_cut (f := fun x => x) hdeeper hrest rfl
    fun x => [(createElement a.builder.tree tag.name tag.attributes .html).1, x]
  simp only [Ascent.wrap, hleft, hput]
  simp

/-- What becomes of the list if nothing has been copied. -/
theorem Ascent.formatting_wrap_none {t : Tag}
    (hf : a.builder.formatting = l ++ .element element t :: l')
    (hn : (entryIds a.builder.formatting).Nodup) (hnearest : a.nearest = none) :
    (a.wrap element block tag).formatting = l ++
      .element (createElement a.builder.tree tag.name tag.attributes .html).1 tag :: l' := by
  rw [hf] at hn
  obtain ⟨hl, hl'⟩ := ne_of_nodup hn
  simp only [Ascent.wrap, hnearest, hf]
  exact map_cut hl hl' rfl _

/-- What becomes of the list if `id` is the first copy. -/
theorem Ascent.formatting_wrap_some {t t' : Tag} {m : List FormattingEntry}
    (hf : a.builder.formatting = l ++ .element element t :: (m ++ .element id t' :: l'))
    (hn : (entryIds a.builder.formatting).Nodup) (hnearest : a.nearest = some id) :
    (a.wrap element block tag).formatting = l ++ m ++ .element id t' ::
      .element (createElement a.builder.tree tag.name tag.attributes .html).1 tag :: l' := by
  rw [hf] at hn
  obtain ⟨hl, hl'⟩ := ne_of_nodup hn
  have hleft : a.builder.formatting.filter (·.id? != some element) =
      (l ++ m) ++ .element id t' :: l' := by
    rw [hf, filter_cut hl hl' rfl, List.append_assoc]
  have hn' : (entryIds ((l ++ m) ++ .element id t' :: l')).Nodup :=
    hn.sublist (List.Sublist.filterMap _ (by
      rw [List.append_assoc]
      exact (List.Sublist.refl _).append (List.sublist_cons_self _ _)))
  obtain ⟨hm, hrest⟩ := ne_of_nodup hn'
  have hput := flatMap_cut (a := .element id t') hm hrest rfl fun e =>
    [e, .element (createElement a.builder.tree tag.name tag.attributes .html).1 tag]
  simp only [Ascent.wrap, hnearest, hleft, hput]
  simp

/-- The round comes to the same when it is made node by node. -/
theorem exists_hoists_hoist (h : Carriable b deeper block between element outer) (hb : Listed b)
    (hentry : .element element tag ∈ b.formatting) :
    ∃ w copies i tag copy grown,
      Hoists b (b.hoist element block)
        ⟨deeper, block, between, element, outer, copies, w, i, tag, copy, grown⟩ ∧
      b.carryOut? element block outer.length = some (w.putDown outer) ∧
      (w.putDown outer).builder.formattingIndex? element = some i ∧
      (w.putDown outer).builder.formatting[i]? = some (.element element tag) ∧
      wrap? (w.putDown outer) element block i tag = some (b.hoist element block) := by
  have hmem : element ∈ entryIds b.formatting := mem_entryIds.2 ⟨tag, hentry⟩
  have h₀ := h.listed hb (List.nil_append _).symm hmem
  obtain ⟨w, copies, hclimb, c, m⟩ :=
    Climbs.exists_meets .start (h.start _) h₀ h.element_not_mem.1 1
    (a := ⟨b, block, none⟩) ⟨rfl, rfl, rfl⟩
  obtain ⟨b', i, tag, copy, grown, r, hi, htag, hwrap⟩ := exists_hoists_of_climbs h c hentry
  have hs := h.sound c
  have hl := c.listed (h.start _) h₀
  have hn := h.planted.nodup
  -- the nodes and the ancestor are those of the walk
  have hnodes : (b.around block).takeWhile (· != element) = between := by
    have helement : ∀ x ∈ between, (x != element) = true := fun x hx =>
      bne_iff_ne.2 fun he => h.element_not_mem.1 (he ▸ hx)
    rw [around_eq h.stack hn, List.takeWhile_append_of_pos helement,
      List.takeWhile_cons_of_neg (by simp), List.append_nil]
  have hancestor : b.around element = outer := by
    have hcut : b.openElements = (deeper ++ block :: between) ++ element :: outer := by
      simp [h.stack]
    exact around_eq hcut hn
  generalize ha : (Ascent.climb ⟨b, block, none⟩ 1 between).putDown (outer.head?.getD Tree.root) = a
  have hbuilder : a.builder = (w.putDown outer).builder := by
    rw [← ha, Ascent.putDown, Walk.putDown, Walk.target, m.builder, m.lastNode]
  have hnearest : a.nearest = copies.head? := by
    rw [← ha]
    exact m.nearest
  have hopen : a.builder.openElements = deeper ++ block :: (copies ++ element :: outer) := by
    rw [hbuilder]
    simp [Walk.putDown, hs.stack]
  have hunique : a.builder.openElements.Nodup := by
    rw [hbuilder]
    exact hl.unique
  have hnodup : (entryIds a.builder.formatting).Nodup := by
    rw [hbuilder]
    exact hl.nodup
  have hcreated : createElement a.builder.tree tag.name tag.attributes .html = (copy, grown) := by
    rw [hbuilder]
    exact r.created
  obtain ⟨f₁, m₂, l₂, hcut, hformatting, -, -, hcopy⟩ := r.entries hb hmem
  dsimp only at hcut hformatting hcopy
  have hcut' : a.builder.formatting = f₁ ++ .element element tag :: (m₂ ++ l₂) := by
    rw [hbuilder]
    exact hcut
  have hstack : (a.wrap element block tag).openElements = _ :=
    Ascent.openElements_wrap hopen hunique
  have hentries : (a.wrap element block tag).formatting = b'.formatting := by
    rw [hformatting]
    obtain ⟨rfl, rfl⟩ | ⟨m, id, t, hhead, rfl⟩ := hcopy
    · rw [Ascent.formatting_wrap_none hcut' hnodup hnearest, hcreated]
      simp
    · rw [Ascent.formatting_wrap_some (by simpa using hcut') hnodup (hnearest.trans hhead),
        hcreated]
      simp
  have heq : b.hoist element block = b' := by
    rw [hoist, hnodes, hancestor, ha]
    simp only [entryTag?_eq_some hcut' hnodup]
    rw [Ascent.wrap_eq hcreated, hstack, hentries, hcreated, hbuilder, r.result]
    rfl
  rw [heq]
  exact ⟨w, copies, i, tag, copy, grown, r, carryOut?_eq h c hclimb, hi, htag, hwrap⟩

end Round

/-! ## 5. What is open in a formatting element -/

section Shielded

variable {t t' : Tree} {stack inner outer : List NodeId} {x element : NodeId} {headSeen : Bool}
  {modes : List InsertionMode}

/-- In an element that is no part and is in scope no part is open but select elements, and around it
are others; `inner` is what is open in it. -/
def Clean (t : Tree) (inner outer : List NodeId) (headSeen : Bool) : Prop :=
  (∀ x ∈ inner, ∀ p ∈ Scope.bounds .general, t.part? x ≠ some p) →
    outer ≠ [] ∧ headSeen = true ∧ ∀ x ∈ inner, t.part? x ∈ [none, some .select]

/-- This is so for every element in the stack. -/
def Shielded (t : Tree) (stack : List NodeId) (headSeen : Bool) : Prop :=
  ∀ inner element outer, stack = inner ++ element :: outer → t.part? element = none →
    Clean t inner outer headSeen

/-- This is so for every element in the stack but the innermost. -/
def Sheltered (t : Tree) (stack : List NodeId) (headSeen : Bool) : Prop :=
  ∀ y inner element outer, stack = y :: inner ++ element :: outer → t.part? element = none →
    Clean t (y :: inner) outer headSeen

theorem Shielded.sheltered (h : Shielded t stack headSeen) : Sheltered t stack headSeen :=
  fun _ _ _ _ heq => h _ _ _ heq

theorem Shielded.cons (h : Shielded t stack headSeen) (hx : t.part? x = none) :
    Sheltered t (x :: stack) headSeen := by
  intro y inner element outer heq helement hbounds
  obtain ⟨rfl, rfl⟩ := List.cons.inj heq
  obtain ⟨hbounds, hrest⟩ := List.forall_mem_cons.1 hbounds
  obtain ⟨houter, hseen, hclean⟩ := h inner element outer rfl helement hrest
  exact ⟨houter, hseen, List.forall_mem_cons.2 ⟨hx ▸ List.mem_cons_self, hclean⟩⟩

theorem clean_of_seated (hseat : Seated t (inner ++ element :: outer))
    (helement : t.part? element = none)
    (hbounds : ∀ x ∈ inner, ∀ p ∈ Scope.bounds .general, t.part? x ≠ some p) :
    ∀ x ∈ inner, t.part? x ∈ [none, some .select] := by
  induction inner with
  | nil => exact fun _ hx => absurd hx List.not_mem_nil
  | cons x inner ih =>
    obtain ⟨hx, hseat⟩ := seated_cons.1 hseat
    obtain ⟨hbounds, hrest⟩ := List.forall_mem_cons.1 hbounds
    have hclean := ih hseat hrest
    refine List.forall_mem_cons.2 ⟨?_, hclean⟩
    -- what does not bound the scope cannot stand on such an element
    obtain ⟨y, hy, hsits, hbelow⟩ : ∃ y, (inner ++ element :: outer).head? = some y ∧
        Sits (t.part? x) (t.part? y) ∧ t.part? y ∈ [none, some Part.select] := by
      cases inner with
      | nil => exact ⟨element, rfl, hx element rfl, helement ▸ List.mem_cons_self⟩
      | cons y inner => exact ⟨y, rfl, hx y rfl, hclean y (List.mem_cons_self ..)⟩
    cases hp : t.part? x with
    | none => exact List.mem_cons_self
    | some p =>
      have hbound : p ∉ Scope.bounds .general := fun hmem => hbounds p hmem hp
      rw [hp] at hsits
      generalize t.part? y = q at hsits hbelow
      simp only [List.mem_cons, List.not_mem_nil, or_false] at hbelow
      cases p <;> obtain rfl | rfl := hbelow <;> simp [Scope.bounds, Sits] at hbound hsits ⊢

theorem Framed.shielded (h : Framed t stack modes headSeen) : Shielded t stack headSeen := by
  rintro inner element outer rfl helement hbounds
  refine ⟨?_, h.furnished.head fun hbones => ?_, clean_of_seated h.seated helement hbounds⟩
  · -- the outermost element is the document element
    rintro rfl
    obtain ⟨above, html, hbottom, hl⟩ := h.exists_bottom
    have hlast := congrArg List.getLast? hbottom
    rw [List.getLast?_concat, List.getLast?_concat] at hlast
    rw [Option.some.inj hlast, part?_of_label hl] at helement
    revert helement
    decide
  · -- nothing but the head and the body stands on the document element
    obtain ⟨above, html, rest, hcut, hclear, hhtml, -⟩ := exists_cut hbones
    obtain rfl | ⟨above, y, rfl⟩ := List.eq_nil_or_concat' above
    · cases inner with
      | nil =>
        obtain ⟨rfl, -⟩ := List.cons.inj hcut
        rw [helement] at hhtml
        cases hhtml
      | cons x inner =>
        obtain ⟨rfl, -⟩ := List.cons.inj hcut
        exact hbounds _ (List.mem_cons_self ..) .html (by decide) hhtml
    · have hseat := h.seated
      rw [hcut, List.append_assoc] at hseat
      have hsits := (seated_cons.1 hseat.suffix).1 html rfl
      rw [hclear y (by simp), hhtml] at hsits
      simp [Sits] at hsits

/-- If no part but the document element is open, none is open in an element in scope. -/
theorem shielded_of_bones (h : t.bones stack = [.html]) : Shielded t stack true := by
  rintro inner element outer rfl helement hbounds
  have hpart : ∀ x ∈ inner ++ element :: outer, ∀ p, t.part? x = some p → p = .html := by
    intro x hx p hp
    have hmem : p ∈ t.bones (inner ++ element :: outer) := List.mem_filterMap.2 ⟨x, hx, hp⟩
    rwa [h, List.mem_singleton] at hmem
  have hclear : Clear t (inner ++ [element]) := by
    refine Clear.append (fun x hx => ?_) (by simpa using helement)
    cases hp : t.part? x with
    | none => rfl
    | some p =>
      obtain rfl := hpart x (List.mem_append_left _ hx) p hp
      exact absurd hp (hbounds x hx .html (by decide))
  refine ⟨?_, rfl, fun x hx => (hclear.left x hx) ▸ List.mem_cons_self⟩
  rintro rfl
  rw [Tree.bones, List.filterMap_eq_nil_iff.2 hclear] at h
  cases h

theorem Fits.shielded {mode : InsertionMode} (h : Fits t stack modes headSeen mode) :
    Shielded t stack headSeen := by
  have hsteady : Steady t stack modes headSeen mode → Shielded t stack headSeen := fun h =>
    h.1.shielded
  cases mode with
  | initial | beforeHtml =>
    rintro inner element outer rfl
    exact absurd h.1 (by simp)
  | inHeadNoscript =>
    obtain ⟨x, outer, rfl, ⟨name, hl, hname⟩, hs⟩ := h
    obtain ⟨rest, hbones⟩ := hs.bones_eq (p := .head) rfl
    intro inner element rest' heq helement hbounds
    cases inner with
    | nil =>
      obtain ⟨rfl, rfl⟩ := List.cons.inj heq
      refine ⟨?_, hs.1.furnished.head (by simp [hbones]), fun _ hx => absurd hx List.not_mem_nil⟩
      rintro rfl
      cases hbones
    | cons y inner =>
      have hx : t.part? x = none := (part?_of_label hl).trans hname
      exact hs.1.shielded.cons hx y inner element rest' heq helement hbounds
  | afterBody | afterAfterBody => exact h.1.shielded
  | afterFrameset | afterAfterFrameset =>
    rw [h.2.2.1]
    exact shielded_of_bones h.1
  | text | inTableText => exact h.elim
  | _ => exact hsteady h

theorem Standing.sheltered {resume : Option InsertionMode} {mode : InsertionMode}
    (h : Standing t stack modes headSeen resume mode) : Sheltered t stack headSeen := by
  have hfits : Fits t stack modes headSeen mode → Sheltered t stack headSeen := fun h =>
    h.shielded.sheltered
  cases mode with
  | text =>
    obtain ⟨mode, x, outer, -, rfl, ⟨name, hl, hname⟩, hf⟩ := h
    exact hf.shielded.cons ((part?_of_label hl).trans hname)
  | inTableText =>
    obtain ⟨mode, -, -, hs⟩ := h
    exact hs.1.shielded.sheltered
  | _ => exact hfits h

end Shielded

/-! ## 6. Rounds one after the other -/

section Poised

variable {b b' b₁ b₂ : TreeBuilder} {subject : String} {element block : NodeId} {r : AgencyRound}

/-- What every round relies on. -/
structure Poised (b : TreeBuilder) : Prop where
  planted : Planted b.tree b.openElements b.headElement
  named : Named b.tree b.formatting
  listed : Listed b
  sheltered : Sheltered b.tree b.openElements b.headElement.isSome

/-- A round of the agency finds the formatting element and a block to take out of it. -/
structure Finds (b : TreeBuilder) (subject : String) (element block : NodeId) : Prop where
  active : b.activeFormatting? subject = some element
  inScope : b.nodeInScope element = true
  furthest : (b.openDepth? element).bind b.furthestBlock? = some (some block)

/-- No part that bounds the scope is open in an element in scope. -/
theorem not_bounds_of_nodeInScope {inner outer : List NodeId}
    (hopen : b.openElements = inner ++ element :: outer) (hn : b.openElements.Nodup)
    (h : b.nodeInScope element = true) :
    ∀ x ∈ inner, ∀ p ∈ Scope.bounds .general, b.tree.part? x ≠ some p := by
  intro x hx p hp hpart
  obtain ⟨l₁, l₂, rfl⟩ := List.append_of_mem hx
  rw [hopen] at hn
  obtain ⟨hne, -⟩ := ne_of_nodup_stack hn
  have htarget : ∀ y ∈ l₁ ++ x :: l₂, ∀ e, b.tree.element? y = some e → (y == element) = false :=
    fun y hy _ _ => beq_eq_false_iff_ne.2 (hne y hy)
  rw [nodeInScope, hopen, List.append_assoc] at h
  have h := searchScope_append (fun y hy => htarget y (by simp [hy])) h
  rw [List.cons_append, searchScope_boundary hpart (htarget x (by simp)) hp] at h
  cases h

/-- What is found can be taken out. -/
theorem Poised.exists_carriable (h : Poised b) (hf : Finds b subject element block) :
    ∃ deeper between outer tag, Carriable b deeper block between element outer ∧
      .element element tag ∈ b.formatting ∧ b.openDepth? element = some outer.length ∧
      b.furthestBlock? outer.length = some (some block) := by
  obtain ⟨depth, hdepth, hfurthest⟩ := Option.bind_eq_some_iff.1 hf.furthest
  obtain ⟨inner, outer, hopen, rfl, -⟩ := exists_of_openDepth? hdepth
  have hfound := furthestBlock?_eq hopen
  rw [hfurthest] at hfound
  obtain ⟨deeper, between, rfl, hspecial, hbetween⟩ :=
    exists_outermost (Option.some.inj hfound).symm
  obtain ⟨tag, hentry⟩ := mem_of_activeFormatting? hf.active
  obtain ⟨hname, hl⟩ := h.named element tag hentry
  have hbounds := not_bounds_of_nodeInScope hopen h.planted.nodup hf.inScope
  have helement : b.tree.part? element = none :=
    (part?_of_label hl).trans (ofName?_formatting _ hname)
  have hclean : Clean b.tree (deeper ++ block :: between) outer b.headElement.isSome := by
    cases hinner : deeper ++ block :: between with
    | nil => simp at hinner
    | cons y inner => exact h.sheltered y inner element outer (by rw [hopen, hinner]) helement
  obtain ⟨houter, hseen, hloose⟩ := hclean hbounds
  rw [List.append_assoc, List.cons_append] at hopen
  exact ⟨deeper, between, outer, tag,
    ⟨h.planted, h.named, hopen, hloose, hspecial, hbetween, houter, hseen⟩, hentry,
    hdepth, hfurthest⟩

theorem Poised.errors (h : Poised b) (errors : ErrorLog) : Poised { b with errors } :=
  ⟨h.planted, h.named, ⟨h.listed.nodup, h.listed.order, h.listed.made⟩, h.sheltered⟩

theorem not_bounds_of_loose : ∀ p ∈ Scope.bounds .general, some p ∉ [none, some Part.select] := by
  decide

/-- A round leaves everything as the next one relies on it. -/
theorem Poised.hoists (h : Poised b) (ha : Hoists b b' r)
    (hmem : r.element ∈ entryIds b.formatting) : Poised b' := by
  have hhead : b'.headElement = b.headElement := by rw [ha.rebuilt.same]
  have hopen := ha.carriable.stack
  have hclear := ha.formatted.clear
  have hpart : ∀ x ∈ b.openElements, b'.tree.part? x = b.tree.part? x := fun x hx => by
    obtain ⟨l, hl⟩ := Option.isSome_iff_exists.1 (h.planted.element x hx)
    exact ha.rebuilt.keeps.part hl
  -- what is open in the block, and the block itself, has been open in the element
  have hinner : ∀ x ∈ r.deeper ++ r.copy :: r.block :: r.copies,
      b'.tree.part? x ∈ [none, some .select] := by
    intro x hx
    by_cases hnew : x ∈ r.copy :: r.copies
    · rw [hclear x hnew]
      exact List.mem_cons_self
    · have hold : x ∈ r.deeper ++ r.block :: r.between := by
        simp only [List.mem_append, List.mem_cons] at hx hnew ⊢
        tauto
      rw [hpart x (by rw [hopen]; simp only [List.mem_append, List.mem_cons] at hold ⊢; tauto)]
      exact ha.carriable.loose x hold
  refine ⟨hhead ▸ ha.rebuilt.planted, ha.rebuilt.named,
    (ha.listed h.listed (List.nil_append _).symm hmem).1, ?_⟩
  rw [hhead]
  intro y inner element outer heq helement hbounds
  have hcut : (r.deeper ++ r.copy :: r.block :: r.copies) ++ r.outer =
      y :: inner ++ element :: outer := by
    rw [← heq, ha.stack]
    simp
  have houtside : ∀ rest, y :: inner = (r.deeper ++ r.copy :: r.block :: r.copies) ++ rest →
      r.outer = rest ++ element :: outer →
      outer ≠ [] ∧ b.headElement.isSome = true ∧
      ∀ x ∈ y :: inner, b'.tree.part? x ∈ [none, some .select] := by
    intro rest hrest houter
    rw [houter] at hopen
    have hcut : b.openElements =
        (r.deeper ++ r.block :: (r.between ++ r.element :: rest)) ++ element :: outer := by
        simp [hopen]
    have hold : Clean b.tree (r.deeper ++ r.block :: (r.between ++ r.element :: rest)) outer
        b.headElement.isSome := by
      have hpart' := hpart element (by simp [hcut])
      cases hin : r.deeper ++ r.block :: (r.between ++ r.element :: rest) with
      | nil => simp at hin
      | cons z above =>
        exact h.sheltered z above element outer (by rw [hcut, hin]) (hpart'.symm.trans helement)
    obtain ⟨hne, hseen, hloose⟩ := hold fun x hx p hp hxp => by
      simp only [List.mem_append, List.mem_cons] at hx
      by_cases hx' : x ∈ rest
      · rw [← hpart x (by simp [hcut, hx'])] at hxp
        exact hbounds x (by rw [hrest]; simp [hx']) p hp hxp
      · by_cases he : x = r.element
        · obtain ⟨name, hname, hl⟩ := ha.label_element
          rw [he, part?_of_label hl, partOf_html, ofName?_formatting name hname] at hxp
          cases hxp
        · have hloose := ha.carriable.loose x (by simp only [List.mem_append, List.mem_cons]; tauto)
          rw [hxp] at hloose
          exact not_bounds_of_loose p hp hloose
    refine ⟨hne, hseen, fun x hx => ?_⟩
    rw [hrest] at hx
    obtain hx | hx := List.mem_append.1 hx
    · exact hinner x hx
    · rw [hpart x (by simp [hcut, hx])]
      exact hloose x (by simp [hx])
  obtain ⟨rest, hrest, houter⟩ | ⟨rest, hrest, houter⟩ := List.append_eq_append_iff.1 hcut
  · exact houtside rest hrest houter
  · cases rest with
    | nil => exact houtside [] (by rw [hrest]; simp) houter.symm
    | cons z rest =>
      obtain ⟨-, rfl⟩ := List.cons.inj houter
      refine ⟨List.append_ne_nil_of_right_ne_nil rest ha.carriable.outer_ne, ha.carriable.head,
        fun x hx => ?_⟩
      exact hinner x (by rw [hrest]; exact List.mem_append_left _ hx)

theorem Poised.adopt?_eq (h : Poised b) (hf : Finds b subject element block) :
    ∃ r, Hoists (b.reportIf (b.currentNode? != some element) .misnestedFormattingElement)
        ((b.reportIf (b.currentNode? != some element) .misnestedFormattingElement).hoist
          element block) r ∧
      r.element = element ∧ r.block = block ∧
      ∀ fuel, adopt? subject (fuel + 1) b = adopt? subject fuel
        ((b.reportIf (b.currentNode? != some element) .misnestedFormattingElement).hoist element
          block) := by
  obtain ⟨errors, herrors, -⟩ := reportIf_eq (b := b) (b.currentNode? != some element)
    .misnestedFormattingElement rfl
  rw [herrors]
  obtain ⟨deeper, between, outer, tag, hc, hentry, hdepth, hfurthest⟩ := h.exists_carriable hf
  have hc' : Carriable { b with errors } deeper block between element outer :=
    ⟨hc.planted, hc.named, hc.stack, hc.loose, hc.special, hc.ordinary, hc.outer_ne, hc.head⟩
  obtain ⟨w, copies, i, tag, copy, grown, r, hcarry, hi, htag, hwrap⟩ :=
    exists_hoists_hoist hc' (h.errors errors).listed hentry
  have hblock : { b with errors }.furthestBlock? outer.length = some (some block) := hfurthest
  refine ⟨_, r, rfl, rfl, fun fuel => ?_⟩
  rw [adopt?, hf.active]
  simp only [hdepth, hf.inScope, Bool.not_true, Bool.false_eq_true, if_false, herrors, hblock,
    hcarry, hi, htag, hwrap, Option.bind_eq_bind, Option.bind_some]

/-- What there is before each round. -/
inductive Iterates (subject : String) (b : TreeBuilder) : TreeBuilder → Prop
  | start : Iterates subject b b
  | round {b₁ b₂ : TreeBuilder} {element block : NodeId} (h : Iterates subject b b₁)
    (hf : Finds b₁ subject element block) (hr : adopt? subject 1 b₁ = some (b₂, .handled)) :
    Iterates subject b b₂

theorem Poised.iterates (h : Poised b) (hi : Iterates subject b b₁) : Poised b₁ := by
  induction hi with
  | start => exact h
  | @round b₁ b₂ element block _ hf hr ih =>
    obtain ⟨r, ha, helement, -, hround⟩ := ih.adopt?_eq hf
    rw [hround 0, adopt?] at hr
    obtain ⟨rfl, -⟩ := Prod.mk.inj (Option.some.inj hr)
    obtain ⟨tag, hentry⟩ := mem_of_activeFormatting? hf.active
    obtain ⟨errors, herrors, -⟩ := reportIf_eq (b := b₁) (b₁.currentNode? != some element)
      .misnestedFormattingElement rfl
    rw [herrors] at ha ⊢
    exact (ih.errors errors).hoists ha (helement ▸ mem_entryIds.2 ⟨tag, hentry⟩)

/-- It may be so that misplaced content goes before a table. -/
theorem Reachable.poised (h : Reachable b) (fostering : Bool) : Poised { b with fostering } := by
  have hlisted := h.openFirst.1.listed
  obtain hspine | hh := h.valid
  · exact ⟨hspine.planted, hspine.named, ⟨hlisted.nodup, hlisted.order, hlisted.made⟩,
      hspine.standing.sheltered⟩
  · refine ⟨?_, ?_, ⟨hlisted.nodup, hlisted.order, hlisted.made⟩, ?_⟩
    · exact hh.openElements.symm ▸ hh.planted
    · exact hh.formatting.symm ▸ .nil
    · intro y inner element outer heq
      rw [show b.openElements = [] from hh.openElements] at heq
      cases heq

/-- Whatever tokens have been fed, each round that finds a block to take out of a formatting element
comes to what it comes to node by node. The copy of the element is then the only child of the block,
and open in it. -/
theorem adopt?_eq_hoist_of_reachable (h : Reachable b) (fostering : Bool)
    (hi : Iterates subject { b with fostering } b₁) (hf : Finds b₁ subject element block) :
    let start := b₁.reportIf (b₁.currentNode? != some element) .misnestedFormattingElement
    (∀ fuel, adopt? subject (fuel + 1) b₁ = adopt? subject fuel (start.hoist element block)) ∧
      ∃ copy inner outer, (start.hoist element block).tree.children block = [copy] ∧
        (start.hoist element block).openElements = inner ++ copy :: block :: outer := by
  intro start
  obtain ⟨r, ha, -, rfl, hround⟩ := ((h.poised fostering).iterates hi).adopt?_eq hf
  exact ⟨hround, r.copy, r.deeper, r.copies ++ r.outer, ha.wraps.outer, ha.stack⟩

/-- A block in more formatting elements than are copied. -/
def nested : List Token := ["a", "b", "i", "u", "s", "div"].map fun name => .startTag { name }

theorem adopt?_nested : ∃ b, feed {} nested = .ok b ∧ Finds b "a" 4 9 ∧
    (∀ fuel, adopt? "a" (fuel + 1) b =
      adopt? "a" fuel ((b.report .misnestedFormattingElement).hoist 4 9)) ∧
    ((b.report .misnestedFormattingElement).hoist 4 9).openElements =
      [13, 9, 10, 11, 12, 3, 1] := by
  obtain ⟨b, hb, hactive, hscope, hblock, hcurrent, hstack⟩ := exists_ok (feed {} nested)
    (fun b => b.activeFormatting? "a" = some 4 ∧ b.nodeInScope 4 = true ∧
      (b.openDepth? 4).bind b.furthestBlock? = some (some 9) ∧ b.currentNode? = some 9 ∧
      ((b.report .misnestedFormattingElement).hoist 4 9).openElements = [13, 9, 10, 11, 12, 3, 1])
    (by with_unfolding_all decide)
  have hfinds : Finds b "a" 4 9 := ⟨hactive, hscope, hblock⟩
  have hround := (adopt?_eq_hoist_of_reachable (.feed (.start false false) hb) b.fostering
    .start hfinds).1
  rw [hcurrent] at hround
  exact ⟨b, hb, hfinds, hround, hstack⟩

end Poised

end Hypertext.TreeBuilder
