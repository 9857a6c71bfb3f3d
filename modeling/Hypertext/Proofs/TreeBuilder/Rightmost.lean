import Hypertext.Proofs.TreeBuilder.Rounds

/-!
# The open elements come last

Without tables, templates and framesets, whatever is inserted is put at the end of the current
element. An open element is therefore found from any other one around it by going to the last child
again and again. Only in the document element something may follow, such as a comment after the
body. The adoption agency keeps this: what it carries is taken from the end of an open element, and
put at the end of another one.
-/

namespace Hypertext

open Hypertext.Tree

/-- A token that begins no table, template or frameset. -/
def Flowing : Token → Prop
  | .startTag tag => tag.name ∉ ["table", "template", "frameset"]
  | _ => True

instance : DecidablePred Flowing
  | .startTag tag => inferInstanceAs (Decidable (tag.name ∉ ["table", "template", "frameset"]))
  | .endTag _ | .character _ | .comment _ | .doctype _ | .endOfFile => instDecidableTrue

/-- The parts that there are without such tokens. -/
def flowParts : List Part := [.html, .head, .body, .select]

/-- The modes that none of these parts leads to. -/
def tabularModes : List InsertionMode := .inTableText :: .inFrameset :: TreeBuilder.tableModes

/-- The open elements, the innermost first, come last in each other. -/
structure Aligned (t : Tree) (stack : List NodeId) : Prop where
  parts : ∀ x ∈ stack, ∀ p, t.part? x = some p → p ∈ flowParts
  tail : stack.Pairwise fun inner outer => t.label? outer = some (.html, "html") ∨
    t.Tail outer inner

/-- Nothing that is open is below the current element. -/
theorem Anchored.eq_current {t : Tree} {stack : List NodeId} {y : NodeId} (h : Anchored t stack)
    (hy : y ∈ stack) (hr : t.Reach (stack.head?.getD root) y) : stack.head?.getD root = y := by
  cases stack with
  | nil => exact absurd hy List.not_mem_nil
  | cons current outer =>
    rcases List.mem_cons.1 hy with rfl | hy
    · rfl
    · exact absurd hr ((List.pairwise_cons.1 h.order).1 y hy)

namespace Aligned

variable {t t' : Tree} {stack stack' : List NodeId} {x y p id : NodeId}

theorem sublist (ha : Aligned t stack) (hs : stack'.Sublist stack) : Aligned t stack' :=
  ⟨fun x hx => ha.parts x (hs.subset hx), ha.tail.sublist hs⟩

theorem parts_of_keeps (ha : Aligned t stack) (h : Anchored t stack) (hk : t.Keeps t') :
    ∀ x ∈ stack, ∀ p, t'.part? x = some p → p ∈ flowParts := by
  intro x hx p hp
  obtain ⟨l, hl⟩ := Option.isSome_iff_exists.1 (h.element x hx)
  rw [part?_of_label (hk x l hl)] at hp
  exact ha.parts x hx p ((part?_of_label hl).trans hp)

/-- Changes elsewhere than between the open elements do not matter. -/
theorem of_tail (ha : Aligned t stack) (h : Anchored t stack) (hk : t.Keeps t')
    (htail : ∀ x ∈ stack, ∀ y ∈ stack, t.label? x ≠ some (.html, "html") → t.Tail x y →
      t'.Tail x y) :
    Aligned t' stack where
  parts := ha.parts_of_keeps h hk
  tail := ha.tail.imp_of_mem fun {y x} hy hx hxy => by
    by_cases hl : t.label? x = some (.html, "html")
    · exact Or.inl (hk x _ hl)
    · exact Or.inr (htail x hx y hy hl (hxy.resolve_left hl))

theorem sameShape (ha : Aligned t stack) (h : Anchored t stack) (s : SameShape t t') :
    Aligned t' stack :=
  ha.of_tail h (s.extends h.forest).keeps fun _ _ _ _ _ hxy => hxy.congr h.forest fun z _ _ _ =>
    s.children z

/-- What is put at the end of `p` follows nothing that is open, if `p` is the current element or
outermost. -/
theorem lengthen {c : NodeId} (ha : Aligned t stack) (h : Anchored t stack) (hk : t.Keeps t')
    (hch : ∀ z, t'.children z = if z = p then t.children z ++ [c] else t.children z)
    (hp : ∀ x ∈ stack, ∀ y ∈ stack, t.label? x ≠ some (.html, "html") → t.Reach x p →
      t.Reach p y → p = y) :
    Aligned t' stack :=
  ha.of_tail h hk fun x hx y hy hl hxy => hxy.lengthen h.forest hch (hp x hx y hy hl)

/-- A new element at the end of the current one may be opened. -/
theorem put {l : Namespace × String} (ha : Aligned t stack) (h : Anchored t stack)
    (w : Put t t' id (stack.head?.getD root) none) (hp : stack.head?.getD root < t.size)
    (hl : t'.label? id = some l) (hparts : ∀ p, partOf l = some p → p ∈ flowParts) :
    Aligned t' (id :: stack) := by
  have hf := h.forest
  have hk := (w.sprout hf hp).keeps
  have hch := w.children hf hp
  have hold : Aligned t' stack := ha.lengthen h hk hch fun x hx y hy _ _ => h.eq_current hy
  refine ⟨List.forall_mem_cons.2 ⟨fun p hpart => ?_, hold.parts⟩,
    List.pairwise_cons.2 ⟨fun x hx => ?_, hold.tail⟩⟩
  · exact hparts p ((part?_of_label hl).symm.trans hpart)
  · cases stack with
    | nil => exact absurd hx List.not_mem_nil
    | cons current outer =>
      rcases List.mem_cons.1 hx with rfl | hx
      · exact Or.inr (Tail.lengthen_new hf .refl hch)
      · refine ((List.pairwise_cons.1 ha.tail).1 x hx).imp (hk x _) fun htail => ?_
        exact htail.lengthen_new hf hch

end Aligned

/-! ## 2. Lifting a block -/

/-- `t'` is `t` while `block` is carried, together with the nodes `inner`, in the node `last`.
Below this one, they come last in each other, and it reads like the block; what else there was
is as it was. -/
structure Lifts (t t' : Tree) (block last : NodeId) (inner : List NodeId) : Prop where
  size_le : t.size ≤ t'.size
  text : ∀ x, t'.text? x = t.text? x
  others : ∀ x, x < t.size → (t'.detach last).children x = (t.detach block).children x
  read : (t'.detach last).textContent last = (t.detach block).textContent block
  tail_last : ∀ x ∈ inner, (t'.detach last).Tail last x
  tail : inner.Pairwise fun x y => (t'.detach last).Tail y x

section Lifts

variable {t t' t'' t₁ : Tree} {inner outer deeper : List NodeId} {block last copy x y : NodeId}
  {head : Option NodeId}

theorem Carried.forest_detach (h : Carried t inner outer last head) : Forest (t.detach last) := by
  obtain ⟨l, hl⟩ := h.exists_label
  exact h.forest.detach (h.forest.ne_root_of_label hl) (ne_fragment_of_label hl)

/-- The way up from an `html` element leads to the document only. -/
theorem Planted.not_html_of_reach {stack : List NodeId} {l : Namespace × String}
    (h : Planted t stack head) (hx : t.label? x = some l) (hy : y ∈ stack) (hxy : t.Reach x y)
    (hne : x ≠ y) : t.label? y ≠ some (.html, "html") := fun hl => by
  have hroot := h.forest.reach_of_above (Or.inl (h.html y hy hl)) hxy hne
  exact h.forest.ne_root_of_label hx (h.forest.reach_root hroot)

/-- Where a node is not taken out, nothing changes. -/
theorem children_detach_of_not_above (h : Forest t) (hx : ¬ t.Above x y) :
    (t.detach y).children x = t.children x := by
  rw [children_detach y x h.linked]
  exact List.erase_of_not_mem fun hm => hx (h.above_of_mem hm)

theorem Lifts.start {rest : List NodeId} (h : Planted t (deeper ++ block :: rest) head)
    (ha : Aligned t (deeper ++ block :: rest)) (hm : t.Movable block) :
    Lifts t t block block (deeper ++ [block]) := by
  have hf := h.forest
  obtain ⟨l, hl⟩ := Option.isSome_iff_exists.1 (h.element block (by simp))
  have hblock : t.label? block ≠ some (.html, "html") := hm _ (by decide)
  -- below the block, nothing is taken out
  have hbelow : ∀ {x y}, t.Reach block x → t.Tail x y → (t.detach block).Tail x y := fun hx hxy =>
    hxy.congr hf fun z hxz _ _ => children_detach_of_not_above hf fun hz =>
      hf.not_reach_of_above hz (hx.trans hxz)
  obtain ⟨hdeeper, -, htail⟩ := List.pairwise_append.1 ha.tail
  have hlast : ∀ x ∈ deeper, t.Tail block x := fun x hx =>
    (htail x hx block (by simp)).resolve_left hblock
  refine ⟨Nat.le_refl _, fun _ => rfl, fun _ _ => rfl, rfl, fun x hx => ?_,
    List.pairwise_append.2 ⟨?_, List.pairwise_singleton _ _, fun x hx y hy => ?_⟩⟩
  · rcases List.mem_append.1 hx with hx | hx
    · exact hbelow .refl (hlast x hx)
    · rw [List.mem_singleton.1 hx]
      exact .refl
  · refine hdeeper.imp_of_mem fun {x y} hx hy hxy => ?_
    have hreach := (hlast y hy).reach hf
    have hne : block ≠ y := by
      rintro rfl
      exact (List.nodup_append.1 h.nodup).2.2 block hy block (by simp) rfl
    have hhtml := h.not_html_of_reach hl (List.mem_append_left _ hy) hreach hne
    exact hbelow hreach (hxy.resolve_left hhtml)
  · rw [List.mem_singleton.1 hy]
    exact hbelow .refl (hlast x hx)

/-- What is carried is put into a new element. -/
theorem Lifts.copied (hl : Lifts t t' block last inner) (h : Carried t' inner outer last head)
    (g : Grown t' t₁ copy) (htext : ∀ x, t₁.text? x = t'.text? x)
    (s : Shifted t₁ t'' last copy none) : Lifts t t'' block copy (inner ++ [copy]) := by
  have hf := h.forest_detach
  have h₁ := g.forest h.forest
  obtain ⟨l, hll⟩ := h.exists_label
  have hlt := h.lt h.mem_stack
  have hold : ∀ {x}, x < t'.size → x ≠ copy := fun hx =>
    Nat.ne_of_lt (Nat.lt_of_lt_of_le hx g.fresh)
  have hnew : ∀ {x}, x < t'.size → ¬ (t'.detach last).Reach x copy := fun hx hr => by
    have hlt := hf.reach_lt (by rwa [size_detach]) hr
    rw [size_detach] at hlt
    exact absurd hlt (Nat.not_lt.2 g.fresh)
  -- the new element hangs nowhere, and at its end is what was carried before
  have hf' : Forest (t''.detach copy) := by
    refine Forest.detach (s.forest h₁ (ne_fragment_of_label (g.keeps last l hll)) ?_ ?_) ?_ ?_
    · exact h.forest.ne_root_of_label hll
    · rintro p ⟨⟩ hr
      exact hold hlt (g.eq_of_reach h.forest hr)
    · exact Ne.symm (hold h.forest.root_lt)
    · rw [s.data]
      exact g.solid
  have hch : ∀ x, (t''.detach copy).children x =
      if x = copy then (t'.detach last).children x ++ [last] else (t'.detach last).children x := by
    intro x
    have hnot : copy ∉ t''.children x := by
      rw [s.linked.mem_children, s.parent, if_neg (Ne.symm (hold hlt)), ← g.linked.mem_children]
      exact g.not_mem_children x
    have hx := s.children x
    rw [g.children, ← children_detach last x h.forest.linked] at hx
    rw [children_detach copy x s.linked, List.erase_of_not_mem hnot]
    exact hx
  have htext' : ∀ x, t''.text? x = t'.text? x := fun x => (text?_congr (s.data x)).trans (htext x)
  have hangs : Hangs (t'.detach last) (t''.detach copy) copy last := by
    refine ⟨hch, fun x => ?_, hnew hlt⟩
    rw [text?_congr (data?_detach copy x), htext', text?_congr (data?_detach last x)]
  have hempty : (t'.detach last).textContent copy = "" := by
    have hnone : (t'.detach last).text? copy = none := by
      rw [text?, data?_detach, data?, get?_eq_none t' copy g.fresh]
      rfl
    rw [hf.textContent_eq, hnone, children_eq_nil (by rw [size_detach]; exact g.fresh)]
    rfl
  have hkeep : ∀ {x y}, x < t'.size → (t'.detach last).Tail x y → (t''.detach copy).Tail x y :=
    fun hx hxy => hxy.lengthen hf hch fun hr _ => absurd hr (hnew hx)
  have hinner : ∀ {x}, x ∈ inner → x < t'.size := fun hx => h.lt (List.mem_append_left _ hx)
  have hbelow : ∀ x ∈ inner, (t''.detach copy).Tail copy x := fun x hx => by
    refine .head ?_ (hkeep hlt (hl.tail_last x hx))
    rw [lastChild?, hch, if_pos rfl, List.getLast?_concat]
  refine ⟨?_, fun x => (htext' x).trans (hl.text x), fun x hx => ?_, ?_, fun x hx => ?_,
    List.pairwise_append.2 ⟨?_, List.pairwise_singleton _ _, fun x hx y hy => ?_⟩⟩
  · rw [s.size]
    exact Nat.le_trans hl.size_le g.size_le
  · rw [hch, if_neg (hold (Nat.lt_of_lt_of_le hx hl.size_le)), hl.others x hx]
  · rw [hangs.textContent_self hf hf', hempty, hl.read]
    simp
  · rcases List.mem_append.1 hx with hx | hx
    · exact hbelow x hx
    · rw [List.mem_singleton.1 hx]
      exact .refl
  · exact hl.tail.imp_of_mem fun {x y} _ hy hxy => hkeep (hinner hy) hxy
  · rw [List.mem_singleton.1 hy]
    exact hbelow x hx

/-- Where the block is not on the way, it may be taken out. -/
theorem Tree.Tail.detach (hxy : t.Tail x y) (hf : Forest t)
    (hblock : ∀ z, t.Above z block → t.Reach z y → z = y) : (t.detach block).Tail x y :=
  hxy.congr hf fun z _ hzy hne => children_detach_of_not_above hf fun hz => hne (hblock z hz hzy)

/-- The block is read last. -/
theorem textContent_detach (hf : Forest t) (hD : Forest (t.detach block)) (hx : t.Tail x block)
    (hne : x ≠ block) :
    t.textContent x = (t.detach block).textContent x ++ (t.detach block).textContent block := by
  rcases Relation.ReflTransGen.cases_tail hx with rfl | ⟨q, hxq, hq⟩
  · exact absurd rfl hne
  · have hlast := (hf.linked.mem_children q block).1 (List.mem_of_getLast? hq)
    refine (hf.hangs_of_lastChild hq).textContent hD hf (Tree.Tail.detach hxq hf fun z hz hzq => ?_)
    have hqz : t.Reach q z := hf.reach_of_above hz (.single (hf.above_lastChild hq)) fun heq => by
      rw [heq] at hlast
      exact hf.not_reach_of_above (Or.inl hlast) .refl
    exact hf.reach_antisymm hzq hqz

theorem Lifts.tail_of_old (hl : Lifts t t' block last inner) (hD : Forest (t.detach block))
    (hx : x < t.size) (hxy : (t.detach block).Tail x y) : (t'.detach last).Tail x y :=
  hxy.congr hD fun z hxz _ _ => hl.others z (by
    rw [← size_detach (t := t) block]
    exact hD.reach_lt (by rwa [size_detach]) hxz)

theorem Lifts.textContent_of_old (hl : Lifts t t' block last inner) (hD : Forest (t.detach block))
    (hd : Forest (t'.detach last)) (hx : x < t.size) :
    (t'.detach last).textContent x = (t.detach block).textContent x := by
  refine textContent_congr hD hd (fun z hxz => hl.others z ?_) fun z _ => ?_
  · rw [← size_detach (t := t) block]
    exact hD.reach_lt (by rwa [size_detach]) hxz
  · rw [text?_congr (data?_detach last z), hl.text, text?_congr (data?_detach block z)]

/-- The block is put down at the end of the element outside the formatting element. -/
theorem Lifts.putDown {between : List NodeId} {element p : NodeId}
    (hp : Planted t (deeper ++ block :: (between ++ element :: p :: outer)) head)
    (ha : Aligned t (deeper ++ block :: (between ++ element :: p :: outer))) (hm : t.Movable block)
    (he : t.label? element ≠ some (.html, "html")) (hl : Lifts t t' block last inner)
    (h : Carried t' inner (element :: p :: outer) last head) (hnot : ∀ x ∈ inner, ¬ t'.Reach x p)
    (s : Shifted t' t'' last p none) :
    (inner ++ p :: outer).Pairwise (fun x y => t.label? y = some (.html, "html") ∨ t''.Tail y x) ∧
      ∀ x ∈ p :: outer, t.label? x ≠ some (.html, "html") →
      t''.textContent x = t.textContent x := by
  have hf := hp.forest
  have hD : Forest (t.detach block) := by
    obtain ⟨l, hll⟩ := Option.isSome_iff_exists.1 (hp.element block (by simp))
    exact hf.detach (hf.ne_root_of_label hll) (ne_fragment_of_label hll)
  have hd := h.forest_detach
  obtain ⟨l, hll⟩ := h.exists_label
  have hsolid := ne_fragment_of_label hll
  have hmem : ∀ x ∈ p :: outer, x ∈ deeper ++ block :: (between ++ element :: p :: outer) :=
    fun x hx => by
    simp only [List.mem_append, List.mem_cons] at hx ⊢
    tauto
  -- the open elements around the formatting element, as they are in `t`
  have hstack := (List.pairwise_append.1 ha.tail).2.1
  obtain ⟨hend, hstack⟩ := List.pairwise_cons.1 hstack
  have hinside := (List.pairwise_cons.1 (List.pairwise_append.1 hstack).2.1).2
  have horder := (List.pairwise_cons.1 (List.pairwise_append.1 hp.order).2.1).2
  have horder := (List.pairwise_cons.1 (List.pairwise_append.1 horder).2.1).1
  have helement : t.Reach element block := ((hend element (by simp)).resolve_left he).reach hf
  have hne : ∀ x ∈ element :: p :: outer, x ≠ block := by
    rintro x hx rfl
    have hnodup := (List.nodup_cons.1 (List.nodup_append.1 hp.nodup).2.1).1
    exact hnodup (List.mem_append_right _ hx)
  have hparent : ∀ z, t.Above z block → ∀ x ∈ p :: outer, ¬ t.Reach z x := fun z hz x hx hzx =>
    horder x hx ((hf.reach_of_above hz helement (hne element (by simp))).trans hzx)
  have hold : ∀ x ∈ p :: outer, ∀ y ∈ p :: outer, t.Tail y x → (t'.detach last).Tail y x :=
    fun x hx y hy hyx => hl.tail_of_old hD (hp.lt (hmem y hy))
      (Tree.Tail.detach hyx hf fun z hz hzx => absurd hzx (hparent z hz x hx))
  -- what becomes of them when the block is put down
  have hangs := s.hangs h.forest hsolid (hnot last h.mem)
  have hf' : Forest t'' := s.forest h.forest hsolid (h.forest.ne_root_of_label hll) (by
    rintro q ⟨⟩
    exact hnot last h.mem)
  have hfirst : ∀ x ∈ p :: outer, t'.Reach p x → p = x := fun x hx hpx => by
    rcases List.mem_cons.1 hx with rfl | hx
    · rfl
    · have hcarried := (List.pairwise_cons.1 (List.pairwise_append.1 h.order).2.1).2
      exact absurd hpx ((List.pairwise_cons.1 hcarried).1 x hx)
  have hkeep : ∀ {x y}, y ∈ inner → (t'.detach last).Tail y x → t''.Tail y x := fun hy hyx =>
    hyx.lengthen hd hangs.children fun hr _ =>
      absurd (reach_of_detach h.forest hsolid hr) (hnot _ hy)
  have hedge : t''.lastChild? p = some last := by
    rw [lastChild?, hangs.children, if_pos rfl, List.getLast?_concat]
  have hlast : ∀ y ∈ p :: outer, t.label? y = some (.html, "html") ∨ (t'.detach last).Tail y p := by
    intro y hy
    rcases List.mem_cons.1 hy with rfl | hy'
    · exact Or.inr .refl
    · exact ((List.pairwise_cons.1 hinside).1 y hy').imp_right (hold p (by simp) y hy)
  refine ⟨List.pairwise_append.2 ⟨?_, ?_, fun x hx y hy => ?_⟩, fun x hx hhtml => ?_⟩
  · exact hl.tail.imp_of_mem fun {x y} _ hy hyx => Or.inr (hkeep hy hyx)
  · refine hinside.imp_of_mem fun {x y} hx hy hyx => hyx.imp_right fun hyx => ?_
    exact (hold x hx y hy hyx).lengthen hd hangs.children fun _ hr =>
      hfirst x hx (reach_of_detach h.forest hsolid hr)
  · refine (hlast y hy).imp_right fun hyp => ?_
    exact (hyp.lengthen_new hd hangs.children).trans (hkeep h.mem (hl.tail_last x hx))
  · have hxp := (hlast x hx).resolve_left hhtml
    have hxblock := (hend x (by simp at hx ⊢; tauto)).resolve_left hhtml
    rw [hangs.textContent hd hf' hxp, hl.textContent_of_old hD hd (hp.lt (hmem x hx)), hl.read,
      ← textContent_detach hf hD hxblock (hne x (List.mem_cons_of_mem _ hx))]

/-- The copy around the children of the block may be opened in it. -/
theorem Tree.Wraps.pairwise {rest : List NodeId} {exempt : NodeId → Prop} (hf : Forest t)
    (w : Wraps t t' block copy) (hnot : ¬ exempt block) (hne : ∀ x ∈ deeper, x ≠ block)
    (hpair : (deeper ++ block :: rest).Pairwise fun x y => exempt y ∨ t.Tail y x) :
    (deeper ++ copy :: block :: rest).Pairwise fun x y => exempt y ∨ t'.Tail y x := by
  have hkeep : ∀ {x y}, exempt y ∨ t.Tail y x → exempt y ∨ t'.Tail y x := fun h =>
    h.imp_right (w.tail hf)
  obtain ⟨hdeeper, hstack, hcross⟩ := List.pairwise_append.1 hpair
  obtain ⟨hblock, hrest⟩ := List.pairwise_cons.1 hstack
  refine List.pairwise_append.2 ⟨hdeeper.imp hkeep, List.pairwise_cons.2 ⟨fun y hy => ?_,
    List.pairwise_cons.2 ⟨fun y hy => hkeep (hblock y hy), hrest.imp hkeep⟩⟩, fun x hx y hy => ?_⟩
  · rcases List.mem_cons.1 hy with rfl | hy
    · exact Or.inr w.tail_block
    · exact (hkeep (hblock y hy)).imp_right fun hyb => hyb.trans w.tail_block
  · rcases List.mem_cons.1 hy with rfl | hy
    · exact Or.inr (w.tail_copy hf ((hcross x hx block (by simp)).resolve_left hnot) (hne x hx))
    · exact hkeep (hcross x hx y hy)

end Lifts

namespace TreeBuilder

variable {token : Token} {mode : InsertionMode} {b b' a : TreeBuilder} {cs : List Char}
  {o : Outcome}

/-! ## 3. Places -/

theorem placeIn_eq {target : NodeId} (h : ∀ p, b.tree.part? target = some p → p ∈ flowParts) :
    b.placeIn target = ⟨target, none⟩ := by
  have hnames : ∀ names : List String, (∀ name ∈ names, ∃ p, Part.ofName? name = some p ∧
      p ∉ flowParts) → b.isHtmlOf names target = false := by
    intro names hnames
    refine Bool.eq_false_iff.2 fun ht => ?_
    obtain ⟨name, hname, hl⟩ := isHtmlOf_iff.1 ht
    obtain ⟨p, hp, hnot⟩ := hnames name hname
    exact hnot (h p ((part?_of_label hl).trans hp))
  have hfoster : b.isHtmlOf Category.fostering target = false := hnames _ (by decide)
  have htemplate : b.isHtmlOf ["template"] target = false := hnames _ (by decide)
  rw [isHtmlOf_singleton] at htemplate
  simp only [placeIn, hfoster, Bool.and_false, Bool.false_eq_true, if_false, htemplate]

/-- A new node goes to the end of the current one. -/
theorem place_eq (h : Anchored b.tree b.openElements) (ha : Aligned b.tree b.openElements) :
    b.place = ⟨b.openElements.head?.getD Tree.root, none⟩ := by
  refine placeIn_eq fun p hp => ?_
  rw [currentNode?] at hp
  cases hopen : b.openElements with
  | nil =>
    obtain ⟨mode, hm⟩ := h.forest.document
    rw [hopen] at hp
    simp [part?, label?, element?, hm] at hp
  | cons x outer =>
    rw [hopen] at hp
    exact ha.parts x (by simp [hopen]) p hp

/-! ## 4. The adoption agency -/

section Adopts

variable {deeper between copies rest outer : List NodeId} {block : NodeId} {w₀ w : Walk}
  {r : AgencyRound}

theorem Climbs.lifts {t : Tree} (c : Climbs deeper block outer w₀ between copies rest w)
    (h : Walk.Sound b deeper block [] between outer w₀)
    (hl : Lifts t w₀.builder.tree block w₀.lastNode (deeper ++ [block])) :
    Lifts t w.builder.tree block w.lastNode (deeper ++ block :: copies) := by
  induction c with
  | start => exact hl
  | forget _ _ ih => exact ih
  | close _ _ ih => exact ih
  | @copy copies rest node id w i tag tree c hi htag hnew ih =>
    have hcarried := (c.sound h).carried
    have g := grown_createElement tag.name tag.attributes .html hcarried.forest
    have htext := text?_createElement w.builder.tree tag.name tag.attributes .html
    rw [hnew] at g htext
    have hlt := Nat.lt_of_lt_of_le (hcarried.lt hcarried.mem_stack) g.size_le
    have hcopied := ih.copied hcarried g htext (shifted_insertAt g.linked g.lt hlt none)
    rw [List.append_assoc] at hcopied
    exact hcopied

/-- The children of the block are wrapped where they are. -/
theorem Hoists.wraps (h : Hoists b b' r) :
    Wraps (r.walk.putDown r.outer).builder.tree b'.tree r.block r.copy := by
  have htext := text?_createElement (r.walk.putDown r.outer).builder.tree r.tag.name
    r.tag.attributes .html
  rw [h.created] at htext
  rw [h.tree_eq]
  exact wraps_moveChildren h.grown_copy htext h.block_lt

/-- The formatting element is none of the outermost elements. -/
theorem Adopts.movable_element (h : Adopts b b' r) : b.tree.Movable r.element := by
  have hs := h.carriable.sound h.climbs
  obtain ⟨hname, hl⟩ := hs.named r.element r.tag (List.mem_of_getElem? h.entry)
  intro l hout hl'
  rw [hs.keeps _ _ hl'] at hl
  exact not_outer_of_formatting hname (Option.some.inj hl ▸ hout)

/-- The open elements come last in each other again, and those outside the formatting element
read as before. -/
theorem Adopts.aligned (h : Adopts b b' r) (ha : Aligned b.tree b.openElements) :
    Aligned b'.tree b'.openElements ∧ ∀ x ∈ r.outer, b.tree.label? x ≠ some (.html, "html") →
      b'.tree.textContent x = b.tree.textContent x := by
  have hc := h.carriable
  have hs := hc.sound h.climbs
  have hp := hc.planted
  have hanchored := hp.anchored
  obtain ⟨p, outer, houter⟩ := List.exists_cons_of_ne_nil hc.outer_ne
  have hopen := hc.stack
  rw [houter] at hopen
  rw [hopen] at hp ha
  have hhtml : b.tree.label? r.element ≠ some (.html, "html") := h.movable_element _ (by decide)
  -- the block is put down in the element outside
  have hmem : p ∈ b.openElements := by simp [hc.stack, houter]
  have htarget : r.walk.target r.outer = ⟨p, none⟩ := by
    rw [Walk.target, houter]
    exact placeIn_eq (ha.parts_of_keeps hp.anchored hs.keeps p (hopen ▸ hmem))
  obtain ⟨hroot, hnot⟩ := hc.target h.climbs
  have s := hc.shifted h.climbs
  rw [htarget] at hnot s
  have hcarried := hs.carried
  rw [houter] at hcarried
  have hl := h.climbs.lifts (hc.start _) (Lifts.start hp ha hc.movable)
  obtain ⟨hpair, hread⟩ := hl.putDown hp ha hc.movable hhtml hcarried hnot s
  have hplanted := (hc.rebuilt h.climbs).1.planted
  have hf := hplanted.forest
  have w := h.wraps
  have hstack : b'.openElements = r.deeper ++ r.copy :: r.block :: (r.copies ++ p :: outer) := by
    rw [h.stack, ← houter]
  have hne : ∀ x ∈ r.deeper, x ≠ r.block := by
    rintro x hx rfl
    exact (List.nodup_append.1 hp.nodup).2.2 r.block hx r.block (by simp) rfl
  rw [List.append_assoc, List.cons_append] at hpair
  have hwrapped := w.pairwise hf (hc.movable _ (by decide)) hne hpair
  rw [← hstack] at hwrapped
  refine ⟨⟨fun x hx q hq => ?_, hwrapped.imp fun hxy => hxy.imp_left (h.rebuilt.keeps _ _)⟩, ?_⟩
  · obtain hold | ⟨name, hname, hlabel⟩ := h.mem_openElements hx
    · exact ha.parts_of_keeps hp.anchored h.rebuilt.keeps x (hopen ▸ hold) q hq
    · rw [part?_of_label hlabel, partOf_html, ofName?_formatting name hname] at hq
      cases hq
  · rw [houter]
    intro x hx hxl
    have hlt : x < (r.walk.putDown r.outer).builder.tree.size := hplanted.lt (by
      change x ∈ r.walk.builder.openElements
      rw [hs.stack, houter]
      simp only [List.mem_append, List.mem_cons] at hx ⊢
      tauto)
    rw [w.textContent hf h.rebuilt.planted.forest hlt, hread x hx hxl]

end Adopts

/-! ## 5. Steps -/

theorem MayOpen.flow {p : Part} (h : MayOpen token mode p) (ht : Flowing token)
    (hm : mode ∉ tabularModes) : p ∈ flowParts := by
  have hmode : mode ∉ tableModes := fun hmem =>
    hm (List.mem_cons_of_mem _ (List.mem_cons_of_mem _ hmem))
  have hname : ∀ name ∈ ["table", "template", "frameset"],
      ¬ ∃ tag, token = .startTag tag ∧ tag.name = name := by
    rintro name hname ⟨tag, htag, rfl⟩
    rw [htag] at ht
    exact ht hname
  cases p with
  | html | head | body | select => decide
  | table | template | frameset => exact absurd h (hname _ (by decide))
  | caption | columns | rowGroup | row | cell => exact absurd h hmode

/-- Where a leaf is put, nothing open follows. -/
theorem PlacesLeaf.end (h : Rooted b) (ha : Aligned b.tree b.openElements) {place : Place}
    (hp : PlacesLeaf b place) : place.before = none ∧ ∀ x ∈ b.openElements, ∀ y ∈ b.openElements,
      b.tree.label? x ≠ some (.html, "html") → b.tree.Reach x place.parent →
        b.tree.Reach place.parent y → place.parent = y := by
  have hanchored := h.anchored
  rcases hp with rfl | ⟨hnone, hp | ⟨hat, hl⟩⟩
  · rw [place_eq hanchored ha]
    exact ⟨rfl, fun x _ y hy _ _ => hanchored.eq_current hy⟩
  · refine ⟨hnone, fun x hx y _ _ hxp => ?_⟩
    rw [hp] at hxp
    obtain ⟨l, hlx⟩ := Option.isSome_iff_exists.1 (hanchored.element x hx)
    exact absurd (hanchored.forest.reach_root hxp) (hanchored.forest.ne_root_of_label hlx)
  · refine ⟨hnone, fun x hx y _ hlx hxp => ?_⟩
    -- the document element is the outermost one
    obtain ⟨inner, hopen⟩ : ∃ inner, b.openElements = inner ++ [place.parent] := by
      rw [openAt?, ← List.head?_eq_getElem?, List.head?_reverse, List.getLast?_eq_some_iff] at hat
      exact hat
    have horder := hanchored.order
    rw [hopen] at horder hx
    rcases List.mem_append.1 hx with hx | hx
    · exact absurd hxp ((List.pairwise_append.1 horder).2.2 x hx _ (by simp))
    · rw [List.mem_singleton.1 hx, hl] at hlx
      exact absurd rfl hlx

theorem Step.aligned (s : Step token mode b b') (ht : Flowing token) (hm : mode ∉ tabularModes)
    (h : Rooted b) (ha : Aligned b.tree b.openElements) : Aligned b'.tree b'.openElements := by
  have hf := h.anchored.forest
  cases s with
  | aside a => exact a.tree ▸ a.openElements ▸ ha
  | close hs => exact ha.sublist hs
  | forget _ hs => exact ha.sublist (sublist_of_forget hs)
  | @insert name attributes ns _ _ _ hp _ =>
    obtain ⟨id, tree, heq, w, hl⟩ := insertElement_eq h.anchored name attributes ns
    have hlt := place_lt h.anchored
    -- in an aligned tree the new element comes last in the current node
    rw [place_eq h.anchored ha] at w hlt
    rw [heq]
    exact ha.put h.anchored w hlt hl fun p hpart => (hp p hpart).flow ht hm
  | @leaf data place hd hp =>
    obtain ⟨hnone, hend⟩ := hp.end h ha
    have w := (put_leaf hf (hp.lt h) (Token.isLeaf hd) place.before).1
    rw [hnone] at w ⊢
    exact ha.lengthen h.anchored (w.sprout hf (hp.lt h)).keeps (w.children hf (hp.lt h)) hend
  | setMode documentMode => exact ha.sameShape h.anchored (sameShape_setMode hf.linked documentMode)
  | @merge id tag =>
    exact ha.sameShape h.anchored (sameShape_modifyElement hf.linked id fun _ => rfl)
  | pushHead hopen hhtml hhead =>
    rw [hopen] at ha
    refine ⟨List.forall_mem_cons.2 ⟨fun p hp => ?_, hopen ▸ ha.parts⟩, ?_⟩
    · obtain rfl := Option.some.inj ((part?_of_label hhead).symm.trans hp)
      decide
    · rw [push, hopen]
      exact List.pairwise_pair.2 (Or.inl hhtml)
  | unmark hopen => exact ha.sublist (hopen ▸ List.sublist_append_right _ _)
  | stop => exact ha.sublist (List.nil_sublist _)
  | adopt _ _ had => exact (had.aligned ha).1
  | unbody htoken hname =>
    -- a frameset tag is no flowing token
    rw [htoken, Flowing, hname] at ht
    exact absurd (by decide) ht

theorem Step.calm (s : Step token mode b b') (hm : mode ≠ .inFrameset)
    (hc : Calm b.mode b.resumeMode b.templateModes) :
    Calm b'.mode b'.resumeMode b'.templateModes := by
  cases s with
  | aside a => exact a.calm hm hc
  | @insert name attributes ns =>
    obtain ⟨tree, openElements, fault, heq⟩ := insertElement_same b name attributes ns
    rw [heq]
    exact hc
  | stop => exact ⟨hc.mode, hc.resumeMode, nofun⟩
  | adopt _ _ ha =>
    rw [ha.rebuilt.same]
    exact hc
  | _ => exact hc

/-! ## 6. Runs -/

/-- The open elements come last in each other, and no frameset has been seen. -/
structure Rightmost (b : TreeBuilder) : Prop extends Aligned b.tree b.openElements where
  calm : Calm b.mode b.resumeMode b.templateModes

/-- The innermost part leads to none of the modes of tables and framesets. -/
theorem mode_of_aligned (h : Spine b) (ha : Aligned b.tree b.openElements) :
    b.mode ∉ tabularModes := by
  have hsteady : ∀ {mode}, Steady b.tree b.openElements b.templateModes b.headElement.isSome mode →
      mode.kind ∈ [InsertionMode.beforeHead, .afterHead, .inHead, .inBody, .inSelect] := by
    intro mode hs
    rw [hs.2]
    cases hbones : b.tree.bones b.openElements with
    | nil => simp [modeOf]
    | cons p rest =>
      have hp : p ∈ flowParts := by
        obtain ⟨x, hx, hpart⟩ :=
          List.mem_filterMap.1 (show p ∈ b.tree.bones b.openElements by simp [hbones])
        exact ha.parts x hx p hpart
      simp only [flowParts, List.mem_cons, List.not_mem_nil, or_false] at hp
      rcases hp with rfl | rfl | rfl | rfl
      · rw [modeOf]
        split <;> decide
      all_goals simp [modeOf]
  have hstanding := h.standing
  intro hm
  simp only [tabularModes, tableModes, List.mem_cons, List.not_mem_nil, or_false] at hm
  rcases hm with hm | hm | hm | hm | hm <;> rw [hm] at hstanding
  · obtain ⟨mode, hmode, -, hs⟩ := hstanding
    have hkind := hsteady hs
    revert hmode hkind
    cases mode <;> decide
  all_goals exact absurd (hsteady hstanding) (by decide)

theorem aligned_insertChar (h : Rooted b) (hp : b.place.parent ≠ Tree.root)
    (ha : Aligned b.tree b.openElements) (c : Char) :
    Aligned (b.insertChar c).tree (b.insertChar c).openElements := by
  have hanchored := h.anchored
  have hf := hanchored.forest
  have hlt := place_lt hanchored
  rw [insertChar_eq_insertText hanchored, if_neg hp, place_eq hanchored ha]
  rw [place_eq hanchored ha] at hlt
  obtain ⟨prev, old, -, hold, heq⟩ | ⟨-, heq⟩ :=
    insertText_cases b.tree (b.openElements.head?.getD Tree.root) none c.toString
  · rw [heq]
    exact ha.sameShape hanchored (sameShape_setText hf.linked hold)
  · have w := (put_alloc hf hlt (.text c.toString) (by simp) none).1
    rw [heq]
    exact ha.lengthen hanchored (w.sprout hf hlt).keeps (w.children hf hlt)
      fun _ _ y hy _ _ => hanchored.eq_current hy

theorem kept_rightmost : Kept Flowing (· ∉ tabularModes) Rightmost where
  follows ht hf := by
    obtain rfl | ⟨image, rfl, -, rfl⟩ := hf
    · exact ht
    · exact (by decide : "img" ∉ ["table", "template", "frameset"])
  mode h hr := mode_of_aligned h hr.toAligned
  note ht hs _ _ hc hr := ⟨ht ▸ hs ▸ hr.toAligned, hc hr.calm⟩
  step {token mode b b'} ht hm s h _ hr :=
    ⟨s.aligned ht hm h hr.toAligned, s.calm (fun heq => hm (heq ▸ by decide)) hr.calm⟩
  char {b} c h _ hp _ hr := by
    refine ⟨aligned_insertChar h hp hr.toAligned c, ?_⟩
    obtain ⟨tree, heq, -⟩ := insertChar_eq h.anchored c
    rw [heq]
    exact hr.calm

end TreeBuilder

end Hypertext
