import Hypertext.Proofs.Dom.Forest

/-!
# The skeleton of a document

Below the document stand comments, at most one document type and the document element, which begins
with the head and holds one body, or a frameset in its place. The `Skeleton` of a tree shows just
these nodes. A tree is `Upright` if its skeleton is right so far. Most changes leave the skeleton
alone; those that add to it are listed one by one.
-/

namespace Hypertext

/-! ## 1. Kinds of nodes -/

namespace NodeData

def isComment : NodeData → Bool
  | .comment _ => true
  | _ => false

def isDoctype : NodeData → Bool
  | .doctype .. => true
  | _ => false

def isElement : NodeData → Bool
  | .element _ => true
  | _ => false

/-- Whether this is an HTML element with one of these names. -/
def isHtmlOf (names : List String) : NodeData → Bool
  | .element e => e.isHtmlOf names
  | _ => false

end NodeData

/-! ## 2. Lists with one more node -/

namespace Tree

/-- A list with `item` put before another one, or at the end if that is missing. -/
def insertedAt (before : Option NodeId) (item : NodeId) (l : List NodeId) : List NodeId :=
  match before with
  | some reference => if reference ∈ l then insertedBefore item reference l else l ++ [item]
  | none => l ++ [item]

section Lists

variable {l : List NodeId} {before : Option NodeId} {a c r : NodeId} {f : NodeId → Bool}

theorem head?_erase (h : l.head? = some a) (hne : a ≠ c) : (l.erase c).head? = some a := by
  obtain ⟨rest, rfl⟩ := List.head?_eq_some_iff.1 h
  rw [List.erase_cons_tail (by simpa using hne), List.head?_cons]

theorem filter_erase (hc : f c = false) : (l.erase c).filter f = l.filter f := by
  rw [← List.erase_filter, List.erase_of_not_mem]
  simp [hc]

theorem find?_erase (h : l.find? f = some a) (hne : a ≠ c) : (l.erase c).find? f = some a := by
  rw [← List.head?_filter] at h ⊢
  rw [← List.erase_filter]
  exact head?_erase h hne

theorem filter_insertedBefore (hc : f c = false) :
    (insertedBefore c r l).filter f = l.filter f := by
  induction l with
  | nil => rfl
  | cons x l ih =>
    rw [insertedBefore]
    split
    · rw [List.filter_cons_of_neg (by simp [hc])]
    · rw [List.filter_cons, List.filter_cons, ih]

theorem filter_insertedAt (hc : f c = false) : (insertedAt before c l).filter f = l.filter f := by
  unfold insertedAt
  split
  · split
    · exact filter_insertedBefore hc
    · simp [hc]
  · simp [hc]

/-- What is found first stays first, if something is put before another thing that is looked for. -/
theorem find?_insertedBefore (h : l.find? f = some a) (hr : f r = true) (hne : r ≠ a) :
    (insertedBefore c r l).find? f = some a := by
  induction l with
  | nil => cases h
  | cons x l ih =>
    rw [List.find?_cons] at h
    rw [insertedBefore]
    split
    · next hx =>
      rw [hx, hr] at h
      exact absurd (Option.some.inj h) hne
    · rw [List.find?_cons]
      split
      · next hfx => simpa [hfx] using h
      · next hfx => exact ih (by simpa [hfx] using h)

theorem find?_insertedAt (h : l.find? f = some a)
    (hbefore : ∀ r, before = some r → f r = true ∧ r ≠ a) :
    (insertedAt before c l).find? f = some a := by
  unfold insertedAt
  split
  · next r =>
    obtain ⟨hr, hne⟩ := hbefore r rfl
    split
    · exact find?_insertedBefore h hr hne
    · rw [List.find?_append, h, Option.some_or]
  · rw [List.find?_append, h, Option.some_or]

end Lists

/-! ## 3. Moving a node, in order -/

/-- `t'` is `t` with the node `c` moved into `p`, before `before`; the other nodes keep
their order. -/
structure Shifted (t t' : Tree) (c p : NodeId) (before : Option NodeId) : Prop
    extends Moved t t' c (some p) where
  children : ∀ x, t'.children x =
    if x = p then insertedAt before c ((t.children x).erase c) else (t.children x).erase c

theorem shifted_insertAt {t : Tree} {c p : NodeId} (h : Linked t)
    (hp : p < t.size) (hc : c < t.size)
    (before : Option NodeId) : Shifted t (t.insertAt p before c) c p before := by
  refine ⟨moved_insertAt h hp hc before, fun x => ?_⟩
  have hdetach : ∀ x, (t.detach c).children x = (t.children x).erase c := fun x =>
    children_detach c x h
  cases before with
  | none =>
    simp only [insertAt, insertedAt, children_appendChild hp, hdetach]
    by_cases hx : x = p <;> simp [hx]
  | some r =>
    by_cases hr : r ∈ (t.detach c).children p
    · simp only [insertAt, insertedAt, children_insertBefore hr hp]
      rw [hdetach] at hr
      by_cases hx : x = p <;> simp [hx, hr, hdetach]
    · -- the node is detached twice
      have happ : t.insertAt p (some r) c = (t.detach c).appendChild p c := by
        simp [insertAt, insertBefore, hr]
      have hnot : c ∉ (t.detach c).children x := by
        rw [hdetach]
        exact fun hm => ((h.nodup x).mem_erase_iff.1 hm).1 rfl
      rw [hdetach] at hr hnot
      have hagain : ∀ y, ((t.detach c).detach c).children y = ((t.children y).erase c).erase c := by
        intro y
        rw [children_detach c y (h.detach c), hdetach]
      rw [happ, children_appendChild (by simpa using hp)]
      simp only [insertedAt, hagain]
      by_cases hx : x = p
      · subst hx
        rw [if_pos rfl, if_pos rfl, if_neg hr, List.erase_of_not_mem hnot]
      · rw [if_neg hx, if_neg hx, List.erase_of_not_mem hnot]

/-! ## 4. The skeleton -/

/-- The children of a node that are of some kind, in order. -/
def select (t : Tree) (kind : NodeData → Bool) (parent : NodeId) : List NodeId :=
  (t.children parent).filter fun x => (t.data? x).any kind

def firstElement? (t : Tree) (parent : NodeId) : Option NodeId :=
  (t.select NodeData.isElement parent).head?

/-- The children of the document element that are of some kind. -/
def inHtml (t : Tree) (kind : NodeData → Bool) : List NodeId :=
  match t.documentElement? with
  | some html => t.select kind html
  | none => []

end Tree

/-- The nodes that the top of a document is made of. -/
structure Skeleton where
  /-- What the document holds besides comments. -/
  content : List NodeId
  doctypes : List NodeId
  /-- The document element. -/
  html : Option NodeId
  /-- The first element in the document element. -/
  first : Option NodeId
  heads : List NodeId
  /-- The bodies and framesets in the document element. -/
  bodies : List NodeId
deriving DecidableEq

def Tree.skeleton (t : Tree) : Skeleton where
  content := t.select (!·.isComment) Tree.root
  doctypes := t.select NodeData.isDoctype Tree.root
  html := t.documentElement?
  first := (t.inHtml NodeData.isElement).head?
  heads := t.inHtml (NodeData.isHtmlOf ["head"])
  bodies := t.inHtml (NodeData.isHtmlOf ["body", "frameset"])

namespace Tree

section Views

variable {t : Tree} {x r : NodeId} {names : List String} {kind : NodeData → Bool}

theorem any_isElement : (t.data? x).any NodeData.isElement = (t.element? x).isSome := by
  unfold element?
  cases t.data? x with
  | none => rfl
  | some d => cases d <;> rfl

theorem any_isHtmlOf :
    (t.data? x).any (NodeData.isHtmlOf names) = (t.element? x).any fun e => e.isHtmlOf names := by
  unfold element?
  cases t.data? x with
  | none => rfl
  | some d => cases d <;> rfl

theorem documentElement?_eq : t.documentElement? = t.firstElement? root := by
  simp only [documentElement?, firstElement?, select, List.head?_filter, any_isElement]

theorem childOfDocumentElement?_eq :
    t.childOfDocumentElement? names = (t.inHtml (NodeData.isHtmlOf names)).head? := by
  unfold childOfDocumentElement? inHtml
  cases t.documentElement? with
  | none => rfl
  | some html => simp only [select, List.head?_filter, any_isHtmlOf]

theorem inHtml_eq (h : t.documentElement? = some r) : t.inHtml kind = t.select kind r := by
  rw [inHtml, h]

theorem inHtml_eq_nil (h : t.documentElement? = none) : t.inHtml kind = [] := by
  rw [inHtml, h]

theorem mem_select : x ∈ t.select kind r ↔ x ∈ t.children r ∧ (t.data? x).any kind = true :=
  List.mem_filter

theorem mem_inHtml :
    x ∈ t.inHtml kind ↔ ∃ r, t.documentElement? = some r ∧ x ∈ t.select kind r := by
  unfold inHtml
  cases t.documentElement? <;> simp

theorem any_isHtmlOf_iff :
    (t.data? x).any (NodeData.isHtmlOf names) = true ↔
      ∃ name ∈ names, t.label? x = some (.html, name) := by
  rw [any_isHtmlOf, label?]
  cases t.element? x <;> simp [Element.isHtmlOf, and_comm]

theorem any_isElement_of_label {l : Namespace × String} (h : t.label? x = some l) :
    (t.data? x).any NodeData.isElement = true := by
  obtain ⟨e, he, -⟩ := exists_element_of_label h
  rw [any_isElement, he]
  rfl

theorem any_of_label {l : Namespace × String} (h : t.label? x = some l) :
    (t.data? x).any (!·.isComment) = true ∧ (t.data? x).any NodeData.isDoctype = false := by
  obtain ⟨e, he, -⟩ := exists_element_of_label h
  rw [element?_eq_some.1 he]
  exact ⟨rfl, rfl⟩

theorem mem_bodies : x ∈ t.skeleton.bodies ↔ ∃ r, t.documentElement? = some r ∧ x ∈ t.children r ∧
    ∃ name ∈ ["body", "frameset"], t.label? x = some (.html, name) := by
  change x ∈ t.inHtml _ ↔ _
  simp only [mem_inHtml, mem_select, any_isHtmlOf_iff]

theorem documentElement?_mem (h : t.documentElement? = some r) :
    r ∈ t.children root ∧ (t.data? r).any NodeData.isElement = true := by
  rw [documentElement?_eq] at h
  exact mem_select.1 (List.mem_of_head? h)

end Views

/-! ## 5. Changes that leave the skeleton alone -/

section Same

variable {t t' : Tree}

theorem select_congr {kind : NodeData → Bool} {x : NodeId}
    (hchildren : t'.children x = t.children x)
    (hdata : ∀ y ∈ t.children x, (t'.data? y).any kind = (t.data? y).any kind) :
    t'.select kind x = t.select kind x := by
  rw [select, select, hchildren]
  exact List.filter_congr hdata

/-- The kinds of nodes that the document is searched for. -/
def documentKinds : List (NodeData → Bool) :=
  [(!·.isComment), NodeData.isDoctype, NodeData.isElement]

/-- The kinds of nodes that the document element is searched for. -/
def htmlKinds : List (NodeData → Bool) :=
  [NodeData.isHtmlOf ["head"], NodeData.isHtmlOf ["body", "frameset"]]

theorem skeleton_congr
    (hdocument : ∀ kind ∈ documentKinds, t'.select kind root = t.select kind root)
    (hhtml : ∀ r, t.documentElement? = some r → t'.firstElement? r = t.firstElement? r ∧
      ∀ kind ∈ htmlKinds, t'.select kind r = t.select kind r) : t'.skeleton = t.skeleton := by
  have hroot : t'.documentElement? = t.documentElement? := by
    rw [documentElement?_eq, documentElement?_eq, firstElement?, firstElement?,
      hdocument _ (by simp [documentKinds])]
  have hcontent := hdocument (!·.isComment) (by simp [documentKinds])
  have hdoctypes := hdocument NodeData.isDoctype (by simp [documentKinds])
  cases hr : t.documentElement? with
  | none => simp only [skeleton, hroot, hr, hcontent, hdoctypes, inHtml]
  | some r =>
    obtain ⟨hfirst, hkinds⟩ := hhtml r hr
    have hheads := hkinds (NodeData.isHtmlOf ["head"]) (by simp [htmlKinds])
    have hbodies := hkinds (NodeData.isHtmlOf ["body", "frameset"]) (by simp [htmlKinds])
    unfold firstElement? at hfirst
    simp only [skeleton, hroot, hr, hcontent, hdoctypes, inHtml, hfirst, hheads, hbodies]

/-- The kinds can be told from the shape of a node. -/
theorem any_kind_of_shape {kind : NodeData → Bool} (hk : kind ∈ documentKinds ++ htmlKinds)
    {d d' : Option NodeData} (hshape : d'.map (·.shape) = d.map (·.shape)) :
    d'.any kind = d.any kind := by
  have hkind : ∀ d, kind d.shape = kind d := by
    intro d
    simp only [documentKinds, htmlKinds, List.cons_append, List.nil_append, List.mem_cons,
      List.not_mem_nil, or_false] at hk
    rcases hk with rfl | rfl | rfl | rfl | rfl <;> cases d <;> rfl
  have hany : ∀ d : Option NodeData, d.any kind = (d.map (·.shape)).any kind := by
    intro d
    cases d with
    | none => rfl
    | some d => exact (hkind d).symm
  rw [hany, hany d, hshape]

/-- The order of children, and the shape of what is in the tree, is all that matters. -/
theorem skeleton_of_shape (h : Linked t) (hchildren : ∀ x, t'.children x = t.children x)
    (hshape : ∀ x, x < t.size → (t'.data? x).map (·.shape) = (t.data? x).map (·.shape)) :
    t'.skeleton = t.skeleton := by
  have hselect : ∀ kind ∈ documentKinds ++ htmlKinds, ∀ x, t'.select kind x = t.select kind x := by
    refine fun kind hk x => select_congr (hchildren x) fun y hy =>
      any_kind_of_shape hk (hshape y ?_)
    exact lt_size_of_parent? ((h.mem_children x y).1 hy)
  refine skeleton_congr (fun kind hk => hselect kind (List.mem_append_left _ hk) _) fun r _ =>
    ⟨?_, ?_⟩
  · rw [firstElement?, firstElement?, hselect _ (by simp [documentKinds])]
  · exact fun kind hk => hselect kind (List.mem_append_right _ hk) r

theorem Grown.skeleton {id : NodeId} (h : Linked t) (g : Grown t t' id) :
    t'.skeleton = t.skeleton :=
  skeleton_of_shape h g.children fun x hx => by rw [g.data x hx]

theorem SameShape.skeleton (h : Linked t) (s : SameShape t t') : t'.skeleton = t.skeleton :=
  skeleton_of_shape h s.children fun x _ => s.shape x

/-- Changes elsewhere do not matter. -/
theorem skeleton_of_elsewhere (hdata : ∀ x, t'.data? x = t.data? x)
    (hroot : t'.children root = t.children root)
    (hhtml : ∀ r, t.documentElement? = some r → t'.children r = t.children r) :
    t'.skeleton = t.skeleton := by
  have hselect : ∀ x, t'.children x = t.children x → ∀ kind, t'.select kind x = t.select kind x :=
    fun x hx kind => select_congr hx fun y _ => by rw [hdata]
  refine skeleton_congr (fun kind _ => hselect _ hroot kind) fun r hr => ⟨?_, fun kind _ => ?_⟩
  · rw [firstElement?, firstElement?, hselect r (hhtml r hr)]
  · exact hselect r (hhtml r hr) kind

end Same

/-! ## 6. Putting a node somewhere -/

namespace Shifted

variable {t t' : Tree} {c p x : NodeId} {before : Option NodeId} {kind : NodeData → Bool}
  (s : Shifted t t' c p before)
include s

/-- A node of another kind makes no difference. -/
theorem select (hc : (t.data? c).any kind = false) (x : NodeId) :
    t'.select kind x = t.select kind x := by
  simp only [Tree.select, s.data, s.children]
  split
  · rw [filter_insertedAt hc, filter_erase hc]
  · exact filter_erase hc

/-- Nor does a node that is put from one other place to another. -/
theorem select_of_ne (hx : x ≠ p) (hc : c ∉ t.children x) : t'.select kind x = t.select kind x := by
  refine select_congr ?_ fun y _ => by rw [s.data]
  rw [s.children, if_neg hx, List.erase_of_not_mem hc]

theorem firstElement? {a : NodeId} (h : t.firstElement? x = some a) (hne : a ≠ c)
    (hbefore : x = p → ∀ r, before = some r → (t.data? r).any NodeData.isElement = true ∧ r ≠ a) :
    t'.firstElement? x = some a := by
  simp only [Tree.firstElement?, Tree.select, List.head?_filter, s.data, s.children] at h ⊢
  split
  · next hx => exact find?_insertedAt (find?_erase h hne) (hbefore hx)
  · exact find?_erase h hne

/-- A comment is in no skeleton. -/
theorem skeleton_comment {text : String} (hc : t.data? c = some (.comment text)) :
    t'.skeleton = t.skeleton := by
  have hkind : ∀ kind ∈ documentKinds ++ htmlKinds, (t.data? c).any kind = false := by
    rw [hc]
    intro kind hk
    simp only [documentKinds, htmlKinds, List.cons_append, List.nil_append, List.mem_cons,
      List.not_mem_nil, or_false] at hk
    rcases hk with rfl | rfl | rfl | rfl | rfl <;> rfl
  refine skeleton_congr (fun kind hk => s.select (hkind kind (List.mem_append_left _ hk)) _)
    fun r _ =>
    ⟨?_, fun kind hk => s.select (hkind kind (List.mem_append_right _ hk)) r⟩
  rw [Tree.firstElement?, Tree.firstElement?, s.select (hkind _ (by simp [documentKinds]))]

/-- A text is in no skeleton unless it is put into the document itself. -/
theorem skeleton_text {text : String} (hc : t.data? c = some (.text text)) (hp : p ≠ root)
    (hroot : c ∉ t.children root) : t'.skeleton = t.skeleton := by
  have hkind : ∀ kind ∈ NodeData.isElement :: htmlKinds, (t.data? c).any kind = false := by
    rw [hc]
    intro kind hk
    simp only [htmlKinds, List.mem_cons, List.not_mem_nil, or_false] at hk
    rcases hk with rfl | rfl | rfl <;> rfl
  refine skeleton_congr (fun kind _ => s.select_of_ne (Ne.symm hp) hroot) fun r _ =>
    ⟨?_, fun kind hk => s.select (hkind kind (List.mem_cons_of_mem _ hk)) r⟩
  rw [Tree.firstElement?, Tree.firstElement?, s.select (hkind _ (by simp))]

/-- What is put at the end is the last of its kind. -/
theorem select_self (hbefore : before = none) (hc : c ∉ t.children p) :
    t'.select kind p = t.select kind p ++ if (t.data? c).any kind then [c] else [] := by
  simp only [Tree.select, s.data, s.children, if_pos, List.erase_of_not_mem hc, hbefore, insertedAt,
    List.filter_append, List.filter_cons, List.filter_nil]

end Shifted

/-! ## 7. Upright trees -/

/-- The elements that a skeleton is made of. -/
def outerLabels : List (Namespace × String) :=
  [(.html, "html"), (.html, "head"), (.html, "body"), (.html, "frameset")]

end Tree

/-- The skeleton is right so far, and `head` is the head if there is one. -/
structure Skeleton.SingleParts (s : Skeleton) (head : Option NodeId) : Prop where
  content : s.content = s.doctypes ++ s.html.toList
  doctypes : s.doctypes.length ≤ 1
  first : s.first = head
  heads : s.heads = head.toList
  bodies : s.bodies.length ≤ 1

namespace Tree

/-- The skeleton is singleParts, and the document element is an HTML element of that name. -/
structure Upright (t : Tree) (head : Option NodeId) : Prop where
  singleParts : t.skeleton.SingleParts head
  html : ∀ r, t.documentElement? = some r → t.label? r = some (.html, "html")

theorem skeleton_empty : Tree.empty.skeleton = ⟨[], [], none, none, [], []⟩ := by decide

namespace Upright

protected theorem empty : Upright Tree.empty none := by
  refine ⟨?_, fun r hr => ?_⟩
  · rw [skeleton_empty]
    exact ⟨rfl, Nat.zero_le 1, rfl, rfl, Nat.zero_le 1⟩
  · have hnone : Tree.empty.documentElement? = none := congrArg Skeleton.html skeleton_empty
    rw [hnone] at hr
    cases hr

variable {t t' : Tree} {head : Option NodeId} {x c p r : NodeId} {l : Namespace × String}

theorem keeps (u : Upright t head) (hs : t'.skeleton = t.skeleton) (hk : t.Keeps t') :
    Upright t' head := by
  have hhtml : t'.documentElement? = t.documentElement? := congrArg Skeleton.html hs
  exact ⟨hs ▸ u.singleParts, fun r hr => hk r _ (u.html r (hhtml ▸ hr))⟩

/-- The only element in the document is the document element. -/
theorem eq_html (u : Upright t head) (hx : x ∈ t.children root) (hl : t.label? x = some l) :
    t.documentElement? = some x := by
  obtain ⟨hcontent, hdoctype⟩ := any_of_label hl
  have hmem : x ∈ t.skeleton.content := mem_select.2 ⟨hx, hcontent⟩
  rw [u.singleParts.content, List.mem_append] at hmem
  refine hmem.elim (fun hd => ?_) Option.mem_toList.1
  rw [(mem_select.1 hd).2] at hdoctype
  cases hdoctype

theorem not_mem_root (u : Upright t head) (hl : t.label? x = some l) (hne : l ≠ (.html, "html")) :
    x ∉ t.children root := by
  intro hx
  have hhtml := u.html x (u.eq_html hx hl)
  rw [hl] at hhtml
  exact hne (Option.some.inj hhtml)

theorem firstElement?_eq (u : Upright t head) (hr : t.documentElement? = some r) :
    t.firstElement? r = head := by
  have hfirst := u.singleParts.first
  change (t.inHtml _).head? = head at hfirst
  rwa [inHtml_eq hr] at hfirst

theorem head_mem {h : NodeId} (u : Upright t head) (hhead : head = some h) :
    t.label? h = some (.html, "head") ∧
      ∃ r, t.documentElement? = some r ∧ t.firstElement? r = some h := by
  have hmem : h ∈ t.skeleton.heads := by rw [u.singleParts.heads, hhead]; simp
  obtain ⟨r, hr, hmem⟩ := mem_inHtml.1 hmem
  have hl := any_isHtmlOf_iff.1 (mem_select.1 hmem).2
  exact ⟨by simpa using hl, r, hr, (u.firstElement?_eq hr).trans hhead⟩

theorem any_of_not_outer (hl : t.label? c = some l) (hout : l ∉ outerLabels) :
    ∀ kind ∈ htmlKinds, (t.data? c).any kind = false := by
  intro kind hk
  rw [Bool.eq_false_iff]
  simp only [htmlKinds, List.mem_cons, List.not_mem_nil, or_false] at hk
  rcases hk with rfl | rfl
  all_goals
    rw [Ne, any_isHtmlOf_iff, hl]
    rintro ⟨name, hname, heq⟩
    cases heq
    revert hout
    simp only [List.mem_cons, List.not_mem_nil, or_false] at hname
    rcases hname with rfl | rfl <;> simp [outerLabels]

/-- An element that is no part of the skeleton may be moved anywhere below the document element, if
the head is there and stays the first element. -/
theorem skeleton_element {before : Option NodeId} (u : Upright t head)
    (s : Shifted t t' c p before) (hl : t.label? c = some l) (hout : l ∉ outerLabels)
    (hp : p ≠ root) (hhead : head.isSome ∨ t.documentElement? ≠ some p)
    (hbefore : ∀ r, before = some r → t.label? r = some (.html, "table")) :
    t'.skeleton = t.skeleton := by
  have hnot : c ∉ t.children root := u.not_mem_root hl fun he => hout (he ▸ by decide)
  refine skeleton_congr (fun kind _ => s.select_of_ne (Ne.symm hp) hnot)
    fun r hr => ⟨?_, fun kind hk => s.select (any_of_not_outer hl hout kind hk) r⟩
  have hfirst := u.firstElement?_eq hr
  cases hseen : head with
  | some h =>
    obtain ⟨hlabel, -⟩ := u.head_mem hseen
    rw [hseen] at hfirst
    rw [hfirst]
    refine s.firstElement? hfirst ?_ fun _ ref href =>
      ⟨any_isElement_of_label (hbefore ref href), ?_⟩
    · rintro rfl
      rw [hlabel] at hl
      cases hl
      exact hout (by simp [outerLabels])
    · rintro rfl
      have htable := hbefore ref href
      rw [hlabel] at htable
      simp at htable
  | none =>
    -- nothing is in the document element yet, and nothing gets there
    have hne : r ≠ p := by
      rintro rfl
      exact hhead.elim (by simp [hseen]) (absurd hr)
    have hnot : c ∉ t.children r := by
      intro hc
      have hmem : c ∈ t.select NodeData.isElement r := mem_select.2 ⟨hc, any_isElement_of_label hl⟩
      rw [hseen, Tree.firstElement?, List.head?_eq_none_iff] at hfirst
      rw [hfirst] at hmem
      cases hmem
    rw [Tree.firstElement?, Tree.firstElement?, s.select_of_ne hne hnot]

end Upright

/-! ## 8. Changes of the skeleton -/

end Tree

namespace Skeleton.SingleParts

variable {s : Skeleton} {k : Option NodeId}

/-- A document type may come while the document holds nothing but comments. -/
theorem doctype (r : s.SingleParts k) (hnone : s.content = []) (id : NodeId) :
    s.html = none ∧ { s with
      content := s.content ++ [id], doctypes := s.doctypes ++ [id] : Skeleton }.SingleParts k := by
  have hcontent := r.content
  rw [hnone] at hcontent
  obtain ⟨hdoctypes, hhtml⟩ := List.append_eq_nil_iff.1 hcontent.symm
  have hhtml : s.html = none := by simpa using hhtml
  refine ⟨hhtml, ⟨?_, ?_, r.first, r.heads, r.bodies⟩⟩
  · simp [hnone, hdoctypes, hhtml]
  · simp [hdoctypes]

theorem html (r : s.SingleParts k) (hnone : s.html = none) (id : NodeId) :
    { s with content := s.content ++ [id], html := some id : Skeleton }.SingleParts k := by
  refine ⟨?_, r.doctypes, r.first, r.heads, r.bodies⟩
  simp [r.content, hnone]

theorem head (r : s.SingleParts none) (id : NodeId) : { s with
    first := s.first.or (some id), heads := s.heads ++ [id] : Skeleton }.SingleParts (some id) := by
  refine ⟨r.content, r.doctypes, ?_, ?_, r.bodies⟩
  · simp [r.first]
  · simp [r.heads]

theorem body {h : NodeId} (r : s.SingleParts (some h)) (hnone : s.bodies = []) (id : NodeId) :
    { s with
      first := s.first.or (some id)
      bodies := s.bodies ++ [id] : Skeleton }.SingleParts (some h) := by
  refine ⟨r.content, r.doctypes, ?_, r.heads, ?_⟩
  · simp [r.first]
  · simp [hnone]

theorem detach (r : s.SingleParts k) : { s with bodies := [] : Skeleton }.SingleParts k :=
  ⟨r.content, r.doctypes, r.first, r.heads, Nat.zero_le 1⟩

end Skeleton.SingleParts

namespace Tree

section Change

variable {t t' : Tree} {head : Option NodeId} {c p : NodeId}

theorem skeleton_eq {s : Skeleton} (hcontent : t.select (!·.isComment) root = s.content)
    (hdoctypes : t.select NodeData.isDoctype root = s.doctypes)
    (hhtml : t.documentElement? = s.html) (hfirst : (t.inHtml NodeData.isElement).head? = s.first)
    (hheads : t.inHtml (NodeData.isHtmlOf ["head"]) = s.heads)
    (hbodies : t.inHtml (NodeData.isHtmlOf ["body", "frameset"]) = s.bodies) : t.skeleton = s := by
  rw [skeleton, hcontent, hdoctypes, hhtml, hfirst, hheads, hbodies]

/-- A document type is put at the end of the document. -/
theorem Shifted.skeleton_doctype {name publicId systemId : String} (s : Shifted t t' c root none)
    (hnot : c ∉ t.children root) (hc : t.data? c = some (.doctype name publicId systemId)) :
    t'.skeleton = { t.skeleton with
      content := t.skeleton.content ++ [c], doctypes := t.skeleton.doctypes ++ [c] } := by
  have hroot : ∀ kind, t'.select kind root =
      t.select kind root ++ if (t.data? c).any kind then [c] else [] :=
    fun kind => s.select_self rfl hnot
  -- a document type is no element, so no other selection sees it
  have hother : ∀ kind, kind ∈ NodeData.isElement :: htmlKinds →
      ∀ x, t'.select kind x = t.select kind x := by
    intro kind hk
    refine s.select ?_
    rw [hc]
    simp only [htmlKinds, List.mem_cons, List.not_mem_nil, or_false] at hk
    rcases hk with rfl | rfl | rfl <;> rfl
  have hhtml : t'.documentElement? = t.documentElement? := by
    rw [documentElement?_eq, documentElement?_eq, Tree.firstElement?, Tree.firstElement?,
      hother _ (by simp)]
  have hinner : ∀ kind, kind ∈ NodeData.isElement :: htmlKinds →
      t'.inHtml kind = t.inHtml kind := by
    intro kind hk
    cases hr : t.documentElement? with
    | none => rw [inHtml_eq_nil hr, inHtml_eq_nil (hhtml.trans hr)]
    | some r => rw [inHtml_eq hr, inHtml_eq (hhtml.trans hr), hother kind hk]
  refine skeleton_eq ?_ ?_ hhtml (congrArg List.head? (hinner _ (by simp)))
    (hinner _ (by simp [htmlKinds])) (hinner _ (by simp [htmlKinds]))
  · rw [hroot, hc]
    rfl
  · rw [hroot, hc]
    rfl

/-- The document element is put at the end of the document, and holds nothing. -/
theorem Shifted.skeleton_html {l : Namespace × String} (s : Shifted t t' c root none)
    (hnone : t.documentElement? = none) (hnot : c ∉ t.children root) (hroot : c ≠ root)
    (hempty : t.children c = []) (hc : t.label? c = some l) :
    t'.skeleton = { t.skeleton with content := t.skeleton.content ++ [c], html := some c } := by
  have hselect : ∀ kind, t'.select kind root =
      t.select kind root ++ if (t.data? c).any kind then [c] else [] :=
    fun kind => s.select_self rfl hnot
  obtain ⟨hcontent, hdoctype⟩ := any_of_label hc
  have hhtml : t'.documentElement? = some c := by
    rw [documentElement?_eq, Tree.firstElement?, List.head?_eq_none_iff] at hnone
    rw [documentElement?_eq, Tree.firstElement?, hselect, hnone, if_pos (any_isElement_of_label hc)]
    rfl
  have hinner : ∀ kind, t'.inHtml kind = t.inHtml kind := by
    intro kind
    rw [inHtml_eq hhtml, inHtml_eq_nil hnone, Tree.select, s.children, if_neg hroot, hempty]
    rfl
  refine skeleton_eq ?_ ?_ hhtml (congrArg List.head? (hinner _)) (hinner _) (hinner _)
  · rw [hselect, if_pos hcontent]
    rfl
  · rw [hselect, hdoctype]
    exact List.append_nil _

/-- An element is put at the end of the document element. -/
theorem Shifted.skeleton_append {name : String} (s : Shifted t t' c p none)
    (hr : t.documentElement? = some p) (hp : p ≠ root) (hnot : c ∉ t.children root)
    (hnot' : c ∉ t.children p) (hc : t.label? c = some (.html, name)) :
    t'.skeleton = { t.skeleton with
      first := t.skeleton.first.or (some c)
      heads := t.skeleton.heads ++ if name = "head" then [c] else []
      bodies := t.skeleton.bodies ++ if name = "body" ∨ name = "frameset" then [c] else [] } := by
  -- the document itself keeps its children, and the document element is the same
  have hselect : ∀ kind, t'.select kind root = t.select kind root :=
    fun kind => s.select_of_ne (Ne.symm hp) hnot
  have hhtml : t'.documentElement? = t.documentElement? := by
    rw [documentElement?_eq, documentElement?_eq, Tree.firstElement?, Tree.firstElement?, hselect]
  have hinner : ∀ kind, t'.inHtml kind =
      t.inHtml kind ++ if (t.data? c).any kind then [c] else [] := by
    intro kind
    rw [inHtml_eq (hhtml.trans hr), inHtml_eq hr, s.select_self rfl hnot']
  have hnames : ∀ names, (t.data? c).any (NodeData.isHtmlOf names) = true ↔ name ∈ names := by
    intro names
    rw [any_isHtmlOf_iff, hc]
    simp
  refine skeleton_eq (hselect _) (hselect _) hhtml ?_ ?_ ?_
  · rw [hinner, if_pos (any_isElement_of_label hc), List.head?_append]
    rfl
  · rw [hinner]
    simp only [hnames, List.mem_singleton]
    rfl
  · rw [hinner]
    simp only [hnames, List.mem_cons, List.not_mem_nil, or_false]
    rfl

theorem select_detach (h : Linked t) (kind : NodeData → Bool) (x : NodeId) :
    (t.detach c).select kind x = (t.select kind x).erase c := by
  simp only [Tree.select, children_detach c x h, data?_detach, List.erase_filter]

/-- A node that is in the document element, or elsewhere below it, is taken out. -/
theorem skeleton_detach (h : Linked t) (hc : c ∉ t.children root) :
    (t.detach c).skeleton = { t.skeleton with
      first := ((t.inHtml NodeData.isElement).erase c).head?
      heads := t.skeleton.heads.erase c
      bodies := t.skeleton.bodies.erase c } := by
  have hselect : ∀ kind, (t.detach c).select kind root = t.select kind root := fun kind => by
    rw [select_detach h, List.erase_of_not_mem fun hm => hc (mem_select.1 hm).1]
  have hhtml : (t.detach c).documentElement? = t.documentElement? := by
    rw [documentElement?_eq, documentElement?_eq, Tree.firstElement?, Tree.firstElement?, hselect]
  have hinner : ∀ kind, (t.detach c).inHtml kind = (t.inHtml kind).erase c := by
    intro kind
    cases hr : t.documentElement? with
    | none =>
      rw [inHtml_eq_nil (hhtml.trans hr), inHtml_eq_nil hr]
      rfl
    | some r => rw [inHtml_eq (hhtml.trans hr), inHtml_eq hr, select_detach h]
  exact skeleton_eq (hselect _) (hselect _) hhtml (congrArg List.head? (hinner _)) (hinner _)
    (hinner _)

/-- The body, or the frameset in its place, is taken out again. -/
theorem skeleton_detach_body (h : Linked t) (u : Upright t head) (hc : c ∈ t.skeleton.bodies) :
    (t.detach c).skeleton = { t.skeleton with bodies := [] } := by
  obtain ⟨r, -, -, name, hname, hl⟩ := mem_bodies.1 hc
  have hne : name ≠ "html" ∧ name ≠ "head" := by
    simp only [List.mem_cons, List.not_mem_nil, or_false] at hname
    rcases hname with rfl | rfl <;> simp
  have hnot : c ∉ t.children root := u.not_mem_root hl (by simp [hne.1])
  have hhead : head ≠ some c := by
    intro hhead
    have hlabel := (u.head_mem hhead).1
    rw [hl] at hlabel
    exact hne.2 (Prod.ext_iff.1 (Option.some.inj hlabel)).2
  have hheads : t.skeleton.heads.erase c = t.skeleton.heads := by
    refine List.erase_of_not_mem fun hm => hhead ?_
    rwa [u.singleParts.heads, Option.mem_toList] at hm
  have hfirst : ((t.inHtml NodeData.isElement).erase c).head? = t.skeleton.first := by
    have hfirst : (t.inHtml NodeData.isElement).head? = head := u.singleParts.first
    rw [u.singleParts.first]
    cases hk : head with
    | none =>
      rw [hk, List.head?_eq_none_iff] at hfirst
      rw [hfirst]
      rfl
    | some k => exact head?_erase (hfirst.trans hk) (by rintro rfl; exact hhead hk)
  have hbodies : t.skeleton.bodies.erase c = [] := by
    -- there is only one of them
    obtain ⟨y, hy⟩ := List.length_eq_one_iff.1
      (Nat.le_antisymm u.singleParts.bodies (List.length_pos_of_mem hc))
    rw [hy, List.mem_singleton] at hc
    rw [hy, hc, List.erase_cons_head]
  rw [skeleton_detach h hnot, hfirst, hheads, hbodies]

end Change

/-! ## 9. New nodes -/

/-- `t'` is `t` with a new node `id`, put into `p` before `before`. -/
structure Put (t t' : Tree) (id p : NodeId) (before : Option NodeId) : Prop where
  exists_grown : ∃ grown, Grown t grown id ∧ Shifted grown t' id p before

theorem put_insertAt {t grown : Tree} {id p : NodeId} (g : Grown t grown id) (hp : p < t.size)
    (before : Option NodeId) : Put t (grown.insertAt p before id) id p before :=
  ⟨grown, g, shifted_insertAt g.linked (Nat.lt_of_lt_of_le hp g.size_le) g.lt before⟩

/-- A new node without contents is put somewhere, and keeps its data there. -/
theorem put_alloc {t : Tree} {p : NodeId} (h : Forest t) (hp : p < t.size) (data : NodeData)
    (hd : data ≠ .fragment ∧ ∀ e, data ≠ .element e) (before : Option NodeId) :
    Put t ((t.alloc data).2.insertAt p before t.size) t.size p before ∧
      ((t.alloc data).2.insertAt p before t.size).data? t.size = some data := by
  have g := Grown.alloc h hd.1 fun e he => absurd he (hd.2 e)
  have m := moved_insertAt g.linked (Nat.lt_of_lt_of_le hp g.size_le) g.lt before
  exact ⟨put_insertAt g hp before, by rw [m.data, data?_alloc, if_pos rfl]⟩

theorem Grown.not_mem_children {t grown : Tree} {id : NodeId} (g : Grown t grown id) (x : NodeId) :
    id ∉ grown.children x := by
  rw [g.linked.mem_children, g.parent, parent?_eq_none t id g.fresh]
  simp

namespace Put

variable {t t' : Tree} {id p : NodeId} {before : Option NodeId} {head : Option NodeId}
  {l : Namespace × String} (h : Forest t) (w : Put t t' id p before)
include h w

theorem sprout (hp : p < t.size) : Sprout t t' id p := by
  obtain ⟨grown, g, s⟩ := w.exists_grown
  exact g.sprout h s.toMoved hp

theorem skeleton_comment {text : String} (hc : t'.data? id = some (.comment text)) :
    t'.skeleton = t.skeleton := by
  obtain ⟨grown, g, s⟩ := w.exists_grown
  rw [s.skeleton_comment ((s.data id).symm.trans hc), g.skeleton h.linked]

theorem skeleton_text {text : String} (hc : t'.data? id = some (.text text)) (hp : p ≠ root) :
    t'.skeleton = t.skeleton := by
  obtain ⟨grown, g, s⟩ := w.exists_grown
  rw [s.skeleton_text ((s.data id).symm.trans hc) hp (g.not_mem_children root), g.skeleton h.linked]

/-- An element that is no part of the skeleton may be put below the document element once the
head is there. -/
theorem skeleton_element (u : Upright t head) (hl : t'.label? id = some l) (hout : l ∉ outerLabels)
    (hp : p ≠ root) (hhead : head.isSome ∨ t.documentElement? ≠ some p)
    (hbefore : ∀ r, before = some r → t.label? r = some (.html, "table")) :
    t'.skeleton = t.skeleton := by
  obtain ⟨grown, g, s⟩ := w.exists_grown
  have hs := g.skeleton h.linked
  have hhtml : grown.documentElement? = t.documentElement? := congrArg Skeleton.html hs
  rw [← hs]
  exact (u.keeps hs g.keeps).skeleton_element s ((label?_congr (s.data id)).symm.trans hl) hout hp
    (hhtml ▸ hhead) fun r hr => g.keeps r _ (hbefore r hr)

/-- Any element may be put deeper. -/
theorem skeleton_elsewhere (hp : p ≠ root) (hne : t.documentElement? ≠ some p) :
    t'.skeleton = t.skeleton := by
  obtain ⟨grown, g, s⟩ := w.exists_grown
  have hs := g.skeleton h.linked
  have hhtml : grown.documentElement? = t.documentElement? := congrArg Skeleton.html hs
  have hchildren : ∀ x, x ≠ p → t'.children x = grown.children x := fun x hx => by
    rw [s.children, if_neg hx, List.erase_of_not_mem (g.not_mem_children x)]
  rw [← hs]
  refine skeleton_of_elsewhere s.data (hchildren root (Ne.symm hp)) fun r hr => hchildren r ?_
  rintro rfl
  exact hne (hhtml.symm.trans hr)

end Put

theorem skeleton_insertText {t : Tree} {p : NodeId} (h : Forest t)
    (hp : p < t.size) (hne : p ≠ root) (before : Option NodeId) (text : String) :
    (t.insertText p before text).2.skeleton = t.skeleton := by
  obtain ⟨prev, old, -, hold, heq⟩ | ⟨-, heq⟩ := insertText_cases t p before text
  · rw [heq]
    exact (sameShape_setText h.linked hold).skeleton h.linked
  · obtain ⟨w, hdata⟩ := put_alloc h hp (.text text) (by simp) before
    rw [heq]
    exact w.skeleton_text h hdata hne

section Top

variable {t t' : Tree} {id p : NodeId} (h : Forest t)
include h

theorem Put.skeleton_doctype {name publicId systemId : String} (w : Put t t' id root none)
    (hc : t'.data? id = some (.doctype name publicId systemId)) :
    t'.skeleton = { t.skeleton with
      content := t.skeleton.content ++ [id], doctypes := t.skeleton.doctypes ++ [id] } := by
  obtain ⟨grown, g, s⟩ := w.exists_grown
  rw [s.skeleton_doctype (g.not_mem_children root) ((s.data id).symm.trans hc), g.skeleton h.linked]

theorem Put.skeleton_html {l : Namespace × String} (w : Put t t' id root none)
    (hnone : t.documentElement? = none) (hl : t'.label? id = some l) :
    t'.skeleton = { t.skeleton with content := t.skeleton.content ++ [id], html := some id } := by
  obtain ⟨grown, g, s⟩ := w.exists_grown
  have hs := g.skeleton h.linked
  have hempty : grown.children id = [] := by
    rw [g.children, children_eq, get?_eq_none t id g.fresh]
    rfl
  have hroot : id ≠ root := by
    rintro rfl
    exact absurd h.root_lt (Nat.not_lt.2 g.fresh)
  rw [s.skeleton_html ((congrArg Skeleton.html hs).trans hnone) (g.not_mem_children root)
    hroot hempty ((label?_congr (s.data id)).symm.trans hl), hs]

theorem Put.skeleton_append {name : String} (w : Put t t' id p none)
    (hr : t.documentElement? = some p) (hp : p ≠ root) (hl : t'.label? id = some (.html, name)) :
    t'.skeleton = { t.skeleton with
      first := t.skeleton.first.or (some id)
      heads := t.skeleton.heads ++ if name = "head" then [id] else []
      bodies := t.skeleton.bodies ++ if name = "body" ∨ name = "frameset" then [id] else [] } := by
  obtain ⟨grown, g, s⟩ := w.exists_grown
  have hs := g.skeleton h.linked
  rw [s.skeleton_append ((congrArg Skeleton.html hs).trans hr) hp (g.not_mem_children root)
    (g.not_mem_children p) ((label?_congr (s.data id)).symm.trans hl), hs]

end Top

/-! ## 10. The body -/

/-- An outermost element of the document. -/
def Outer (t : Tree) (x : NodeId) : Prop :=
  t.label? x = some (.html, "html") ∧ t.parent? x = some root

/-- The node is a body in an outermost element of the document. -/
def Housed (t : Tree) (x : NodeId) : Prop :=
  t.label? x = some (.html, "body") ∧
    ∃ r, t.label? r = some (.html, "html") ∧ t.parent? x = some r ∧ t.parent? r = some root

section Housed

variable {t t' : Tree} {head : Option NodeId} {x : NodeId}

theorem Housed.extend (h : t.Housed x) (e : Extends t t') : t'.Housed x := by
  obtain ⟨hl, r, hr, hp, hrp⟩ := h
  refine ⟨e.keeps x _ hl, r, e.keeps r _ hr, ?_, ?_⟩
  · rw [e.parent x (lt_size_of_label? hl), hp]
  · rw [e.parent r (lt_size_of_label? hr), hrp]

theorem Upright.outer_iff (h : Linked t) (u : Upright t head) :
    t.Outer x ↔ t.documentElement? = some x := by
  constructor
  · rintro ⟨hl, hp⟩
    exact u.eq_html ((h.mem_children root x).2 hp) hl
  · intro hx
    exact ⟨u.html x hx, (h.mem_children root x).1 (documentElement?_mem hx).1⟩

theorem Upright.housed_iff (h : Linked t) (u : Upright t head) :
    t.Housed x ↔ x ∈ t.skeleton.bodies ∧ t.label? x = some (.html, "body") := by
  constructor
  · rintro ⟨hl, r, hr, hp, hrp⟩
    have hhtml := u.eq_html ((h.mem_children root r).2 hrp) hr
    exact ⟨mem_bodies.2 ⟨r, hhtml, (h.mem_children r x).2 hp, "body", by decide, hl⟩, hl⟩
  · rintro ⟨hx, hl⟩
    obtain ⟨r, hr, hchild, -⟩ := mem_bodies.1 hx
    exact ⟨hl, r, u.html r hr, (h.mem_children r x).1 hchild,
      (h.mem_children root r).1 (documentElement?_mem hr).1⟩

theorem body?_eq (t : Tree) : t.body? = t.skeleton.bodies.head? := childOfDocumentElement?_eq

/-- There is no other body. -/
theorem Upright.bodies_eq (u : Upright t head) (hx : x ∈ t.skeleton.bodies) :
    t.skeleton.bodies = [x] := by
  obtain ⟨y, hy⟩ := List.length_eq_one_iff.1
    (Nat.le_antisymm u.singleParts.bodies (List.length_pos_iff.2 (List.ne_nil_of_mem hx)))
  rw [hy, List.mem_singleton] at hx
  rw [hy, hx]

end Housed

end Tree

end Hypertext
