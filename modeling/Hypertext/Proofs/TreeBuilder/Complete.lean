import Hypertext.Proofs.TreeBuilder.Reachable

/-!
# Documents are complete

Whatever the input was, the document has its `html` element, its head and its body when tree
construction has stopped, each of them once and in that order: what is missing is made up, and no
tag, however often and wherever it comes, makes a second one.
-/

namespace Hypertext

open Hypertext.Tree

/-! ## 1. Complete documents -/

/-- Below the document stand comments, at most one document type and then the document element. It
is an HTML element, begins with the only head, and holds one body or frameset after it. -/
structure Tree.Complete (t : Tree) (html head body : NodeId) : Prop where
  content : ∃ doctype : Option NodeId,
    (t.children root).filter (fun x => !(t.data? x).any NodeData.isComment) =
      doctype.toList ++ [html] ∧
    ∀ d, doctype = some d → (t.data? d).any NodeData.isDoctype = true
  label : t.label? html = some (.html, "html")
  first : (t.children html).find? (fun x => (t.element? x).isSome) = some head
  heads : (t.children html).filter (fun x => t.label? x = some (.html, "head")) = [head]
  bodies : (t.children html).filter (fun x =>
    t.label? x = some (.html, "body") ∨ t.label? x = some (.html, "frameset")) = [body]
  order : [head, body].Sublist (t.children html)
  documentElement : t.documentElement? = some html
  headElement : t.head? = some head
  bodyElement : t.body? = some body

namespace Tree

variable {t : Tree} {seen : Option NodeId} {html head body : NodeId}

theorem select_not_comment (h : Linked t) (x : NodeId) :
    t.select (!·.isComment) x =
      (t.children x).filter fun y => !(t.data? y).any NodeData.isComment := by
  refine List.filter_congr fun y hy => ?_
  have hy := (h.mem_children x y).1 hy
  cases hd : t.data? y with
  | none =>
    rw [data?, Option.map_eq_none_iff] at hd
    rw [parent?, hd] at hy
    cases hy
  | some d => rfl

theorem select_isHtmlOf (names : List String) (x : NodeId) : t.select (NodeData.isHtmlOf names) x =
    (t.children x).filter fun y => ∃ name ∈ names, t.label? y = some (.html, name) := by
  refine List.filter_congr fun y _ => ?_
  rw [Bool.eq_iff_iff, any_isHtmlOf_iff, decide_eq_true_iff]

/-- Besides comments the document holds a document type, or none, and the document element. -/
theorem Upright.content (h : Linked t) (u : Upright t seen)
    (hhtml : t.documentElement? = some html) : ∃ doctype : Option NodeId,
      (t.children root).filter (fun x => !(t.data? x).any NodeData.isComment) =
        doctype.toList ++ [html] ∧
      ∀ d, doctype = some d → (t.data? d).any NodeData.isDoctype = true := by
  have hcontent : t.select (!·.isComment) root = t.skeleton.doctypes ++ t.documentElement?.toList :=
    u.singleParts.content
  rw [select_not_comment h, hhtml] at hcontent
  obtain ⟨doctype, hdoctype⟩ : ∃ doctype : Option NodeId, t.skeleton.doctypes = doctype.toList := by
    have hlength := u.singleParts.doctypes
    match hd : t.skeleton.doctypes with
    | [] => exact ⟨none, rfl⟩
    | [d] => exact ⟨some d, rfl⟩
    | d :: d' :: rest => simp [hd] at hlength
  rw [hdoctype] at hcontent
  refine ⟨doctype, hcontent, fun d hd => ?_⟩
  have hmem : d ∈ t.skeleton.doctypes := by rw [hdoctype, hd]; simp
  exact (mem_select.1 hmem).2

/-- The body comes after the head, which is the first of the elements. -/
theorem Upright.order (u : Upright t (some head)) (hhtml : t.documentElement? = some html)
    (hbody : body ∈ t.skeleton.bodies) : [head, body].Sublist (t.children html) := by
  obtain ⟨r, hr, hchild, name, hname, hl⟩ := mem_bodies.1 hbody
  obtain rfl : r = html := Option.some.inj (hr.symm.trans hhtml)
  obtain ⟨rest, hrest⟩ := List.head?_eq_some_iff.1 (u.firstElement?_eq hr)
  have helement : body ∈ t.select NodeData.isElement r :=
    mem_select.2 ⟨hchild, any_isElement_of_label hl⟩
  have hne : body ≠ head := by
    rintro rfl
    rw [(u.head_mem rfl).1] at hl
    cases hl
    simp at hname
  rw [hrest, List.mem_cons] at helement
  have hsub : [head, body].Sublist (t.select NodeData.isElement r) := by
    rw [hrest]
    exact (List.singleton_sublist.2 (helement.resolve_left hne)).cons_cons head
  exact hsub.trans List.filter_sublist

/-- An upright tree is complete as soon as it has a head and a body. -/
theorem Upright.complete (h : Linked t) (u : Upright t (some head))
    (hbodies : t.skeleton.bodies ≠ []) : ∃ html body, t.Complete html head body := by
  obtain ⟨-, html, hhtml, hfirst⟩ := u.head_mem rfl
  obtain ⟨body, hbody⟩ : ∃ body, t.skeleton.bodies = [body] :=
    List.length_eq_one_iff.1 (Nat.le_antisymm u.singleParts.bodies (List.length_pos_iff.2 hbodies))
  have horder := u.order hhtml (hbody ▸ List.mem_singleton_self body)
  have hheads := u.singleParts.heads
  change t.inHtml _ = _ at hbody hheads
  rw [inHtml_eq hhtml] at hbody hheads
  have hbodyElement : t.body? = some body := by
    rw [body?, childOfDocumentElement?_eq, inHtml_eq hhtml, hbody]
    rfl
  have hheadElement : t.head? = some head := by
    rw [head?, childOfDocumentElement?_eq, inHtml_eq hhtml, hheads]
    rfl
  simp only [select_isHtmlOf, List.mem_cons, List.not_mem_nil, or_false, exists_eq_or_imp,
    exists_eq_left, Option.toList_some] at hbody hheads
  simp only [Tree.firstElement?, Tree.select, any_isElement, List.head?_filter] at hfirst
  exact ⟨html, body, u.content h hhtml, u.html html hhtml, hfirst, hheads, hbody, horder, hhtml,
    hheadElement, hbodyElement⟩

end Tree

/-! ## 2. At the end of the input -/

namespace TreeBuilder

variable {b : TreeBuilder}

theorem Halted.complete (h : Halted b) : ∃ html head body, b.tree.Complete html head body := by
  obtain ⟨head, hhead⟩ := Option.isSome_iff_exists.1 h.head
  have hu := h.planted.upright
  rw [hhead] at hu
  obtain ⟨html, body, hc⟩ := hu.complete h.planted.forest.linked h.bodies
  exact ⟨html, head, body, hc⟩

/-- Whatever tokens have been fed, the document is complete once tree construction has stopped;
until then the end of the input makes it so. -/
theorem complete_of_reachable (h : Reachable b) :
    (b.stopped = true → ∃ html head body, b.tree.Complete html head body) ∧
    (b.stopped = false → ∀ t : PositionedToken, t.token = .endOfFile →
      ∃ b', b.process t = .ok b' ∧ b'.stopped = true ∧
        ∃ html head body, b'.tree.Complete html head body) := by
  refine ⟨fun hs => ?_, fun hs t ht => ?_⟩
  · refine (h.valid.resolve_left fun hspine => ?_).complete
    rw [hspine.running] at hs
    cases hs
  · obtain ⟨b', hb', hf⟩ := (h.spine hs).process t
    have hh := hf.halted ht
    exact ⟨b', hb', hh.stopped, hh.complete⟩

/-- A frameset takes the place of a body; the head, the body and the document element
come once more. -/
def misplaced : List Token :=
  [.comment "", .startTag { name := "p" }, .startTag { name := "frameset" },
    .startTag { name := "head" }, .startTag { name := "body" }, .startTag { name := "html" },
    .startTag { name := "frameset" }, .endTag { name := "html" }, .endOfFile]

theorem complete_misplaced : ∃ b html head body, feed {} misplaced = .ok b ∧ b.stopped = true ∧
    b.tree.Complete html head body ∧ b.tree.label? body = some (.html, "frameset") := by
  obtain ⟨b, hb, hs, hl⟩ := exists_ok (feed {} misplaced) (fun b => b.stopped = true ∧
    b.tree.body?.bind b.tree.label? = some (.html, "frameset")) (by with_unfolding_all decide)
  obtain ⟨html, head, body, hc⟩ := (complete_of_reachable (.feed (.start false false) hb)).1 hs
  rw [hc.bodyElement] at hl
  exact ⟨b, html, head, body, hb, hs, hc, hl⟩

end TreeBuilder

end Hypertext
