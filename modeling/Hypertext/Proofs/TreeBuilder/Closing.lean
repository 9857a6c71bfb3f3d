import Hypertext.Proofs.TreeBuilder.Lawful

/-!
# Closing parts

Tables, their parts and select elements are closed with everything in them. That leaves the stack as
it was when they were opened, if no template is closed along with them: `Leaves` says so, and gives
the mode that comes next.
-/

namespace Hypertext.TreeBuilder

open Hypertext.Tree

variable {b b' b'' : TreeBuilder} {p q : Part} {rest : List Part} {P : NodeId → Bool}

/-! ## 1. Dropping a beginning of the stack -/

theorem dropThrough_suffix (p : NodeId → Bool) (l : List NodeId) :
    ∃ inner, inner ++ dropThrough p l = l := by
  induction l with
  | nil => exact ⟨[], rfl⟩
  | cons x outer ih =>
    rw [dropThrough]
    split
    · exact ⟨[x], rfl⟩
    · obtain ⟨inner, heq⟩ := ih
      exact ⟨x :: inner, by rw [List.cons_append, heq]⟩

theorem dropThrough_sublist (p : NodeId → Bool) (l : List NodeId) :
    (dropThrough p l).Sublist l := by
  obtain ⟨inner, heq⟩ := dropThrough_suffix p l
  nth_rewrite 2 [← heq]
  exact List.sublist_append_right ..

/-- What is closed first makes no difference, if the element looked for is not among it. -/
theorem dropThrough_dropWhile {p q : NodeId → Bool} (hq : ∀ x, q x = true → p x = false)
    (l : List NodeId) : dropThrough p (l.dropWhile q) = dropThrough p l := by
  induction l with
  | nil => rfl
  | cons x outer ih =>
    cases hx : q x with
    | true =>
      rw [List.dropWhile_cons_of_pos hx, ih, dropThrough, hq x hx]
      rfl
    | false => rw [List.dropWhile_cons_of_neg (by simp [hx])]

theorem dropThrough_append {inner outer : List NodeId} {x : NodeId}
    (hinner : ∀ y ∈ inner, P y = false) (hx : P x = true) :
    dropThrough P (inner ++ x :: outer) = outer := by
  induction inner with
  | nil => simp [dropThrough, hx]
  | cons y inner ih =>
    obtain ⟨hy, hinner⟩ := List.forall_mem_cons.1 hinner
    rw [List.cons_append, dropThrough, hy]
    exact ih hinner

/-! ## 2. Leaving a part -/

/-- The parts that a rule may leave by closing them. -/
def Part.CanLeave (q : Part) : Prop := q ∉ [Part.html, .head, .body, .frameset, .template]

/-- A part that was open has been closed, with everything in it. -/
structure Leaves (b b' : TreeBuilder) (q : Part) : Prop where
  sound : Sound b'
  framed : Framed b'.tree b'.openElements b'.templateModes b'.headElement.isSome
  host : modeOf b'.templateModes true b'.bones ∈ q.hosts
  modes : b'.templateModes = b.templateModes
  request : b'.stateRequest = b.stateRequest

theorem leaves_of_cut {inner outer : List NodeId} {x : NodeId} (h : Sound b)
    (hf : Framed b.tree b.openElements b.templateModes b.headElement.isSome)
    (hopen : b.openElements = inner ++ x :: outer) (ht : .template ∉ b.tree.bones inner)
    (hx : b.tree.part? x = some q) (hq : Part.CanLeave q) :
    Leaves b { b with openElements := outer } q := by
  have hsub : outer.Sublist b.openElements := by
    rw [hopen]
    exact (List.sublist_cons_self _ _).trans (List.sublist_append_right _ _)
  have hbones : b.tree.bones b.openElements = b.tree.bones inner ++ q :: b.tree.bones outer := by
    rw [hopen, ← bones_cons_some hx]
    exact List.filterMap_append ..
  have hframe := hf.frame
  rw [hbones] at hframe
  -- neither the body nor a frameset is closed with it, so the document keeps them
  have hbody := hframe.not_body_of_append (p := q) (by revert hq; cases q <;> simp [Part.CanLeave])
  have hfurnished := hf.furnished
  rw [hbones, List.append_cons] at hfurnished
  have hbody' : .body ∉ b.tree.bones inner ++ [q] ∧ .frameset ∉ b.tree.bones inner ++ [q] := by
    revert hbody hq
    cases q <;> simp [Part.CanLeave]
  obtain ⟨hframe, hhost⟩ := hframe.host_of_append ht hq
  have hseat := hf.seated
  rw [hopen] at hseat
  exact ⟨h.sublist hsub, ⟨hframe, (seated_cons.1 hseat.suffix).2,
    hfurnished.of_append hframe.ne_nil hbody'⟩, hhost, rfl, rfl⟩

theorem Plain.leaves (p : Plain b b') (l : Leaves b' b'' q) : Leaves b b'' q :=
  ⟨l.sound, l.framed, l.host, l.modes.trans p.same.modes, l.request.trans p.same.request⟩

theorem Leaves.plain (l : Leaves b b' q) (p : Plain b' b'') : Leaves b b'' q := by
  refine ⟨p.sound, p.framed l.framed, ?_, p.same.modes.trans l.modes,
    p.same.request.trans l.request⟩
  rw [p.same.modes, p.same.bones]
  exact l.host

/-- Parts of tables have one mode to go back to. -/
theorem Leaves.spine {mode : InsertionMode} (l : Leaves b b' q) (hq : q.hosts = [mode])
    (hmode : mode.kind = mode ∧ mode ≠ .afterHead) : Spine (b'.switchTo mode) := by
  have hhost := l.host
  rw [hq, List.mem_singleton] at hhost
  refine spine_switchTo l.sound ⟨l.framed, ?_⟩
  change mode.kind = modeOf b'.templateModes b'.headElement.isSome b'.bones
  rw [hmode.1, ← hhost]
  cases hb : b'.bones with
  | nil => rfl
  | cons r rest =>
    rw [hb] at hhost
    refine (Frame.modeOf_headSeen ?_).symm
    rintro rfl
    exact hmode.2 hhost.symm

/-- Tables and select elements go back to the mode that they were found in. -/
theorem Leaves.mode_mem (l : Leaves b b' q) (hq : .afterHead ∉ q.hosts) :
    b'.appropriateMode.kind ∈ q.hosts := by
  have hhost := l.host
  rw [l.framed.steady.2]
  change modeOf b'.templateModes b'.headElement.isSome b'.bones ∈ q.hosts
  cases hb : b'.bones with
  | nil =>
    rw [hb] at hhost
    exact hhost
  | cons r rest =>
    rw [hb] at hhost
    rw [Frame.modeOf_headSeen]
    · exact hhost
    · rintro rfl
      exact hq hhost

/-! ## 3. Finding the part to leave -/

/-- An element that satisfies `P` and is the part `q` is open, with nothing like it and no template
inside. -/
def Enclosed (b : TreeBuilder) (q : Part) (P : NodeId → Bool) : Prop :=
  ∃ inner x outer, b.openElements = inner ++ x :: outer ∧ .template ∉ b.tree.bones inner ∧
    (∀ y ∈ inner, P y = false) ∧ P x = true ∧ b.tree.part? x = some q

theorem enclosed_of_innermost (hb : b.bones = q :: rest) : Enclosed b q (b.isHtmlOf q.names) := by
  obtain ⟨above, x, outer, hopen, hc, hx, -⟩ := exists_cut hb
  refine ⟨above, x, outer, hopen, ?_, fun y hy => ?_, part?_eq_some_iff.1 hx, hx⟩
  · have hbones : b.tree.bones above = [] := List.filterMap_eq_nil_iff.2 hc
    simp [hbones]
  · rw [Bool.eq_false_iff, Ne, ← part?_eq_some_iff, hc y hy]
    simp

/-- What is in table scope is in no template. -/
theorem exists_of_tableScope {t : Tree} {target : NodeId → Element → Bool} {stack : List NodeId}
    (h : searchScope t .table target stack = true) :
    ∃ inner x outer e, stack = inner ++ x :: outer ∧ .template ∉ t.bones inner ∧
      (∀ y ∈ inner, ∀ e, t.element? y = some e → target y e = false) ∧
      t.element? x = some e ∧ target x e = true := by
  induction stack with
  | nil => cases h
  | cons x stack ih =>
    by_cases hfound : ∃ e, t.element? x = some e ∧ target x e = true
    · obtain ⟨e, he, hte⟩ := hfound
      exact ⟨[], x, stack, e, rfl, by simp [Tree.bones], by simp, he, hte⟩
    · have hx : ∀ e, t.element? x = some e → target x e = false := by
        intro e he
        rw [Bool.eq_false_iff]
        exact fun hte => hfound ⟨e, he, hte⟩
      obtain ⟨inner, y, outer, e, rfl, hbones, hinner, he, hte⟩ := ih (searchScope_tail hx h)
      refine ⟨x :: inner, y, outer, e, rfl, ?_, List.forall_mem_cons.2 ⟨hx, hinner⟩, he, hte⟩
      cases hpart : t.part? x with
      | none => rwa [bones_cons_none hpart]
      | some r =>
        rw [bones_cons_some hpart, List.mem_cons, not_or]
        refine ⟨?_, hbones⟩
        -- a template would have ended the search
        rintro rfl
        rw [searchScope_boundary hpart hx (by decide)] at h
        cases h

theorem enclosed_of_anyInScope {names : List String} (hnames : names ⊆ q.names)
    (hin : b.anyInScope .table names = true) : Enclosed b q (b.isHtmlOf names) := by
  have hpart : ∀ x e, b.tree.element? x = some e → e.isHtmlOf names = true →
      b.tree.part? x = some q := by
    intro x e he hx
    rw [← isHtmlOf_of_element he, isHtmlOf_iff] at hx
    obtain ⟨name, hname, hl⟩ := hx
    exact part?_eq_some.2 ⟨name, hnames hname, hl⟩
  obtain ⟨inner, x, outer, e, hopen, hbones, hinner, he, hte⟩ := exists_of_tableScope hin
  refine ⟨inner, x, outer, hopen, hbones, fun y hy => ?_, ?_, hpart x e he hte⟩
  · cases hey : b.tree.element? y with
    | none => rw [isHtmlOf, hey]; rfl
    | some e => rw [isHtmlOf_of_element hey]; exact hinner y hy e hey
  · rw [isHtmlOf_of_element he]
    exact hte

theorem enclosed_of_inScope {name : String} (hname : name ∈ q.names)
    (hin : b.inScope .table name = true) : Enclosed b q (b.isHtmlOf [name]) := by
  refine enclosed_of_anyInScope (by simpa using hname) ?_
  have htarget : (fun (_ : NodeId) (e : Element) => e.isHtml name) =
      fun _ e => e.isHtmlOf [name] := by
    funext _ e
    simp [Element.isHtml, Element.isHtmlOf, Bool.beq_eq_decide_eq]
  rw [inScope, htarget] at hin
  exact hin

/-- The innermost part is no template then. -/
theorem Enclosed.ne_template (he : Enclosed b q P) (hq : q ≠ .template) (hb : b.bones = p :: rest) :
    p ≠ .template := by
  obtain ⟨inner, x, outer, hopen, ht, -, -, hx⟩ := he
  have hbones : b.bones = b.tree.bones inner ++ q :: b.tree.bones outer := by
    rw [bones, hopen, ← bones_cons_some hx]
    exact List.filterMap_append ..
  rw [hbones] at hb
  rintro rfl
  cases hi : b.tree.bones inner with
  | nil =>
    rw [hi] at hb
    exact hq (List.cons.inj hb).1
  | cons r bones =>
    rw [hi] at hb ht
    obtain ⟨rfl, -⟩ := List.cons.inj hb
    simp at ht

theorem Enclosed.popWhile {Q : NodeId → Bool} (he : Enclosed b q P)
    (hq : ∀ x, P x = true → Q x = false) : Enclosed (b.popWhile Q) q P := by
  obtain ⟨inner, x, outer, hopen, ht, hinner, hx, hpart⟩ := he
  have hsub : (inner.dropWhile Q).Sublist inner := List.dropWhile_sublist Q
  exact ⟨inner.dropWhile Q, x, outer, openElements_popWhile hopen (hq x hx),
    fun hm => ht ((hsub.filterMap _).subset hm), fun y hy => hinner y (hsub.subset hy), hx, hpart⟩

/-! ## 4. Leaving it -/

variable (h : Sound b) (hf : Framed b.tree b.openElements b.templateModes b.headElement.isSome)
include h hf

theorem leaves_popThrough (hq : Part.CanLeave q) (he : Enclosed b q P) :
    Leaves b (b.popThrough P) q := by
  obtain ⟨inner, x, outer, hopen, ht, hinner, hx, hpart⟩ := he
  rw [popThrough, hopen, dropThrough_append hinner hx]
  exact leaves_of_cut h hf hopen ht hpart hq

/-- The part is closed after what may be closed by implication. -/
theorem leaves_close {names : List String} (hq : Part.CanLeave q)
    (he : Enclosed b q (b.isHtmlOf names)) (hn : ∀ name ∈ names, name ∉ Category.impliedEnd)
    (bad : TreeBuilder → Bool) :
    let b₁ := b.closeImplied none
    let b₂ := b₁.reportIf (bad b₁) .unclosedElements
    Leaves b (b₂.popThrough (b₂.isHtmlOf names)) q := by
  intro b₁ b₂
  have he₁ : Enclosed b₁ q (b₁.isHtmlOf names) := by
    refine Enclosed.popWhile he fun x (hx : b.isHtmlOf names x = true) => ?_
    obtain ⟨name, hname, hl⟩ := isHtmlOf_iff.1 hx
    -- what is closed by implication is not the element itself
    obtain ⟨e, he, -, htag⟩ := exists_element_of_label hl
    simp [he, Element.isHtmlOf, htag, hn name hname]
  have p₁ : Plain b b₁ := plain_closeImplied h none
  have p₂ : Plain b₁ b₂ := plain_reportIf p₁.sound _ _
  have he₂ : Enclosed b₂ q (b₂.isHtmlOf names) := by
    obtain ⟨errors, hb₂, -⟩ := reportIf_eq (b := b₁) (bad b₁) .unclosedElements rfl
    unfold b₂
    rw [hb₂]
    exact he₁
  exact (p₁.trans p₂).leaves (leaves_popThrough p₂.sound ((p₁.trans p₂).framed hf) hq he₂)

theorem leaves_closeNamed {name : String} (hq : Part.CanLeave q)
    (he : Enclosed b q (b.isHtmlOf [name])) (hn : name ∉ Category.impliedEnd) :
    Leaves b (b.closeNamed name none) q := by
  have l := leaves_close h hf hq he (by simpa using hn) fun b => !b.currentIs name
  simp only [isHtmlOf_singleton] at l
  exact l

omit hf in
/-- The elements above the innermost part are closed. -/
theorem popTo_innermost {names : List String} (hb : b.bones = p :: rest)
    (hnames : ∀ name ∈ names, Part.ofName? name ≠ none) (hp : p.names ⊆ names) :
    Plain b (b.popTo names) ∧ ∃ x outer, (b.popTo names).openElements = x :: outer ∧
      b.tree.part? x = some p := by
  obtain ⟨above, x, outer, hopen, hc, hx, -⟩ := exists_cut hb
  -- the elements above the part are no parts, and all names are names of parts, so each of these
  -- elements is closed
  have habove : ∀ y ∈ above, (!b.isHtmlOf names y) = true := by
    intro y hy
    rw [Bool.not_eq_true', Bool.eq_false_iff, Ne, isHtmlOf_iff]
    rintro ⟨name, hname, hl⟩
    have hnone := hc y hy
    rw [part?_of_label hl] at hnone
    exact hnames name hname hnone
  have hkeep : (!b.isHtmlOf names x) = false := by
    rw [Bool.not_eq_false', isHtmlOf_iff]
    obtain ⟨name, hname, hl⟩ := part?_eq_some.1 hx
    exact ⟨name, hp hname, hl⟩
  have hdrop : b.openElements.dropWhile (fun id => !b.isHtmlOf names id) = x :: outer := by
    rw [hopen, List.dropWhile_append_of_pos habove, List.dropWhile_cons_of_neg (by simp [hkeep])]
  rw [popTo, TreeBuilder.popWhile, hdrop]
  exact ⟨plain_closed h hopen hc, x, outer, rfl, hx⟩

/-- The current node is a part, and is closed. -/
theorem leaves_pop {x : NodeId} {outer : List NodeId} (hopen : b.openElements = x :: outer)
    (hx : b.tree.part? x = some q) (hq : Part.CanLeave q) : Leaves b b.pop q := by
  have l := leaves_of_cut h hf (show b.openElements = [] ++ x :: outer from hopen)
    (by simp [Tree.bones]) hx hq
  rwa [pop, hopen]

end Hypertext.TreeBuilder
