import Hypertext.Proofs.TreeBuilder.Rules.Body
import Hypertext.TreeBuilder.Rules.After

/-!
# The rules after the body, and in framesets, are lawful

After the body it stays open, so that content which comes too late still goes into it. In framesets
the current node is a frameset, until the outermost one is closed.
-/

namespace Hypertext.TreeBuilder

open Hypertext.Tree

variable {b b' : TreeBuilder} {token : Token} {tag : Tag}

/-! ## 1. After the body -/

/-- The modes after the body, which is still open. -/
def IsAfterBody (b : TreeBuilder) : Prop := b.mode = .afterBody ∨ b.mode = .afterAfterBody

theorem Spine.afterBody (h : Spine b) (hm : IsAfterBody b) :
    Framed b.tree b.openElements b.templateModes b.headElement.isSome ∧
    b.bones = [.body, .html] := by
  have hs := h.standing
  rcases hm with hm | hm <;> rw [hm] at hs <;> exact hs

theorem Spine.ready_afterBody (h : Spine b) (hm : IsAfterBody b) : Ready b := by
  obtain ⟨hf, hb⟩ := h.afterBody hm
  exact ⟨h.toSound, hf, .body, [.html], hb, by decide⟩

theorem lawful_backToBody (h : Spine b) (hm : IsAfterBody b) (ht : token ≠ .endOfFile)
    (hr : modeRank (.of token) .inBody < modeRank (.of token) b.mode) :
    Lawful b token (b.backToBody token) := by
  obtain ⟨hf, hb⟩ := h.afterBody hm
  have p := plain_report h.toSound token.unexpected
  have hspine : Spine ((b.report token.unexpected).switchTo .inBody) := by
    refine spine_switchTo p.sound ⟨p.framed hf, ?_⟩
    change InsertionMode.inBody.kind = modeOf b.templateModes b.headElement.isSome b.bones
    rw [hb]
    rfl
  exact lawful_reprocess hspine (rank_lt_of_modeRank ht hr) (quiet_of_ne rfl (by simp [switchTo]))

/-- A blank after the body goes into the body. -/
theorem lawful_blank_afterBody (h : Spine b) (hm : IsAfterBody b) (c : Char) :
    Lawful b (.character c) (b.bodyChar c).done :=
  lawful_plain h (plain_bodyChar (h.ready_afterBody hm) c)
    (by rcases hm with hm | hm <;> simp [hm]) (by simp)

theorem lawful_stop_afterBody (h : Spine b) (hm : IsAfterBody b) :
    Lawful b .endOfFile b.stop.done := by
  obtain ⟨hf, hb⟩ := h.afterBody hm
  have hmode : b.mode ≠ .text := by rcases hm with hm | hm <;> simp [hm]
  have hbodies : b.tree.skeleton.bodies ≠ [] := fun hnil => by
    have hno : .body ∉ b.bones := (hf.furnished.body.1 hnil).1
    rw [hb] at hno
    simp at hno
  exact lawful_stop h.toSound (h.ready_afterBody hm).begun.head hbodies (quiet_of_ne rfl hmode)
    hmode

theorem openAt_lt (h : Sound b) : (b.openAt? 0).getD root < b.tree.size := by
  cases hx : b.openAt? 0 with
  | none => exact h.planted.forest.root_lt
  | some x =>
    have hmem := List.mem_of_getElem? hx
    exact h.planted.lt (List.mem_reverse.1 hmem)

theorem lawful_afterBody (h : Spine b) (hm : b.mode = .afterBody) :
    Lawful b token (b.afterBody token) := by
  have hafter : IsAfterBody b := Or.inl hm
  cases token with
  | character c =>
    simp only [TreeBuilder.afterBody]
    split
    · exact lawful_blank_afterBody h hafter c
    · exact lawful_backToBody h hafter (by simp) (by simp [hm, modeRank, Course.of])
  | comment data => exact lawful_insertCommentIn h (openAt_lt h.toSound) data
  | doctype d => exact lawful_refuse h _ (by simp)
  | startTag tag =>
    simp only [TreeBuilder.afterBody]
    split
    · exact lawful_repeatedHtml h tag
    · refine lawful_backToBody h hafter (by simp) ?_
      simp [hm, modeRank, Course.of, Course.ofName_ne]
  | endTag tag =>
    simp only [TreeBuilder.afterBody]
    split
    · obtain ⟨hf, hb⟩ := h.afterBody hafter
      exact lawful_done ⟨h.toSound.switchTo .afterAfterBody, hf, hb⟩ (by simp)
        (quiet_of_ne rfl (by simp [switchTo]))
    · next hname =>
      refine lawful_backToBody h hafter (by simp) ?_
      simp [hm, modeRank, Course.of, hname]
  | endOfFile => exact lawful_stop_afterBody h hafter

theorem lawful_afterAfterBody (h : Spine b) (hm : b.mode = .afterAfterBody) :
    Lawful b token (b.afterAfterBody token) := by
  have hafter : IsAfterBody b := Or.inr hm
  have hback : ∀ {token : Token}, token ≠ .endOfFile → Lawful b token (b.backToBody token) := by
    intro token ht
    refine lawful_backToBody h hafter ht ?_
    rw [hm]
    simp only [modeRank]
    split <;> omega
  cases token with
  | character c =>
    simp only [afterAfterBody]
    split
    · exact lawful_blank_afterBody h hafter c
    · exact hback (by simp)
  | comment data => exact lawful_insertCommentIn h h.planted.forest.root_lt data
  | doctype d => exact lawful_refuse h _ (by simp)
  | startTag tag =>
    simp only [afterAfterBody]
    split
    · exact lawful_repeatedHtml h tag
    · exact hback (by simp)
  | endTag tag => exact hback (by simp)
  | endOfFile => exact lawful_stop_afterBody h hafter

/-! ## 2. Framesets -/

theorem lawful_noframes (h : Spine b)
    (hm : b.mode ∈ [InsertionMode.inFrameset, .afterFrameset, .afterAfterFrameset])
    (hname : tag.name = "noframes") : Lawful b (.startTag tag) (b.startHeadContent tag).done := by
  have hmode : b.mode ≠ .text ∧ b.mode ≠ .inTableText := by
    revert hm
    cases b.mode <;> simp
  refine lawful_startHeadContent h (h.begun ?_) hmode
    (fun he => absurd (hname.symm.trans he) (by decide)) (by rw [hname]; decide)
  revert hm
  cases b.mode <;> simp

/-- In a frameset it is the current node. -/
theorem Spine.frameset_top (h : Spine b) (hm : b.mode = .inFrameset) :
    ∃ x outer rest, b.openElements = x :: outer ∧ b.tree.part? x = some .frameset ∧
      b.bones = .frameset :: rest ∧ b.tree.bones outer = rest := by
  have hs := h.steady (by rw [hm]; decide)
  obtain ⟨rest, hb⟩ := hs.bones_eq (p := .frameset) (by rw [hm]; rfl)
  obtain ⟨x, outer, hopen, hx, ho⟩ := hs.1.seated.exists_top hb (by simp)
  exact ⟨x, outer, rest, hopen, hx, hb, ho⟩

/-- A frameset in a frameset is not the one that stands for the body. -/
theorem pushed_frameset (h : Sound b) {x : NodeId} {outer : List NodeId}
    (hopen : b.openElements = x :: outer) (hx : b.tree.part? x = some .frameset) {name : String}
    (hname : name = "frameset") (attributes : List Attribute) :
    Pushed b (b.insertElement name attributes .html) (.html, name) := by
  obtain ⟨id, tree, heq, w, hl⟩ := insertElement_eq h.planted.anchored name attributes .html
  have hlabel : b.tree.label? x = some (.html, "frameset") := by
    simpa [Part.names] using part?_eq_some.1 hx
  refine pushed_put h heq w hl (by simp [hname]) (by simp [hname]) ?_
  rw [place_current hopen hlabel (by decide)] at w
  refine w.skeleton_elsewhere h.planted.forest (h.planted.forest.ne_root_of_label hlabel)
    fun hhtml => ?_
  have hhtml := h.planted.upright.html x hhtml
  rw [hlabel] at hhtml
  simp at hhtml

theorem lawful_frameset (h : Spine b) (hm : b.mode = .inFrameset) (hname : tag.name = "frameset") :
    Lawful b (.startTag tag) (b.insertHtml tag).done := by
  have hs := h.steady (by rw [hm]; decide)
  obtain ⟨x, outer, rest, hopen, hx, hb, -⟩ := h.frameset_top hm
  have hframe : Frame b.bones b.templateModes := hs.1.frame
  rw [hb] at hframe
  have hmodes := hframe.frameset_inv.1
  have hpart : partOf (.html, tag.name) = some .frameset := by rw [hname]; decide
  have p := pushed_frameset h.toSound hopen hx hname tag.attributes
  -- the frameset is in the place of the body, and a second one does not change that
  have hfurnished :
      Furnished (.frameset :: b.bones) b.headElement.isSome b.tree.skeleton.bodies := by
    refine ⟨fun _ => (h.begun (by rw [hm]; decide)).head, hs.1.furnished.body.trans ?_⟩
    change .body ∉ b.bones ∧ .frameset ∉ b.bones ↔ _
    rw [hb]
    simp
  have hf := p.framed h.toSound hpart hs.1.seated
    (by rw [hb, hmodes]; rw [hmodes] at hframe; exact .frameset hframe) hfurnished
    (fun y hy => by
      rw [hopen] at hy
      cases hy
      simp [hx, Sits])
  have hmode : (b.insertHtml tag).mode = .inFrameset := by rw [insertHtml, p.same]; exact hm
  refine lawful_done (spine_of_steady p.sound ⟨hf, ?_⟩) (by simp) ⟨by rw [insertHtml, p.same], ?_⟩
  · have hbones := p.bones h.toSound
    rw [hpart] at hbones
    change (b.insertHtml tag).mode.kind =
      modeOf _ _ (b.insertElement tag.name tag.attributes .html).bones
    rw [hbones, hmode]
    rfl
  · rw [hmode]
    simp

/-- The innermost frameset is closed: either another one is current then, or none is left. -/
theorem lawful_endFrameset (h : Spine b) (hm : b.mode = .inFrameset) : Lawful b (.endTag tag)
    (if b.pop.currentIs "frameset" then b.pop else b.pop.switchTo .afterFrameset).done := by
  have hs := h.steady (by rw [hm]; decide)
  obtain ⟨x, outer, rest, hopen, hx, hb, ho⟩ := h.frameset_top hm
  have hframe : Frame b.bones b.templateModes := hs.1.frame
  rw [hb] at hframe
  obtain ⟨hmodes, hrest⟩ := hframe.frameset_inv
  have hstack : b.pop.openElements = outer := by rw [pop, hopen]; rfl
  have hseat : Seated b.tree outer := by
    have := hs.1.seated
    rw [hopen] at this
    exact (seated_cons.1 this).2
  -- the current node is a frameset if the next part outwards is
  have hcurrent : b.pop.currentIs "frameset" = true ↔ ∃ rest', rest = .frameset :: rest' := by
    rw [currentIs_iff, hstack]
    constructor
    · rintro ⟨y, outer', rfl, hhtml⟩
      have hpart : b.tree.part? y = some .frameset :=
        (part?_of_label (isHtml_iff.1 hhtml)).trans (by decide)
      rw [bones_cons_some hpart] at ho
      exact ⟨_, ho.symm⟩
    · rintro ⟨rest', rfl⟩
      obtain ⟨y, outer', rfl, hy, -⟩ := hseat.exists_top ho (by simp)
      have hl : b.tree.label? y = some (.html, "frameset") := by
        simpa [Part.names] using part?_eq_some.1 hy
      exact ⟨y, outer', rfl, isHtml_iff.2 hl⟩
  split
  · next hc =>
    obtain ⟨rest', rfl⟩ := hcurrent.1 hc
    obtain hrest | ⟨_, -, hrest⟩ := hrest
    · cases hrest
    · refine lawful_done (spine_of_steady h.toSound.pop ⟨⟨?_, ?_, ?_⟩, ?_⟩) (by simp)
        (quiet_of_ne rfl (by simp [pop, hm]))
      · rw [hstack]
        change Frame (b.tree.bones outer) b.templateModes
        rw [ho, hmodes]
        exact hrest
      · rw [hstack]
        exact hseat
      · rw [hstack]
        have hfurnished := hs.1.furnished
        change Furnished b.bones _ _ at hfurnished
        change Furnished (b.tree.bones outer) _ b.tree.skeleton.bodies
        rw [hb] at hfurnished
        rw [ho]
        exact ⟨fun _ => hfurnished.head (by simp), hfurnished.body.trans (by simp)⟩
      · rw [hstack]
        change b.mode.kind = modeOf b.templateModes b.headElement.isSome (b.tree.bones outer)
        rw [ho, hm]
        rfl
  · next hc =>
    -- the last frameset has been closed, and only the document element is left
    obtain hrest | ⟨rest', hrest, -⟩ := hrest
    · have hbodies : b.tree.skeleton.bodies ≠ [] := hs.bodies_ne_nil (by rw [hm]; decide) fun ht =>
        hs.1.frame.modes_ne_nil ht hmodes
      have hseen := (h.begun (by rw [hm]; decide)).head
      refine lawful_done ⟨h.toSound.pop.switchTo .afterFrameset, ?_, hmodes, hseen,
        hbodies⟩ (by simp) (quiet_of_ne rfl (by simp [switchTo]))
      change b.tree.bones b.pop.openElements = [.html]
      rw [hstack, ho, hrest]
    · exact absurd (hcurrent.2 ⟨rest', hrest⟩) hc

theorem lawful_inFrameset (h : Spine b) (hm : b.mode = .inFrameset) :
    Lawful b token (b.inFrameset token) := by
  cases token with
  | character c =>
    simp only [inFrameset]
    split
    · exact lawful_insertChar h c
    · exact lawful_refuse h _ (by simp)
  | comment data => exact lawful_insertComment h data
  | doctype d => exact lawful_refuse h _ (by simp)
  | startTag tag =>
    simp only [inFrameset]
    refine .ite (fun _ => ?_) fun _ => ?_
    · exact lawful_repeatedHtml h tag
    refine .ite (fun hname => ?_) fun _ => ?_
    · exact lawful_frameset h hm hname
    refine .ite (fun hname => ?_) fun _ => ?_
    · exact lawful_insertVoid h (h.begun (by rw [hm]; decide)) (by rw [hname]; decide)
    refine .ite (fun hname => ?_) fun _ => ?_
    · exact lawful_noframes h (by simp [hm]) hname
    · exact lawful_refuse h _ (by simp)
  | endTag tag =>
    simp only [inFrameset]
    split
    · split
      · exact lawful_refuse h _ (by simp)
      · exact lawful_endFrameset h hm
    · exact lawful_refuse h _ (by simp)
  | endOfFile =>
    have p := plain_reportIf h.toSound (decide (b.openElements.length > 1)) .eofWithOpenElements
    have hs := h.steady (by rw [hm]; decide)
    obtain ⟨_, _, rest, -, -, hb, -⟩ := h.frameset_top hm
    have hframe : Frame b.bones b.templateModes := hs.1.frame
    rw [hb] at hframe
    -- the frameset counts as the body of the document, so none has to be made
    have hbodies : b.tree.skeleton.bodies ≠ [] := hs.bodies_ne_nil (by rw [hm]; decide) fun ht =>
      hs.1.frame.modes_ne_nil ht hframe.frameset_inv.1
    rw [← p.same.skeleton] at hbodies
    exact lawful_stop p.sound (h.begun_of_plain p (by rw [hm]; decide)).head hbodies
      (p.quiet (by simp [hm])) (by rw [p.same.mode, hm]; simp)

/-! ## 3. After framesets -/

theorem lawful_stop_afterFrameset (h : Spine b)
    (hm : b.mode = .afterFrameset ∨ b.mode = .afterAfterFrameset) :
    Lawful b .endOfFile b.stop.done := by
  have hmode : b.mode ≠ .text := by rcases hm with hm | hm <;> simp [hm]
  have hs := h.standing
  obtain ⟨-, -, hseen, hbodies⟩ : b.bones = [.html] ∧ b.templateModes = [] ∧
      b.headElement.isSome = true ∧ b.tree.skeleton.bodies ≠ [] := by
    rcases hm with hm | hm <;> rw [hm] at hs <;> exact hs
  exact lawful_stop h.toSound hseen hbodies (quiet_of_ne rfl hmode) hmode

theorem lawful_afterFrameset (h : Spine b) (hm : b.mode = .afterFrameset) :
    Lawful b token (b.afterFrameset token) := by
  cases token with
  | character c =>
    simp only [afterFrameset]
    split
    · exact lawful_insertChar h c
    · exact lawful_refuse h _ (by simp)
  | comment data => exact lawful_insertComment h data
  | doctype d => exact lawful_refuse h _ (by simp)
  | startTag tag =>
    simp only [afterFrameset]
    refine .ite (fun _ => ?_) fun _ => ?_
    · exact lawful_repeatedHtml h tag
    refine .ite (fun hname => ?_) fun _ => ?_
    · exact lawful_noframes h (by simp [hm]) hname
    · exact lawful_refuse h _ (by simp)
  | endTag tag =>
    simp only [afterFrameset]
    split
    · have hs := h.standing
      rw [hm] at hs
      exact lawful_done ⟨h.toSound.switchTo .afterAfterFrameset, hs⟩ (by simp)
        (quiet_of_ne rfl (by simp [switchTo]))
    · exact lawful_refuse h _ (by simp)
  | endOfFile => exact lawful_stop_afterFrameset h (Or.inl hm)

/-- A blank goes to the document element, with formatting elements around it. -/
theorem lawful_blank_afterFrameset (h : Spine b) (hm : b.mode = .afterAfterFrameset) (c : Char) :
    Lawful b (.character c) (b.bodyChar c).done := by
  have hs := h.standing
  rw [hm] at hs
  obtain ⟨hb, hmodes, hseen, hbodies⟩ := hs
  have hsame : ∀ {b'}, Sound b' → Same b b' → Lawful b (.character c) b'.done := by
    intro b' hsound same
    have hmode : b'.mode = .afterAfterFrameset := same.mode.trans hm
    refine lawful_done ⟨hsound, ?_⟩ (by simp) (quiet_of_ne same.request (by rw [hmode]; simp))
    rw [hmode]
    exact ⟨same.bones.trans hb, same.modes.trans hmodes, by rw [same.head]; exact hseen,
      by rw [same.skeleton]; exact hbodies⟩
  obtain ⟨hsound, same⟩ := h.toSound.reconstruct (h.begun (by rw [hm]; decide))
  have p := plain_insertChar hsound c
  have p' := p.next plain_framesetNotOk
  unfold bodyChar
  split
  · exact lawful_refuse h _ (by simp)
  · split
    · exact hsame p.sound (same.trans p.same)
    · exact hsame p'.sound (same.trans p'.same)

theorem lawful_afterAfterFrameset (h : Spine b) (hm : b.mode = .afterAfterFrameset) :
    Lawful b token (b.afterAfterFrameset token) := by
  cases token with
  | character c =>
    simp only [afterAfterFrameset]
    split
    · exact lawful_blank_afterFrameset h hm c
    · exact lawful_refuse h _ (by simp)
  | comment data => exact lawful_insertCommentIn h h.planted.forest.root_lt data
  | doctype d => exact lawful_refuse h _ (by simp)
  | startTag tag =>
    simp only [afterAfterFrameset]
    refine .ite (fun _ => ?_) fun _ => ?_
    · exact lawful_repeatedHtml h tag
    refine .ite (fun hname => ?_) fun _ => ?_
    · exact lawful_noframes h (by simp [hm]) hname
    · exact lawful_refuse h _ (by simp)
  | endTag tag => exact lawful_refuse h _ (by simp)
  | endOfFile => exact lawful_stop_afterFrameset h (Or.inr hm)

end Hypertext.TreeBuilder
