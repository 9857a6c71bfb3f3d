import Hypertext.Proofs.TreeBuilder.Closing
import Hypertext.TreeBuilder.Rules.Template

/-!
# The rules of templates are lawful

A template is closed with everything in it, other parts of the document included. What is left is
the stack as it was when the template began, so the mode is read off it again.
-/

namespace Hypertext.TreeBuilder

open Hypertext.Tree

variable {b b' : TreeBuilder} {token : Token}

/-! ## 1. Closing the innermost template -/

theorem part?_template_iff {x : NodeId} :
    b.tree.part? x = some .template ↔ b.isHtml "template" x = true := by
  rw [part?_eq_some_iff, ← isHtmlOf_singleton]
  rfl

theorem bones_dropThrough (l : List NodeId) :
    b.tree.bones (dropThrough (b.isHtml "template") l) = Frame.leave (b.tree.bones l) := by
  induction l with
  | nil => rfl
  | cons x outer ih =>
    rw [dropThrough]
    split
    · next hx =>
      rw [bones_cons_some (part?_template_iff.2 hx)]
      rfl
    · next hx =>
      rw [← part?_template_iff] at hx
      cases hp : b.tree.part? x with
      | none => rw [bones_cons_none hp, ih]
      | some p => rw [bones_cons_some hp, ih, Frame.leave_cons (by rintro rfl; exact hx hp)]

theorem template_mem_iff : .template ∈ b.bones ↔ b.isOpen "template" = true := by
  rw [bones, Tree.bones, List.mem_filterMap, isOpen, List.any_eq_true]
  simp only [part?_template_iff]

theorem Framed.leave (h : Framed b.tree b.openElements b.templateModes b.headElement.isSome)
    (ht : b.isOpen "template" = true) :
    Framed b.tree (dropThrough (b.isHtml "template") b.openElements) b.templateModes.tail
      b.headElement.isSome := by
  obtain ⟨inner, heq⟩ := dropThrough_suffix (b.isHtml "template") b.openElements
  have hmem := template_mem_iff.2 ht
  refine ⟨?_, ?_, ?_⟩
  · rw [bones_dropThrough]
    exact h.frame.template_left hmem
  · have hseat := h.seated
    rw [← heq] at hseat
    exact hseat.suffix
  · obtain ⟨bones, hbones⟩ := Frame.exists_leave hmem
    have hframe := h.frame
    have hfurnished := h.furnished
    change Frame b.bones _ at hframe
    change Furnished b.bones _ _ at hfurnished
    rw [hbones] at hframe
    obtain ⟨hbody, hframeset⟩ := hframe.not_body_of_append (by simp)
    rw [hbones, List.append_cons] at hfurnished
    rw [bones_dropThrough]
    exact hfurnished.of_append (h.frame.template_left hmem).ne_nil
      ⟨by simpa using hbody, by simpa using hframeset⟩

theorem spine_leaveTemplate (h : Sound b)
    (hf : Framed b.tree (dropThrough (b.isHtml "template") b.openElements) b.templateModes.tail
      b.headElement.isSome) : Spine b.leaveTemplate ∧ b.leaveTemplate.mode ∈ steadyModes := by
  let b₁ : TreeBuilder :=
    { (b.popThroughName "template").clearToMarker with templateModes := b.templateModes.tail }
  have hf' : Framed b₁.tree b₁.openElements b₁.templateModes b₁.headElement.isSome := hf
  change Spine b₁.resetMode ∧ b₁.resetMode.mode ∈ steadyModes
  refine ⟨spine_resetMode ⟨?_, ?_, h.form, fun hok => ?_, h.running, h.intact⟩ hf', hf'.steady.mem⟩
  · exact h.planted.sublist (dropThrough_sublist _ _)
  · exact named_clearToMarker h.named
  · have htail : b.templateModes.tail = [] := by rw [h.frameset hok]; rfl
    exact htail

/-! ## 2. The end of a template -/

theorem ne_template_of_impliedEnd {x : NodeId}
    (hx : b.isHtmlOf Category.impliedEndThorough x = true) : b.isHtml "template" x = false := by
  obtain ⟨name, hname, hl⟩ := isHtmlOf_iff.1 hx
  rw [Bool.eq_false_iff, Ne, isHtml_iff, hl]
  rintro ⟨⟩
  revert hname
  decide

theorem lawful_endTemplate (h : Spine b) (hm : b.mode ∈ steadyModes) (ht : token ≠ .endOfFile) :
    Lawful b token b.endTemplate.done := by
  unfold endTemplate
  split
  · next hopen =>
    have hf := (h.steady hm).1.leave hopen
    rw [← dropThrough_dropWhile fun x hx => ne_template_of_impliedEnd hx] at hf
    extract_lets b₁
    have hsound : Sound b₁ := h.toSound.sublist (List.dropWhile_sublist _)
    have p := plain_reportIf hsound (!b₁.currentIs "template") .unclosedElements
    obtain ⟨errors, he, -⟩ := reportIf_eq (b := b₁) (!b₁.currentIs "template") .unclosedElements rfl
    rw [he] at p ⊢
    obtain ⟨hspine, hmode⟩ := spine_leaveTemplate p.sound hf
    exact lawful_done hspine ht (quiet_of_ne rfl (ne_text_of_steady _ hmode))
  · exact lawful_refuse h .unexpectedEndTag ht

/-- One template is left at the end of the input, and so the end is handed on less often. -/
theorem lawful_endOfFileInTemplate (h : Spine b) (hm : b.mode ∈ innerModes) :
    Lawful b .endOfFile b.endOfFileInTemplate := by
  have hsteady := mem_steadyModes_of_innerModes _ hm
  have hquiet : Quiet b b := quiet_of_ne rfl (ne_text_of_steady _ hsteady)
  unfold endOfFileInTemplate
  split
  · next hopen =>
    have hf := (h.steady hsteady).1
    obtain ⟨hspine, hmode⟩ := spine_leaveTemplate (b := b.report .eofWithOpenElements)
      (plain_report h.toSound _).sound (hf.leave hopen)
    refine lawful_reprocess hspine ?_ (quiet_of_ne rfl (ne_text_of_steady _ hmode))
    have hne : b.templateModes ≠ [] := hf.frame.modes_ne_nil (template_mem_iff.2 hopen)
    have hlen : b.templateModes.tail.length + 1 = b.templateModes.length := by
      rw [List.length_tail]
      exact Nat.sub_add_cancel (List.length_pos_iff.2 hne)
    have hrank : ∀ mode ∈ steadyModes, endRank mode ≤ 3 := by decide
    have hlow := hrank _ hmode
    change 4 * b.templateModes.tail.length +
      endRank (b.report .eofWithOpenElements).leaveTemplate.mode <
      4 * b.templateModes.length + endRank b.mode
    omega
  · next hclosed =>
    have hbodies := (h.steady hsteady).bodies_ne_nil hm fun hmem =>
      hclosed (template_mem_iff.1 hmem)
    exact lawful_stop h.toSound (h.begun_of_plain (.refl h.toSound) hm).head hbodies hquiet
      (ne_text_of_steady _ hsteady)

end Hypertext.TreeBuilder
