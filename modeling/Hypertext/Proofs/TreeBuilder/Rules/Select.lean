import Hypertext.Proofs.TreeBuilder.Rules.Body
import Hypertext.TreeBuilder.Rules.Select

/-!
# The rules in select elements are lawful

Only options are opened in a select element. A tag that may not stand in it closes it; the mode is
then one of those that a select element may begin in, and the tag is not handed back.
-/

namespace Hypertext.TreeBuilder

open Hypertext.Tree

variable {b b' : TreeBuilder} {token : Token} {tag : Tag}

/-! ## 1. Options -/

/-- The modes of a select element, whether it is in a table or not. -/
def InSelect (b : TreeBuilder) : Prop := b.mode = .inSelect ∨ b.mode = .inSelectInTable

theorem InSelect.mem_innerModes (hm : InSelect b) : b.mode ∈ innerModes := by
  rcases hm with hm | hm <;> rw [hm] <;> decide

theorem InSelect.mem_steadyModes (hm : InSelect b) : b.mode ∈ steadyModes :=
  mem_steadyModes_of_innerModes _ hm.mem_innerModes

theorem InSelect.not_mem (hm : InSelect b) :
    b.mode ∉ [InsertionMode.initial, .beforeHtml, .inHeadNoscript, .text] := by
  rcases hm with hm | hm <;> simp [hm]

theorem Spine.bones_select (h : Spine b) (hm : InSelect b) : ∃ rest, b.bones = .select :: rest :=
  (h.steady hm.mem_steadyModes).bones_eq (by rcases hm with hm | hm <;> rw [hm] <;> rfl)

/-- An option is opened, after other options have been closed. -/
theorem lawful_option (h : Spine b) (hm : InSelect b) {b₁ : TreeBuilder} (p : Plain b b₁)
    (hname : Part.ofName? tag.name = none) : Lawful b (.startTag tag) (b₁.insertHtml tag).done := by
  obtain ⟨rest, hb⟩ := h.bones_select hm
  have hb₁ : b₁.tree.bones b₁.openElements = .select :: rest := p.same.bones.trans hb
  have hbegun := h.begun_of_plain p hm.mem_innerModes
  have p' := plain_insertElement p.sound hbegun (admits_of_bones hb₁ (by decide)) tag.name
    .html hname tag.attributes
  exact lawful_plain h (p.trans p') hm.not_mem (by simp)

theorem plain_endOptionGroup (h : Sound b) : Plain b b.endOptionGroup := by
  have hpop : ∀ {b : TreeBuilder}, Sound b → ∀ {x outer name}, b.openElements = x :: outer →
      b.isHtml name x = true → Part.ofName? name = none → Plain b b.pop := by
    intro b h x outer name hopen hx hname
    exact plain_pop h hopen (part?_of_isHtml hname hx)
  unfold endOptionGroup
  extract_lets b₁
  have p : Plain b b₁ := by
    unfold b₁
    split
    · next hcurrent =>
      obtain ⟨hoption, htwo⟩ := Bool.and_eq_true_iff.1 hcurrent
      obtain ⟨x, outer, hopen, hhtml⟩ := currentIs_iff.1 hoption
      -- two elements are open, so there is one directly outside the current node
      obtain ⟨group, outer, rfl⟩ : ∃ group rest, outer = group :: rest := by
        cases outer with
        | nil => simp [hopen] at htwo
        | cons group rest => exact ⟨group, rest, rfl⟩
      have hstack : b.openElements = [x] ++ group :: outer := hopen
      have hlength : b.openElements.length - 2 = outer.length := by simp [hopen]
      rw [hlength, openAt?_eq hstack, Option.bind_eq_bind, Option.bind_some]
      change Plain b (if b.isHtml "optgroup" group = true then b.pop else b)
      split
      · exact hpop h hopen hhtml (by decide)
      · exact .refl h
    · exact .refl h
  split
  · next hcurrent =>
    obtain ⟨x, outer, hopen, hhtml⟩ := currentIs_iff.1 hcurrent
    exact p.next fun h => hpop h hopen hhtml (by decide)
  · exact p.next fun h => plain_report h _

/-! ## 2. Closing the select element -/

theorem spine_leaveSelect (h : Spine b) (hm : InSelect b) :
    Spine b.leaveSelect ∧ b.leaveSelect.mode ∈ Part.select.hosts := by
  obtain ⟨rest, hb⟩ := h.bones_select hm
  have he := enclosed_of_innermost hb
  have l := leaves_popThrough h.toSound (h.steady hm.mem_steadyModes).1 (by simp [Part.CanLeave]) he
  have hpop : b.popThrough (b.isHtmlOf Part.select.names) = b.popThroughName "select" := by
    rw [Part.names, isHtmlOf_singleton]
    rfl
  rw [hpop] at l
  refine ⟨spine_resetMode l.sound l.framed, ?_⟩
  have hmode := l.mode_mem (by simp [Part.hosts])
  change (b.popThroughName "select").appropriateMode ∈ _
  revert hmode
  cases (b.popThroughName "select").appropriateMode <;> simp [Part.hosts, InsertionMode.kind]

theorem modeRank_select {mode host : InsertionMode}
    (hm : mode = .inSelect ∨ mode = .inSelectInTable)
    (hhost : host ∈ Part.select.hosts) (course : Course) :
    modeRank course host < modeRank course mode := by
  have hfive : modeRank course mode = 5 := by rcases hm with rfl | rfl <;> rfl
  rw [hfive]
  revert hhost
  cases host <;> cases course <;> decide

theorem ne_text_of_select : ∀ mode ∈ Part.select.hosts, mode ≠ .text := by decide

/-- The select element is closed by a tag of its own. -/
theorem lawful_leaveSelect (h : Spine b) (hm : InSelect b) (ht : token ≠ .endOfFile) :
    Lawful b token b.leaveSelect.done := by
  obtain ⟨hspine, hhost⟩ := spine_leaveSelect h hm
  exact lawful_done hspine ht (quiet_of_ne rfl (ne_text_of_select _ hhost))

/-- The select element is closed by a tag that may not stand in it. -/
theorem lawful_breakSelect (h : Spine b) (hm : InSelect b) (ht : token ≠ .endOfFile) :
    Lawful b token (b.leaveSelect.reprocess token) := by
  obtain ⟨hspine, hhost⟩ := spine_leaveSelect h hm
  exact lawful_reprocess hspine (rank_lt_of_modeRank ht (modeRank_select hm hhost _))
    (quiet_of_ne rfl (ne_text_of_select _ hhost))

/-! ## 3. The modes -/

theorem lawful_selectStart (h : Spine b) (hm : InSelect b) :
    Lawful b (.startTag tag) (b.selectStart tag) := by
  have hmode : b.mode ≠ .text ∧ b.mode ≠ .inTableText := by rcases hm with hm | hm <;> simp [hm]
  have p := plain_report h.toSound .unexpectedStartTag
  have h₁ : Spine (b.report .unexpectedStartTag) := h.still p rfl
  have hm₁ : InSelect (b.report .unexpectedStartTag) := hm
  have ht : Token.startTag tag ≠ .endOfFile := (by simp)
  have poption := plain_popIf h.toSound "option" (by decide)
  have pgroup := poption.next fun h => plain_popIf h "optgroup" (by decide)
  unfold selectStart
  refine .ite (fun _ => ?_) fun _ => ?_
  · exact lawful_repeatedHtml h tag
  refine .ite (fun hname => ?_) fun _ => ?_
  · exact lawful_option h hm poption (by rw [hname]; decide)
  refine .ite (fun hname => ?_) fun _ => ?_
  · exact lawful_option h hm pgroup (by rw [hname]; decide)
  refine .ite (fun hname => ?_) fun _ => ?_
  · have hbegun := h.begun_of_plain pgroup hm.mem_innerModes
    have p := pgroup.next fun h => plain_insertVoid h hbegun (by rw [hname]; decide)
    exact lawful_plain h p hm.not_mem (by simp)
  refine .ite (fun _ => ?_) fun _ => ?_
  · -- a second select tag closes the element, as an end tag does
    dsimp only
    split
    · exact (lawful_leaveSelect h₁ hm₁ ht).of_plain p hmode.1
    · exact lawful_plain h p hm.not_mem (by simp)
  refine .ite (fun _ => ?_) fun _ => ?_
  · dsimp only
    split
    · exact (lawful_breakSelect h₁ hm₁ ht).of_plain p hmode.1
    · exact lawful_plain h p hm.not_mem (by simp)
  refine .ite (fun hname => ?_) fun _ => ?_
  · have hall : ∀ name ∈ ["script", "template"], name ∈ Category.headContent := by decide
    have hbegun := h.begun_of_plain (.refl h.toSound) hm.mem_innerModes
    exact lawful_startHeadContent h hbegun hmode (fun _ => hm.mem_steadyModes)
      (hall _ (List.contains_iff_mem.1 hname))
  · exact lawful_refuse h _ (by simp)

theorem lawful_selectEnd (h : Spine b) (hm : InSelect b) :
    Lawful b (.endTag tag) (b.selectEnd tag) := by
  unfold selectEnd
  refine .ite (fun _ => ?_) fun _ => ?_
  · exact lawful_plain h (plain_endOptionGroup h.toSound) hm.not_mem (by simp)
  refine .ite (fun _ => ?_) fun _ => ?_
  · split
    · next hcurrent =>
      obtain ⟨x, outer, hopen, hhtml⟩ := currentIs_iff.1 hcurrent
      have hpart := part?_of_isHtml (b := b) (by decide) hhtml
      exact lawful_plain h (plain_pop h.toSound hopen hpart) hm.not_mem (by simp)
    · exact lawful_refuse h _ (by simp)
  refine .ite (fun _ => ?_) fun _ => ?_
  · split
    · exact lawful_leaveSelect h hm (by simp)
    · exact lawful_refuse h _ (by simp)
  refine .ite (fun _ => ?_) fun _ => ?_
  · exact lawful_endTemplate h hm.mem_steadyModes (by simp)
  · exact lawful_refuse h _ (by simp)

theorem lawful_inSelect (h : Spine b) (hm : InSelect b) : Lawful b token (b.inSelect token) := by
  cases token with
  | character c =>
    simp only [inSelect]
    split
    · exact lawful_refuse h _ (by simp)
    · exact lawful_insertChar h c
  | comment data => exact lawful_insertComment h data
  | doctype d => exact lawful_refuse h _ (by simp)
  | startTag tag => exact lawful_selectStart h hm
  | endTag tag => exact lawful_selectEnd h hm
  | endOfFile => exact lawful_bodyEndOfFile h hm.mem_innerModes

theorem lawful_inSelectInTable (h : Spine b) (hm : b.mode = .inSelectInTable) :
    Lawful b token (b.inSelectInTable token) := by
  have hselect : InSelect b := Or.inr hm
  have hreport : ∀ {token : Token} kind, token ≠ .endOfFile →
      Lawful b token ((b.report kind).leaveSelect.reprocess token) := by
    intro token kind ht
    have p := plain_report h.toSound kind
    exact (lawful_breakSelect (h.still p rfl) hselect ht).of_plain p (by simp [hm])
  cases token with
  | startTag tag =>
    simp only [inSelectInTable]
    split
    · exact hreport _ (by simp)
    · exact lawful_inSelect h hselect
  | endTag tag =>
    simp only [inSelectInTable]
    split
    · split
      · exact hreport _ (by simp)
      · exact lawful_refuse h _ (by simp)
    · exact lawful_inSelect h hselect
  | character c => exact lawful_inSelect h hselect
  | comment data => exact lawful_inSelect h hselect
  | doctype d => exact lawful_inSelect h hselect
  | endOfFile => exact lawful_inSelect h hselect

end Hypertext.TreeBuilder
