import Hypertext.Proofs.TreeBuilder.Acts.Body
import Hypertext.Proofs.TreeBuilder.Leaves
import Hypertext.Proofs.TreeBuilder.Rules.After
import Hypertext.Proofs.TreeBuilder.Rules.Select

/-!
# The steps of the rules in select elements, after the body and in framesets
-/

namespace Hypertext.TreeBuilder

open Hypertext.Tree

variable {token : Token} {mode : InsertionMode} {b a : TreeBuilder} {cs : List Char} {tag : Tag}

/-! ## 1. Select elements -/

theorem ContentChanges.leaveSelect (h : ContentChanges token mode b cs a) (hne : a.mode ≠ .text) :
    ContentChanges token mode b cs a.leaveSelect := (h.popThrough _).resetMode hne

/-- Options and what else belongs there may be put into a select element, or into an open option. -/
theorem takes_inSelect {rest : List Part} (hb : b.bones = .select :: rest) {name : String}
    (hname : name ∈ ["option", "optgroup", "hr", "script", "template"]) :
    Takes b (.html, name) := by
  have hflow : ∀ name ∈ ["option", "optgroup", "hr", "script", "template"],
      name ∉ Category.tableStructure := by
    decide
  refine takes_of_bones hb (fun _ => hflow name hname) (Or.inl fun names hnames => ⟨rfl, ?_⟩)
    (braced_of_bones hb (by decide))
  cases hnames
  exact hname

theorem hosts_option {rest : List Part} (hne : b.mode ≠ .text) (hb : b.bones = .select :: rest)
    {name : String} (hname : name ∈ ["optgroup", "option"]) : Hosts b (.html, name) := by
  have hall : ∀ name ∈ ["optgroup", "option"], name ∈ ["option", "optgroup", "hr", "script",
      "template"] ∧
    name ∉ Content.void ∧ (∀ scripting, name ∉ Content.raw scripting) ∧ name ∉ Content.block := by
    decide
  obtain ⟨hmem, hvoid, hraw, hblock⟩ := hall name hname
  refine ⟨hne, takes_inSelect hb hmem, fun _ => ⟨hvoid, hraw _⟩, fun names hn _ => ?_,
    spares_of_not_mem hblock⟩
  rw [TreeBuilder.region, hb] at hn
  cases hn
  exact Or.inl ⟨rfl, hname⟩

theorem performs_selectStart (h : Spine b) (hm : InSelect b) (hb : NoTextWaiting b) :
    Performs b (.startTag tag) (b.selectStart tag) := by
  have hne : b.mode ≠ .text := ne_text_of_steady _ hm.mem_steadyModes
  obtain ⟨rest, hbones⟩ := h.bones_select hm
  have hchanges : ContentChanges (.startTag tag) b.mode b [] b := .refl
  have hreport := hchanges.report .unexpectedStartTag rfl
  have hleave := hreport.leaveSelect hne
  -- options are no parts
  have p : Plain b (b.popIf "option") := plain_popIf h.toSound "option" (by decide)
  have p' : Plain b ((b.popIf "option").popIf "optgroup") :=
    p.next fun h => plain_popIf h "optgroup" (by decide)
  have hne' := p'.same.mode ▸ hne
  have hbones' := p'.same.bones.trans hbones
  unfold selectStart
  refine .ite (fun _ => ?_) fun _ => ?_
  · exact performs_repeatedHtml h hm.mem_steadyModes hb tag
  refine .ite (fun hname => ?_) fun _ => ?_
  · have ho : Hosts (b.popIf "option") (.html, tag.name) :=
      hosts_option (p.same.mode ▸ hne) (p.same.bones.trans hbones) (by rw [hname]; decide)
    exact performs_quiet hb
      ((hchanges.popIf _).insertHtml (by rw [hname]; decide) (by rw [hname]; decide) ho rfl)
  refine .ite (fun hname => ?_) fun _ => ?_
  · have ho : Hosts ((b.popIf "option").popIf "optgroup") (.html, tag.name) :=
      hosts_option hne' hbones' (by rw [hname]; decide)
    exact performs_quiet hb
      (((hchanges.popIf _).popIf _).insertHtml (by rw [hname]; decide) (by rw [hname]; decide)
        ho rfl)
  refine .ite (fun hname => ?_) fun _ => ?_
  · have hregion : ((b.popIf "option").popIf "optgroup").region.isSome := by
      rw [TreeBuilder.region, hbones']
      rfl
    exact performs_quiet hb (((hchanges.popIf _).popIf _).insertVoid (by rw [hname]; decide)
      (by rw [hname]; decide) (by rw [hname]; decide) hne'
      (takes_inSelect hbones' (by rw [hname]; decide)) (Or.inl hregion) rfl)
  refine .ite (fun _ => ?_) fun _ => ?_
  · dsimp only
    split
    · exact performs_quiet hb hleave
    · exact performs_quiet hb hreport
  refine .ite (fun _ => ?_) fun _ => ?_
  · dsimp only
    split
    · exact performs_quiet hb hleave
    · exact performs_quiet hb hreport
  refine .ite (fun hcontent => ?_) fun _ => ?_
  · have hall : ∀ name ∈ ["script", "template"], name ∈ Category.headContent ∧
      name ∈ ["option", "optgroup", "hr", "script", "template"] := by decide
    obtain ⟨hcontent, hmem⟩ := hall _ (List.contains_iff_mem.1 hcontent)
    exact performs_headContent h hne hb hcontent (takes_inSelect hbones hmem)
  · exact performs_refuse hb _ rfl

theorem ContentChanges.endOptionGroup (h : ContentChanges token mode b cs a) :
    ContentChanges token mode b cs a.endOptionGroup := by
  unfold TreeBuilder.endOptionGroup
  extract_lets a₁
  have h₁ : ContentChanges token mode b cs a₁ := by
    unfold a₁
    split
    · cases hat : a.openAt? (a.openElements.length - 2) with
      | none => exact h.remark rfl id .refl
      | some group =>
        simp only [Option.bind_eq_bind, Option.bind_some, Option.pure_def, attempt_some]
        split
        · exact h.pop
        · exact h
    · exact h
  split
  · exact h₁.pop
  · exact h₁.report _ rfl

theorem performs_selectEnd (hne : b.mode ≠ .text) (hb : NoTextWaiting b) :
    Performs b (.endTag tag) (b.selectEnd tag) := by
  unfold selectEnd
  refine .ite (fun _ => ?_) fun _ => ?_
  · exact performs_quiet hb ContentChanges.refl.endOptionGroup
  refine .ite (fun _ => ?_) fun _ => ?_
  · split
    · exact performs_quiet hb ContentChanges.refl.pop
    · exact performs_refuse hb _ rfl
  refine .ite (fun _ => ?_) fun _ => ?_
  · split
    · exact performs_quiet hb (ContentChanges.refl.leaveSelect hne)
    · exact performs_refuse hb _ rfl
  refine .ite (fun _ => ?_) fun _ => ?_
  · exact performs_quiet hb (ContentChanges.refl.endTemplate hne)
  · exact performs_refuse hb _ rfl

theorem performs_inSelect (h : Spine b) (hm : InSelect b) (hb : NoTextWaiting b) :
    Performs b token (b.inSelect token) := by
  have hne : b.mode ≠ .text := ne_text_of_steady _ hm.mem_steadyModes
  obtain ⟨rest, hbones⟩ := h.bones_select hm
  cases token with
  | character c =>
    simp only [inSelect]
    split
    · exact performs_refuse hb _ rfl
    · next hc =>
      refine performs_insertChar h (h.begun_of_plain (.refl h.toSound) hm.mem_innerModes).nonempty
        hb (takesChar_of_part (fun y hy hmem => ?_) c) fun hn => absurd hn hc
      obtain hnone | hsome := (head_of_bones hbones).2 y hy
      · rw [hnone] at hmem
        simp at hmem
      · rw [hsome] at hmem
        simp at hmem
  | comment data => exact performs_insertComment h hne hb data
  | doctype d => exact performs_refuse hb _ rfl
  | startTag tag => exact performs_selectStart h hm hb
  | endTag tag => exact performs_selectEnd hne hb
  | endOfFile => exact performs_quiet hb (ContentChanges.refl.bodyEndOfFile hne)

theorem performs_inSelectInTable (h : Spine b) (hm : b.mode = .inSelectInTable)
    (hb : NoTextWaiting b) : Performs b token (b.inSelectInTable token) := by
  have hselect : Performs b token (b.inSelect token) := performs_inSelect h (Or.inr hm) hb
  have hne : b.mode ≠ .text := by rw [hm]; decide
  cases token with
  | startTag tag =>
    simp only [inSelectInTable]
    split
    · exact performs_quiet hb ((ContentChanges.refl.report _ rfl).leaveSelect hne)
    · exact hselect
  | endTag tag =>
    simp only [inSelectInTable]
    split
    · split
      · exact performs_quiet hb ((ContentChanges.refl.report _ rfl).leaveSelect hne)
      · exact performs_quiet hb (ContentChanges.refl.report _ rfl)
    · exact hselect
  | character c => exact hselect
  | comment data => exact hselect
  | doctype d => exact hselect
  | endOfFile => exact hselect

/-! ## 2. After the body -/

theorem performs_backToBody (hne : b.mode ≠ .text) (hb : NoTextWaiting b) :
    Performs b token (b.backToBody token) :=
  performs_quiet hb ((ContentChanges.refl.report _ token.isOfInput_unexpected).switchTo _ hne
    (by decide))

theorem performs_stop (hb : NoTextWaiting b) : Performs b token b.stop.done :=
  performs_quiet hb ContentChanges.refl.stopped

/-- A comment that goes behind everything else in the document. -/
theorem performs_insertLastComment (h : Spine b) (hb : NoTextWaiting b) (data : String) :
    Performs b (.comment data) (b.insertCommentIn root data).done :=
  performs_quiet hb (ContentChanges.refl.insertCommentIn h.toSound.rooted (Or.inl rfl) rfl)

/-- The document element is open after the body, too. -/
theorem performs_lateHtml (h : Spine b) (hm : IsAfterBody b) (hb : NoTextWaiting b) (tag : Tag) :
    Performs b (.startTag tag) (b.repeatedHtml tag).done :=
  performs_quiet hb (ContentChanges.refl.repeatedHtml rfl h.toSound fun _ =>
    (h.afterBody hm).1.label_bottom)

/-- A blank goes where formatting elements may be opened again. -/
theorem performs_blank (h : Sound b) (hbegun : Begun b) (hne : b.mode ≠ .text) {p : Part}
    {rest : List Part} (hbones : b.bones = p :: rest) (hp : p = .body ∨ p = .html)
    (hb : NoTextWaiting b) (c : Char) : Performs b (.character c) (b.bodyChar c).done := by
  have hpart : p.contents? = none ∧ p ∉ [Part.select, .template] := by
    rcases hp with rfl | rfl <;> decide
  have hbraced : Braced b b.openElements :=
    braced_of_bones hbones (by rcases hp with rfl | rfl <;> decide)
  have hroom : Roomy b := ⟨hne, ⟨p, rest, hbones, Or.inl hpart.1⟩, hbraced, fun names hn => by
    rw [region_eq_none hbones hpart.2] at hn
    cases hn⟩
  exact performs_of_contentChanges hb (ContentChanges.refl.bodyChar h hbegun hroom c)
    (writes_bodyChar c).1 fun h => absurd h (writes_bodyChar c).2

theorem performs_afterBody (h : Spine b) (hm : b.mode = .afterBody) (hb : NoTextWaiting b) :
    Performs b token (b.afterBody token) := by
  have hr := h.ready_afterBody (Or.inl hm)
  have hne : b.mode ≠ .text := by rw [hm]; decide
  have hbones := (h.afterBody (Or.inl hm)).2
  cases token with
  | character c =>
    simp only [TreeBuilder.afterBody]
    split
    · exact performs_blank h.toSound hr.begun hne hbones (Or.inl rfl) hb c
    · exact performs_backToBody hne hb
  | comment data =>
    -- the comment goes to the document element, the outermost one
    obtain ⟨x, hx⟩ : ∃ x, b.openAt? 0 = some x := by
      rw [openAt?, ← List.head?_eq_getElem?]
      exact Option.isSome_iff_exists.1 (List.isSome_head?.2 (by simpa using hr.begun.nonempty))
    have hlabel := (h.afterBody (Or.inl hm)).1.label_bottom hx
    refine performs_quiet hb (ContentChanges.refl.insertCommentIn h.toSound.rooted (Or.inr ?_) rfl)
    rw [hx]
    exact ⟨rfl, hlabel⟩
  | doctype d => exact performs_refuse hb _ rfl
  | startTag tag =>
    simp only [TreeBuilder.afterBody]
    split
    · exact performs_lateHtml h (Or.inl hm) hb tag
    · exact performs_backToBody hne hb
  | endTag tag =>
    simp only [TreeBuilder.afterBody]
    split
    · exact performs_quiet hb (ContentChanges.refl.switchTo _ hne (by decide))
    · exact performs_backToBody hne hb
  | endOfFile => exact performs_stop hb

theorem performs_afterAfterBody (h : Spine b) (hm : b.mode = .afterAfterBody)
    (hb : NoTextWaiting b) : Performs b token (b.afterAfterBody token) := by
  have hr := h.ready_afterBody (Or.inr hm)
  have hne : b.mode ≠ .text := by rw [hm]; decide
  have hbones := (h.afterBody (Or.inr hm)).2
  cases token with
  | character c =>
    simp only [afterAfterBody]
    split
    · exact performs_blank h.toSound hr.begun hne hbones (Or.inl rfl) hb c
    · exact performs_backToBody hne hb
  | comment data => exact performs_insertLastComment h hb data
  | doctype d => exact performs_refuse hb _ rfl
  | startTag tag =>
    simp only [afterAfterBody]
    split
    · exact performs_lateHtml h (Or.inr hm) hb tag
    · exact performs_backToBody hne hb
  | endTag tag => exact performs_backToBody hne hb
  | endOfFile => exact performs_stop hb

/-! ## 3. Framesets -/

/-- The parts that are open in framesets and outside them. -/
theorem takes_inFrameset {p : Part} {rest : List Part} (hbones : b.bones = p :: rest)
    (hp : p = .frameset ∨ p = .html) {name : String}
    (hname : name ∈ ["frameset", "frame", "noframes"]) : Takes b (.html, name) := by
  have hflow : ∀ name ∈ ["frameset", "frame", "noframes"], name ∉ Category.tableStructure := by
    decide
  refine takes_of_bones hbones (fun _ => hflow name hname) (Or.inl fun names hnames => ⟨rfl, ?_⟩)
    (braced_of_bones hbones (by rcases hp with rfl | rfl <;> decide))
  rcases hp with rfl | rfl
  · cases hnames
    exact hname
  · cases hnames

theorem performs_noframes (h : Spine b) (hne : b.mode ≠ .text) {p : Part} {rest : List Part}
    (hbones : b.bones = p :: rest) (hp : p = .frameset ∨ p = .html) (hb : NoTextWaiting b)
    (hname : tag.name = "noframes") : Performs b (.startTag tag) (b.startHeadContent tag).done :=
  performs_headContent h hne hb (by rw [hname]; decide)
    (takes_inFrameset hbones hp (by rw [hname]; decide))

theorem performs_inFrameset (h : Spine b) (hm : b.mode = .inFrameset) (hb : NoTextWaiting b) :
    Performs b token (b.inFrameset token) := by
  have hne : b.mode ≠ .text := by rw [hm]; decide
  obtain ⟨rest, hbones⟩ :=
    (h.steady (by rw [hm]; decide)).bones_eq (p := .frameset) (by rw [hm]; rfl)
  cases token with
  | character c =>
    simp only [inFrameset]
    split
    · next hspace =>
      exact performs_insertSpace h (h.begun (by rw [hm]; decide)).nonempty hb hspace
    · exact performs_refuse hb _ rfl
  | comment data => exact performs_insertComment h hne hb data
  | doctype d => exact performs_refuse hb _ rfl
  | startTag tag =>
    simp only [inFrameset]
    refine .ite (fun _ => ?_) fun _ => ?_
    · exact performs_repeatedHtml h (by rw [hm]; decide) hb tag
    refine .ite (fun hname => ?_) fun _ => ?_
    · have hpart : Part.ofName? tag.name = some .frameset := by rw [hname]; decide
      have ho : Hosts b (.html, tag.name) := hosts_of_part hpart hne
        (takes_inFrameset hbones (Or.inl rfl) (by rw [hname]; decide))
        (spares_of_not_mem (by rw [hname]; decide))
      refine performs_quiet hb (ContentChanges.refl.insertElement tag.attributes
        (fun _ => by rw [hname]; decide) (fun p hp => ?_) ho (.tag rfl))
      obtain rfl := Option.some.inj (hpart.symm.trans hp)
      exact ⟨⟨tag, rfl, hname⟩, by decide⟩
    refine .ite (fun hname => ?_) fun _ => ?_
    · exact performs_quiet hb
        (ContentChanges.refl.insertVoid (by rw [hname]; decide) (by rw [hname]; decide)
          (by rw [hname]; decide) hne (takes_inFrameset hbones (Or.inl rfl) (by rw [hname]; decide))
          (Or.inr (spares_of_not_mem (by rw [hname]; decide))) rfl)
    refine .ite (fun hname => ?_) fun _ => ?_
    · exact performs_noframes h hne hbones (Or.inl rfl) hb hname
    · exact performs_refuse hb _ rfl
  | endTag tag =>
    simp only [inFrameset]
    split
    · split
      · exact performs_refuse hb _ rfl
      · refine performs_quiet hb ?_
        change ContentChanges _ _ _ _ (if _ then _ else _)
        split
        · exact ContentChanges.refl.pop
        · -- this is where the outermost frameset is over
          exact ContentChanges.refl.pop.note ⟨rfl, rfl, rfl, rfl, id, fun hne => absurd hm hne, rfl,
            .refl⟩ (List.suffix_refl _) rfl rfl hne
    · exact performs_refuse hb _ rfl
  | endOfFile => exact performs_quiet hb (ContentChanges.refl.reportIf _ _ rfl).stopped

/-- Only the document element is open after a frameset. -/
theorem Spine.bones_afterFrameset (h : Spine b)
    (hm : b.mode = .afterFrameset ∨ b.mode = .afterAfterFrameset) : b.bones = [.html] := by
  have hs := h.standing
  rcases hm with hm | hm <;> rw [hm] at hs <;> exact hs.1

theorem performs_repeatedHtmlAfter (h : Spine b) (hbones : b.bones = [.html]) (hl : b.tree.Leafy)
    (hb : NoTextWaiting b) (tag : Tag) : Performs b (.startTag tag) (b.repeatedHtml tag).done :=
  performs_quiet hb (ContentChanges.refl.repeatedHtml rfl h.toSound
    fun _ => label_bottom_of_bones h.toSound hl hbones)

theorem performs_afterFrameset (h : Spine b) (hm : b.mode = .afterFrameset) (hl : b.tree.Leafy)
    (hb : NoTextWaiting b) : Performs b token (b.afterFrameset token) := by
  have hne : b.mode ≠ .text := by rw [hm]; decide
  have hbones := h.bones_afterFrameset (Or.inl hm)
  cases token with
  | character c =>
    simp only [afterFrameset]
    split
    · next hspace =>
      exact performs_insertSpace h (h.begun (by rw [hm]; decide)).nonempty hb hspace
    · exact performs_refuse hb _ rfl
  | comment data => exact performs_insertComment h hne hb data
  | doctype d => exact performs_refuse hb _ rfl
  | startTag tag =>
    simp only [afterFrameset]
    refine .ite (fun _ => ?_) fun _ => ?_
    · exact performs_repeatedHtmlAfter h hbones hl hb tag
    refine .ite (fun hname => ?_) fun _ => ?_
    · exact performs_noframes h hne hbones (Or.inr rfl) hb hname
    · exact performs_refuse hb _ rfl
  | endTag tag =>
    simp only [afterFrameset]
    split
    · refine performs_quiet hb
        (ContentChanges.refl.note ⟨rfl, rfl, rfl, rfl, id, fun _ hc => absurd hc.mode ?_, rfl,
          .refl⟩
        (List.suffix_refl _) rfl rfl hne)
      rw [hm]
      decide
    · exact performs_refuse hb _ rfl
  | endOfFile => exact performs_stop hb

theorem performs_afterAfterFrameset (h : Spine b) (hm : b.mode = .afterAfterFrameset)
    (hl : b.tree.Leafy) (hb : NoTextWaiting b) : Performs b token (b.afterAfterFrameset token) := by
  have hne : b.mode ≠ .text := by rw [hm]; decide
  have hbones := h.bones_afterFrameset (Or.inr hm)
  cases token with
  | character c =>
    simp only [afterAfterFrameset]
    split
    · exact performs_blank h.toSound (h.begun (by rw [hm]; decide)) hne hbones (Or.inr rfl) hb c
    · exact performs_refuse hb _ rfl
  | comment data => exact performs_insertLastComment h hb data
  | doctype d => exact performs_refuse hb _ rfl
  | startTag tag =>
    simp only [afterAfterFrameset]
    refine .ite (fun _ => ?_) fun _ => ?_
    · exact performs_repeatedHtmlAfter h hbones hl hb tag
    refine .ite (fun hname => ?_) fun _ => ?_
    · exact performs_noframes h hne hbones (Or.inr rfl) hb hname
    · exact performs_refuse hb _ rfl
  | endTag tag => exact performs_refuse hb _ rfl
  | endOfFile => exact performs_stop hb

end Hypertext.TreeBuilder
