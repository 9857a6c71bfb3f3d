import Hypertext.Proofs.TreeBuilder.Rules.Body
import Hypertext.TreeBuilder.Rules.Table

/-!
# The rules in tables are lawful

The start tag of a part opens the parts around it that are missing, one at a time; a tag that does
not belong into a part closes it. Each of the two brings the token nearer to the part that has a
rule for it, so it is not handed on for ever.
-/

namespace Hypertext.TreeBuilder

open Hypertext.Tree

variable {b b' : TreeBuilder} {token : Token} {tag : Tag}

/-! ## 1. Content before the table -/

theorem Spine.setFostering (h : Spine b) (fostering : Bool) : Spine { b with fostering } :=
  h.update _ _ _ _ _ _

theorem Quiet.setFostering {fostering fostering' : Bool}
    (h : Quiet { b with fostering } b') : Quiet b { b' with fostering := fostering' } :=
  ⟨h.request, h.text⟩

/-- Where content is put is no matter to the rules. -/
theorem Lawful.setFostering {o : Outcome} (h : Lawful { b with fostering := true } token o) :
    Lawful b token { o with builder := { o.builder with fostering := false } } := by
  obtain ⟨builder, next⟩ := o
  refine ⟨?_, ?_⟩
  · have hnext := h.next
    cases next with
    | done =>
      exact ⟨fun ht => (hnext.1 ht).setFostering false, fun ht => (hnext.2 ht).update _ _ _ _ _ _⟩
    | reprocess token' => exact ⟨hnext.1.setFostering false, hnext.2⟩
    | byMode token' => exact hnext
  · rcases h.asks with hq | ⟨tag, ht, hdone, hr⟩
    · exact Or.inl hq.setFostering
    · refine Or.inr ⟨tag, ht, hdone, ?_⟩
      cases hr with
      | text kind x outer mode request stack label name =>
        exact .text kind x outer mode request stack label name
      | plaintext mode request name => exact .plaintext mode request name

theorem lawful_fosterParent (h : Spine b) (hm : b.mode ∈ bodyModes) (hp : Proper b.mode token) :
    Lawful b token (b.fosterParent token) :=
  (lawful_inBody (b := { b with fostering := true }) (h.setFostering true) hm hp).setFostering

theorem lawful_misplacedInTable (h : Spine b) (hm : b.mode ∈ bodyModes) (hp : Proper b.mode token) :
    Lawful b token (b.misplacedInTable token) := by
  have hreport : ∀ kind, Lawful b token ((b.report kind).fosterParent token) := by
    intro kind
    have p := plain_report h.toSound kind
    exact (lawful_fosterParent (h.still p rfl) hm hp).of_plain p
      (ne_text_of_steady _ (mem_steadyModes_of_bodyModes _ hm))
  unfold misplacedInTable
  split
  · exact lawful_fosterParent h hm hp
  · exact hreport _
  · exact hreport _

/-! ## 2. Between the parts of a table -/

theorem mem_bodyModes_of_tableModes : ∀ mode ∈ tableModes, mode ∈ bodyModes := by decide

/-- Everything is closed up to the innermost part. -/
theorem popTo_top (h : Spine b) (names : List String) (hm : b.mode ∈ steadyModes)
    (hnames : ∀ name ∈ names, Part.ofName? name ≠ none)
    (hsub : ∀ p ∈ Frame.innermost b.mode.kind, p.names ⊆ names) :
    Plain b (b.popTo names) ∧ ∀ y ∈ (b.popTo names).openElements.head?,
      ∃ p ∈ Frame.innermost b.mode.kind, (b.popTo names).tree.part? y = some p := by
  obtain ⟨p, rest, hb, hp⟩ := (h.steady hm).innermost
  obtain ⟨plain, x, outer, hopen, hx⟩ := popTo_innermost h.toSound hb hnames (hsub p hp)
  refine ⟨plain, fun y hy => ⟨p, hp, ?_⟩⟩
  rw [hopen] at hy
  cases hy
  exact hx

/-- In the mode of a table everything in it is closed up to the table, or the template that
stands for one. -/
theorem popToTable_top (h : Spine b) (hm : b.mode = .inTable) :
    Plain b b.popToTable ∧ ∀ y ∈ b.popToTable.openElements.head?,
      b.popToTable.tree.part? y ∈ [some Part.table, some .template] := by
  obtain ⟨plain, htop⟩ := popTo_top h ["table", "template", "html"] (by rw [hm]; decide)
    (by decide) (by rw [hm]; decide)
  refine ⟨plain, fun y hy => ?_⟩
  obtain ⟨p, hp, hy⟩ := htop y hy
  rw [hm] at hp
  have hp : p ∈ [Part.table, .template] := hp
  rw [popToTable, hy]
  simpa using hp

/-- A part is opened in a table. -/
theorem spine_tablePart (h : Spine b) (hm : b.mode = .inTable) {b₁ : TreeBuilder} {name : String}
    {q : Part} (p : Plain b.popToTable b₁)
    (hopen : b₁.openElements = b.popToTable.openElements)
    (p' : Pushed b₁ b' (.html, name)) (hname : Part.ofName? name = some q)
    (hq : q ∈ [Part.caption, .columns, .rowGroup]) (mode : InsertionMode)
    (hmode : ∀ modes headSeen rest, mode.kind = modeOf modes headSeen (q :: rest)) :
    Spine (b'.switchTo mode) ∧ b'.stateRequest = b.stateRequest := by
  obtain ⟨p₀, htop⟩ := popToTable_top h hm
  refine h.opened (p₀.trans p) p' hname ?_ (fun y hy => ?_) mode hmode
  · rw [hm]
    revert hq
    cases q <;> simp [Part.hosts]
  · rw [hopen] at hy
    have hy' := htop y hy
    obtain ⟨l, hl⟩ := Option.isSome_iff_exists.1
      (p₀.sound.planted.element y (List.mem_of_mem_head? hy))
    rw [← p.same.keeps.part hl] at hy'
    revert hq
    cases q <;> simp [Sits] <;> simpa using hy'

theorem lawful_tablePart (h : Spine b) (hm : b.mode = .inTable) {q : Part} {mode : InsertionMode}
    (hname : Part.ofName? tag.name = some q) (hq : q ∈ [Part.columns, .rowGroup])
    (hmode : ∀ modes headSeen rest, mode.kind = modeOf modes headSeen (q :: rest))
    (htext : mode ≠ .text) :
    Lawful b (.startTag tag) ((b.popToTable.insertHtml tag).switchTo mode).done := by
  obtain ⟨p₀, -⟩ := popToTable_top h hm
  have hne := not_outer_of_part (l := (.html, tag.name)) hname (by revert hq; cases q <;> simp)
  have hbegun := h.begun_of_plain p₀ (by rw [hm]; decide)
  have p' := pushed_insertElement p₀.sound hbegun _ _ hne tag.attributes
  obtain ⟨hspine, hrequest⟩ := spine_tablePart h hm (.refl p₀.sound) rfl p' hname
    (List.mem_cons_of_mem _ hq) _ hmode
  exact lawful_done hspine (by simp) (quiet_of_ne hrequest htext)

/-- A part that is missing around the element of a start tag is opened, and the tag handed on. -/
theorem lawful_missingPart (h : Spine b) (hm : b.mode = .inTable) {name : String} {q : Part}
    {mode : InsertionMode} (hname : Part.ofName? name = some q) (hq : q ∈ [Part.columns, .rowGroup])
    (hmode : ∀ modes headSeen rest, mode.kind = modeOf modes headSeen (q :: rest))
    (htext : mode ≠ .text)
    (hr : modeRank (.ofName tag.name) mode < modeRank (.ofName tag.name) .inTable) :
    Lawful b (.startTag tag)
      (((b.popToTable.insertNamed name).switchTo mode).reprocess (.startTag tag)) := by
  obtain ⟨p₀, -⟩ := popToTable_top h hm
  have hne := not_outer_of_part (l := (.html, name)) hname (by revert hq; cases q <;> simp)
  have hbegun := h.begun_of_plain p₀ (by rw [hm]; decide)
  have p' := pushed_insertElement p₀.sound hbegun _ _ hne []
  obtain ⟨hspine, hrequest⟩ := spine_tablePart h hm (.refl p₀.sound) rfl p' hname
    (List.mem_cons_of_mem _ hq) _ hmode
  refine lawful_reprocess hspine (rank_lt_of_modeRank (by simp) ?_) (quiet_of_ne hrequest htext)
  rw [hm]
  exact hr

theorem lawful_caption (h : Spine b) (hm : b.mode = .inTable) (hname : tag.name = "caption") :
    Lawful b (.startTag tag)
      ((b.popToTable.insertMarker.insertHtml tag).switchTo .inCaption).done := by
  obtain ⟨p₀, -⟩ := popToTable_top h hm
  have p := plain_insertMarker p₀.sound
  have hbegun := h.begun_of_plain (p₀.trans p) (by rw [hm]; decide)
  have hpart : partOf (.html, tag.name) = some .caption := by rw [hname]; decide
  have p' := pushed_insertElement p.sound hbegun tag.name .html (not_outer_of_part hpart (by simp))
    tag.attributes
  obtain ⟨hspine, hrequest⟩ := spine_tablePart h hm p rfl p' hpart (by simp) .inCaption
    fun _ _ _ => rfl
  exact lawful_done hspine (by simp) (quiet_of_ne hrequest (by simp [switchTo]))

/-- A table in scope is closed. -/
theorem leaves_table (h : Spine b) (hm : b.mode ∈ tableModes)
    (hin : b.inScope .table "table" = true) : Leaves b (b.popThroughName "table") .table := by
  have hs := h.steady (mem_steadyModes_of_bodyModes _ (mem_bodyModes_of_tableModes _ hm))
  have he := enclosed_of_inScope (q := .table) (by decide) hin
  rw [isHtmlOf_singleton] at he
  exact leaves_popThrough h.toSound hs.1 (by simp [Part.CanLeave]) he

theorem spine_leaveTable (h : Spine b) (hm : b.mode ∈ tableModes)
    (hin : b.inScope .table "table" = true) :
    Spine b.leaveTable ∧ b.leaveTable.mode ∈ Part.table.hosts := by
  have l := leaves_table h hm hin
  refine ⟨spine_resetMode l.sound l.framed, ?_⟩
  have hmode := l.mode_mem (by simp [Part.hosts])
  change (b.popThroughName "table").appropriateMode ∈ _
  revert hmode
  cases (b.popThroughName "table").appropriateMode <;> simp [Part.hosts, InsertionMode.kind]

theorem ne_text_of_hosts : ∀ mode ∈ Part.table.hosts ++ Part.select.hosts, mode ≠ .text := by decide

/-- What the kind of a start tag in a table says about its name. -/
def TableStart.Allows : TableStart → String → Prop
  | .caption, name => name = "caption"
  | .columnGroup, name => name = "colgroup"
  | .column, name => name = "col"
  | .section, name => name ∈ Category.tableSections
  | .rowOrCell, name => name ∈ ["td", "th", "tr"]
  | .table, name => name = "table"
  | .headContent, name => name ∈ ["style", "script", "template"]
  | .input, name => name = "input"
  | .form, name => name = "form"
  | .other, _ => True

theorem TableStart.allows_ofName (name : String) : (TableStart.ofName name).Allows name := by
  unfold TableStart.ofName
  repeat' refine iteInduction (motive := (TableStart.Allows · name)) ?_ fun _ => ?_
  all_goals first
    | exact True.intro
    | exact fun h => h
    | exact List.contains_iff_mem.1

theorem ofName?_tableSections : ∀ name ∈ Category.tableSections,
    Part.ofName? name = some .rowGroup ∧ name ∈ Category.tableStructure := by decide

theorem modeRank_rowOrCell : ∀ name ∈ ["td", "th", "tr"], name ∈ Category.tableStructure ∧
    modeRank (.ofName name) .inTableBody < modeRank (.ofName name) .inTable := by decide

theorem modeRank_table : ∀ mode ∈ tableModes, ∀ host ∈ Part.table.hosts,
    modeRank .table host < modeRank .table mode := by decide

/-- A form in a table is closed at once, but remembered. -/
theorem plain_tableForm (h : Sound b) (hb : Begun b) (hname : tag.name = "form") :
    Plain b { b.insertHtml tag with formElement := (b.insertHtml tag).currentNode? }.pop := by
  have p := pushed_insertElement h hb tag.name .html (by rw [hname]; decide) tag.attributes
  obtain ⟨id, hopen, hl⟩ := p.stack
  refine (p.popped h).next fun h => plain_formElement h fun f hf => ?_
  have hcurrent : (b.insertHtml tag).currentNode? = some id := congrArg List.head? hopen
  obtain rfl : id = f := Option.some.inj (hcurrent.symm.trans hf)
  have hl : (b.insertHtml tag).tree.label? id = some (.html, tag.name) := hl
  rw [hname] at hl
  exact hl

theorem lawful_tableStart (h : Spine b) (hm : b.mode ∈ tableModes)
    (hp : b.mode = .inTable ∨ tag.name ∉ Category.tableStructure) :
    Lawful b (.startTag tag) (b.tableStart tag) := by
  have hbody := mem_bodyModes_of_tableModes _ hm
  have hsteady := mem_steadyModes_of_bodyModes _ hbody
  have hmode : b.mode ≠ .text ∧ b.mode ≠ .inTableText := by
    revert hm
    cases b.mode <;> simp [tableModes]
  have hkeep : b.mode ∉ [InsertionMode.initial, .beforeHtml, .inHeadNoscript, .text] := by
    revert hm
    cases b.mode <;> simp [tableModes]
  have hin : tag.name ∈ Category.tableStructure → b.mode = .inTable := fun hname =>
    hp.resolve_right fun hn => hn hname
  have p := plain_report h.toSound .unexpectedStartTag
  have hinner := mem_innerModes_of_bodyModes _ hbody
  have hbegun := h.begun_of_plain (.refl h.toSound) hinner
  have hbegun' := h.begun_of_plain p hinner
  have hname := TableStart.allows_ofName tag.name
  unfold tableStart
  cases hkind : TableStart.ofName tag.name <;> simp only [hkind, TableStart.Allows] at hname ⊢
  case caption => exact lawful_caption h (hin (by rw [hname]; decide)) hname
  case columnGroup =>
    exact lawful_tablePart h (hin (by rw [hname]; decide)) (q := .columns) (by rw [hname]; decide)
      (by decide) (fun _ _ _ => rfl) (by decide)
  case column =>
    exact lawful_missingPart h (hin (by rw [hname]; decide)) (q := .columns) (by decide) (by decide)
      (fun _ _ _ => rfl) (by decide) (by rw [hname]; decide)
  case «section» =>
    obtain ⟨hpart, hstructure⟩ := ofName?_tableSections _ hname
    exact lawful_tablePart h (hin hstructure) hpart (by decide) (fun _ _ _ => rfl) (by decide)
  case rowOrCell =>
    obtain ⟨hstructure, hrank⟩ := modeRank_rowOrCell _ hname
    exact lawful_missingPart h (hin hstructure) (q := .rowGroup) (by decide) (by decide)
      (fun _ _ _ => rfl) (by decide) hrank
  case table =>
    split
    · -- the open table ends first, and the mode outside it gets the tag
      next hscope =>
      obtain ⟨hspine, hhost⟩ := spine_leaveTable (h.still p rfl) hm hscope
      refine lawful_reprocess hspine (rank_lt_of_modeRank (by simp) ?_)
        (quiet_of_ne rfl (ne_text_of_hosts _ (List.mem_append_left _ hhost)))
      have hcourse : Course.of (.startTag tag) = .table := by rw [Course.of, hname]; rfl
      rw [hcourse]
      exact modeRank_table _ hm _ hhost
    · exact lawful_plain h p hkeep (by simp)
  case headContent =>
    have hall : ∀ name ∈ ["style", "script", "template"], name ∈ Category.headContent := by decide
    exact lawful_startHeadContent h hbegun hmode (fun _ => hsteady) (hall _ hname)
  case input =>
    split
    · exact lawful_plain h (p.next fun h => plain_insertVoid h hbegun' (by rw [hname]; decide))
        hkeep (by simp)
    · exact lawful_misplacedInTable h hbody fun he => absurd (hname.symm.trans he) (by decide)
  case form =>
    split
    · exact lawful_plain h p hkeep (by simp)
    · exact lawful_plain h (p.next fun h => plain_tableForm h hbegun' hname) hkeep (by simp)
  case other =>
    refine lawful_misplacedInTable h hbody fun he => ?_
    rw [he] at hkind
    exact absurd hkind (by decide)

theorem lawful_tableEnd (h : Spine b) (hm : b.mode ∈ tableModes) :
    Lawful b (.endTag tag) (b.tableEnd tag) := by
  have hbody := mem_bodyModes_of_tableModes _ hm
  unfold tableEnd
  refine .ite (fun _ => ?_) fun htable => ?_
  · split
    · next hscope =>
      obtain ⟨hspine, hhost⟩ := spine_leaveTable h hm hscope
      exact lawful_done hspine (by simp)
        (quiet_of_ne rfl (ne_text_of_hosts _ (List.mem_append_left _ hhost)))
    · exact lawful_refuse h _ (by simp)
  refine .ite (fun _ => ?_) fun hpart => ?_
  · exact lawful_refuse h _ (by simp)
  refine .ite (fun _ => ?_) fun _ => ?_
  · exact lawful_endTemplate h (mem_steadyModes_of_bodyModes _ hbody) (by simp)
  · refine lawful_misplacedInTable h hbody (Or.inr fun hname => ?_)
    simp only [isTablePartEnd, List.contains_iff_mem] at hpart
    simp only [List.mem_cons, List.not_mem_nil, or_false] at hname hpart
    grind

theorem lawful_tableChar (h : Spine b) (hm : b.mode ∈ tableModes) (c : Char) :
    Lawful b (.character c) (b.tableChar c) := by
  have hbody := mem_bodyModes_of_tableModes _ hm
  have hs := h.steady (mem_steadyModes_of_bodyModes _ hbody)
  unfold tableChar
  split
  · have hsound : Sound
        { b with tableText := [], resumeMode := some b.mode, mode := .inTableText } :=
      ⟨h.planted, h.named, h.form, h.frameset, h.running, h.intact⟩
    refine lawful_reprocess ⟨hsound, b.mode, hm, rfl, hs⟩ (rank_lt_of_modeRank (by simp) ?_)
      (quiet_of_ne rfl (by simp))
    change modeRank .char .inTableText < modeRank .char b.mode
    have hrank : ∀ mode ∈ tableModes, modeRank .char .inTableText < modeRank .char mode := by decide
    exact hrank _ hm
  · have p := plain_report h.toSound .unexpectedText
    have hp : Proper b.mode (.character c) := trivial
    exact (lawful_misplacedInTable (h.still p rfl) hbody hp).of_plain p
      (ne_text_of_steady _ (mem_steadyModes_of_bodyModes _ hbody))

/-- The rules of tables, as far as a mode does not have its own. -/
theorem lawful_table (h : Spine b) (hm : b.mode ∈ tableModes)
    (hp : ∀ tag, token = .startTag tag → b.mode = .inTable ∨ tag.name ∉ Category.tableStructure) :
    Lawful b token (b.inTable token) := by
  cases token with
  | character c => exact lawful_tableChar h hm c
  | comment data => exact lawful_insertComment h data
  | doctype d => exact lawful_refuse h _ (by simp)
  | startTag tag => exact lawful_tableStart h hm (hp tag rfl)
  | endTag tag => exact lawful_tableEnd h hm
  | endOfFile =>
    exact lawful_bodyEndOfFile h (mem_innerModes_of_bodyModes _ (mem_bodyModes_of_tableModes _ hm))

theorem lawful_inTable (h : Spine b) (hm : b.mode = .inTable) : Lawful b token (b.inTable token) :=
  lawful_table h (by rw [hm]; decide) fun _ _ => Or.inl hm

/-! ## 3. Text in tables -/

theorem plain_tableText (h : Sound b) (text : List Char) : Plain b { b with tableText := text } :=
  plain_update h _ _ _ _ _ _ id

theorem plain_setFostering (h : Sound b) (fostering : Bool) : Plain b { b with fostering } :=
  plain_update h _ _ _ _ _ _ id

theorem plain_foldl {α : Type} {f : TreeBuilder → α → TreeBuilder}
    (hf : ∀ b a, Ready b → Plain b (f b a)) (l : List α) (h : Ready b) : Plain b (l.foldl f b) := by
  induction l generalizing b with
  | nil => exact .refl h.toSound
  | cons a l ih => exact (hf b a h).andThen h ih

theorem plain_misplacedChar (h : Ready b) (c : Char) :
    Plain b (b.misplacedInTable (.character c)).builder :=
  ((plain_setFostering h.toSound true).andThen h fun h => plain_bodyChar h c).next fun h =>
    plain_setFostering h false

theorem plain_flushTableText (h : Ready b) : Plain b b.flushTableText := by
  unfold flushTableText
  extract_lets text b₁
  have p : Plain b b₁ := plain_tableText h.toSound []
  split
  · exact p.andThen h (plain_foldl (fun b c h => plain_insertChar h.toSound c) text)
  · exact (p.next fun h => plain_report h _).andThen h
      (plain_foldl (fun b c h => plain_misplacedChar h c) text)

/-- The collected text is inserted, and the mode is that of the table again. -/
theorem spine_flushTableText (h : Spine b) (hm : b.mode = .inTableText) :
    Spine b.flushTableText.resume ∧ b.flushTableText.resume.mode ∈ tableModes ∧
      b.flushTableText.templateModes = b.templateModes ∧
      b.flushTableText.stateRequest = b.stateRequest := by
  have hs := h.standing
  rw [hm] at hs
  obtain ⟨mode, hmem, hresume, hs⟩ := hs
  have hready : Ready b :=
    ready_of_steady h.toSound hs (List.mem_cons_of_mem _ (mem_bodyModes_of_tableModes _ hmem))
  have p := plain_flushTableText hready
  have hmode : b.flushTableText.resume.mode = mode := by
    rw [resume, p.same.resume, hresume]
    rfl
  have hsound : Sound b.flushTableText.resume :=
    ⟨p.sound.planted, p.sound.named, p.sound.form, p.sound.frameset, p.sound.running,
      p.sound.intact⟩
  have hs' := hs.plain p
  rw [← hmode] at hs'
  exact ⟨spine_of_steady hsound hs', hmode ▸ hmem, p.same.modes, p.same.request⟩

theorem lawful_inTableText (h : Spine b) (hm : b.mode = .inTableText) :
    Lawful b token (b.inTableText token) := by
  -- the mode that comes back is one of tables, where every token has a smaller rank
  have hother : (∀ c, token ≠ .character c) →
      Lawful b token (b.flushTableText.resume.reprocess token) := by
    intro hc
    obtain ⟨hspine, hmode, hmodes, hrequest⟩ := spine_flushTableText h hm
    have hend : ∀ mode ∈ tableModes, endRank mode < endRank .inTableText := by decide
    have hrank : ∀ mode ∈ tableModes, ∀ course : Course, modeRank course mode < 4 := by
      intro mode hmode course
      revert hmode
      cases mode <;> cases course <;> decide
    have hcourse : Course.of token ≠ .char := by
      cases token with
      | character c => exact absurd rfl (hc c)
      | startTag tag => exact (Course.ofName_ne tag.name).2
      | endTag tag =>
        simp only [Course.of]
        split <;> simp
      | comment data => simp [Course.of]
      | doctype d => simp [Course.of]
      | endOfFile => simp [Course.of]
    refine lawful_reprocess hspine (rank_lt hmodes ?_ ?_)
      (quiet_of_ne hrequest (by rintro he; rw [he] at hmode; revert hmode; decide))
    · rw [hm]
      exact hend _ hmode
    · have hfour : modeRank (.of token) .inTableText = 4 := if_neg hcourse
      rw [hm, hfour]
      exact hrank _ hmode _
  cases token with
  | character c =>
    simp only [inTableText]
    split
    · exact lawful_refuse h _ (by simp)
    · exact lawful_still h (plain_tableText h.toSound _) rfl (by simp)
  | comment data => exact hother (by simp)
  | doctype d => exact hother (by simp)
  | startTag tag => exact hother (by simp)
  | endTag tag => exact hother (by simp)
  | endOfFile => exact hother (by simp)

/-! ## 4. Captions and columns -/

/-- The mode of a caption is left for that of the table. -/
theorem spine_endCaption (h : Spine b) (hm : b.mode = .inCaption)
    (hin : b.inScope .table "caption" = true) :
    Spine ((b.closeNamed "caption" none).clearToMarker.switchTo .inTable) ∧
      (b.closeNamed "caption" none).stateRequest = b.stateRequest := by
  have hs := h.steady (by rw [hm]; decide)
  have l := leaves_closeNamed h.toSound hs.1 (q := .caption) (by simp [Part.CanLeave])
    (enclosed_of_inScope (by decide) hin) (by decide)
  exact ⟨(l.plain (plain_clearToMarker l.sound)).spine rfl (by decide), l.request⟩

theorem lawful_endCaption (h : Spine b) (hm : b.mode = .inCaption) (ht : token ≠ .endOfFile) :
    Lawful b token (b.endCaption done) := by
  unfold endCaption
  split
  · next hin =>
    obtain ⟨hspine, hrequest⟩ := spine_endCaption h hm hin
    exact lawful_done hspine ht (quiet_of_ne hrequest (by simp [switchTo]))
  · exact lawful_refuse h _ ht

theorem lawful_leaveCaption (h : Spine b) (hm : b.mode = .inCaption) (ht : token ≠ .endOfFile)
    (hr : modeRank (.of token) .inTable < modeRank (.of token) .inCaption) :
    Lawful b token (b.endCaption (·.reprocess token)) := by
  unfold endCaption
  split
  · next hin =>
    obtain ⟨hspine, hrequest⟩ := spine_endCaption h hm hin
    refine lawful_reprocess hspine (rank_lt_of_modeRank ht ?_)
      (quiet_of_ne hrequest (by simp [switchTo]))
    rw [hm]
    exact hr
  · exact lawful_refuse h _ ht

theorem modeRank_tableStructure : ∀ name ∈ Category.tableStructure,
    modeRank (.ofName name) .inTable < modeRank (.ofName name) .inCaption ∧
      modeRank (.ofName name) .inRow < modeRank (.ofName name) .inCell := by decide

theorem lawful_inCaption (h : Spine b) (hm : b.mode = .inCaption) :
    Lawful b token (b.inCaption token) := by
  have hbody : b.mode ∈ bodyModes := by rw [hm]; decide
  have hinBody : Proper b.mode token → Lawful b token (b.inBody token) := lawful_inBody h hbody
  cases token with
  | startTag tag =>
    simp only [inCaption]
    split
    · next hname =>
      have hrank := (modeRank_tableStructure _ (List.contains_iff_mem.1 hname)).1
      exact lawful_leaveCaption h hm (by simp) hrank
    · exact hinBody fun _ => by rw [hm]; decide
  | endTag tag =>
    simp only [inCaption]
    refine .ite (fun _ => ?_) fun hcaption => ?_
    · exact lawful_endCaption h hm (by simp)
    refine .ite (fun hname => ?_) fun htable => ?_
    · refine lawful_leaveCaption h hm (by simp) ?_
      rw [Course.of, hname]
      decide
    refine .ite (fun _ => ?_) fun hpart => ?_
    · exact lawful_refuse h _ (by simp)
    · -- the end tags that tables have rules of their own for have all been dealt with
      refine hinBody (Or.inr fun hname => ?_)
      simp only [isTablePartEnd, List.contains_iff_mem] at hpart
      simp only [List.mem_cons, List.not_mem_nil, or_false] at hname hpart
      grind
  | character c => exact hinBody trivial
  | comment data => exact hinBody trivial
  | doctype d => exact hinBody trivial
  | endOfFile => exact hinBody trivial

/-- The group of columns is the current node, and is closed. -/
theorem spine_endColumns (h : Spine b) (hm : b.mode = .inColumnGroup)
    (hc : b.currentIs "colgroup" = true) : Spine (b.pop.switchTo .inTable) := by
  have hs := h.steady (by rw [hm]; decide)
  obtain ⟨x, outer, hopen, hhtml⟩ := currentIs_iff.1 hc
  have hpart : b.tree.part? x = some .columns :=
    (part?_of_label (isHtml_iff.1 hhtml)).trans (by decide)
  exact (leaves_pop h.toSound hs.1 hopen hpart (by simp [Part.CanLeave])).spine rfl (by decide)

theorem lawful_leaveColumnGroup (h : Spine b) (hm : b.mode = .inColumnGroup)
    (ht : token ≠ .endOfFile) (hcourse : Course.of token ≠ .column) :
    Lawful b token (b.leaveColumnGroup token) := by
  unfold leaveColumnGroup
  split
  · next hc =>
    refine lawful_reprocess (spine_endColumns h hm hc) (rank_lt_of_modeRank ht ?_)
      (quiet_of_ne rfl (by simp [switchTo]))
    rw [hm]
    change modeRank (.of token) .inTable < _
    revert hcourse
    cases Course.of token <;> decide
  · exact lawful_refuse h _ ht

theorem lawful_inColumnGroup (h : Spine b) (hm : b.mode = .inColumnGroup) :
    Lawful b token (b.inColumnGroup token) := by
  have hsteady : b.mode ∈ steadyModes := by rw [hm]; decide
  cases token with
  | character c =>
    simp only [inColumnGroup]
    split
    · exact lawful_insertChar h c
    · exact lawful_leaveColumnGroup h hm (by simp) (by simp [Course.of])
  | comment data => exact lawful_insertComment h data
  | doctype d => exact lawful_refuse h _ (by simp)
  | startTag tag =>
    simp only [inColumnGroup]
    have hbegun := h.begun (by rw [hm]; decide)
    refine .ite (fun _ => ?_) fun _ => ?_
    · exact lawful_repeatedHtml h tag
    refine .ite (fun hname => ?_) fun hcol => ?_
    · exact lawful_insertVoid h hbegun (by rw [hname]; decide)
    refine .ite (fun hname => ?_) fun _ => ?_
    · exact lawful_startHeadContent h hbegun (by simp [hm]) (fun _ => hsteady)
        (by rw [hname]; decide)
    · refine lawful_leaveColumnGroup h hm (by simp) ?_
      change Course.ofName tag.name ≠ .column
      unfold Course.ofName
      rw [if_neg hcol]
      repeat' split
      all_goals simp
  | endTag tag =>
    simp only [inColumnGroup]
    refine .ite (fun _ => ?_) fun _ => ?_
    · split
      · -- the columns end with their own end tag
        next hc =>
        exact lawful_done (spine_endColumns h hm hc)
          (by simp) (quiet_of_ne rfl (by simp [switchTo]))
      · exact lawful_refuse h _ (by simp)
    refine .ite (fun _ => ?_) fun _ => ?_
    · exact lawful_refuse h _ (by simp)
    refine .ite (fun _ => ?_) fun _ => ?_
    · exact lawful_endTemplate h hsteady (by simp)
    · refine lawful_leaveColumnGroup h hm (by simp) ?_
      simp only [Course.of]
      split <;> simp
  | endOfFile => exact lawful_bodyEndOfFile h (by rw [hm]; decide)

/-! ## 5. Sections and rows -/

/-- A section or a row that is in scope is closed. -/
theorem leaves_popTo (h : Spine b) (names : List String) (hm : b.mode ∈ steadyModes) {q : Part}
    {P : NodeId → Bool} (hinner : Frame.innermost b.mode.kind = [q, .template])
    (hnames : ∀ name ∈ names, Part.ofName? name ≠ none) (hsub : q.names ⊆ names)
    (hq : Part.CanLeave q) (he : Enclosed b q P) : Leaves b (b.popTo names).pop q := by
  have hs := h.steady hm
  obtain ⟨p, rest, hb, hp⟩ := hs.innermost
  have hne : q ≠ .template := by
    rintro rfl
    simp [Part.CanLeave] at hq
  rw [hinner] at hp
  obtain rfl : p = q := by simpa [he.ne_template hne hb] using hp
  obtain ⟨plain, x, outer, hopen, hx⟩ := popTo_innermost h.toSound hb hnames hsub
  exact plain.leaves (leaves_pop plain.sound (plain.framed hs.1) hopen hx hq)

/-- A row is opened in a section. -/
theorem spine_row (h : Spine b) (hm : b.mode = .inTableBody) {name : String}
    (p' : Pushed b.popToTableBody b' (.html, name)) (hname : name = "tr") :
    Spine (b'.switchTo .inRow) ∧ b'.stateRequest = b.stateRequest := by
  obtain ⟨p, htop⟩ := popTo_top h ["tbody", "tfoot", "thead", "template", "html"]
    (by rw [hm]; decide) (by decide) (by rw [hm]; decide)
  have hpart : partOf (.html, name) = some .row := by rw [hname]; decide
  refine h.opened p p' hpart (by rw [hm]; decide) (fun y hy => ?_) _ fun _ _ _ => rfl
  obtain ⟨q, hq, hy⟩ := htop y hy
  rw [hm] at hq
  have hq : q ∈ [Part.rowGroup, .template] := hq
  rw [hy]
  simpa [Sits] using hq

theorem pushed_row (h : Spine b) (hm : b.mode = .inTableBody) {name : String} (hname : name = "tr")
    (attributes : List Attribute) : Pushed b.popToTableBody
      (b.popToTableBody.insertElement name attributes .html) (.html, name) := by
  obtain ⟨p, -⟩ := popTo_top h ["tbody", "tfoot", "thead", "template", "html"]
    (by rw [hm]; decide) (by decide) (by rw [hm]; decide)
  have hbegun := h.begun_of_plain p (by rw [hm]; decide)
  exact pushed_insertElement p.sound hbegun name .html (by rw [hname]; decide) attributes

/-- The mode of a section is left for that of the table. -/
theorem spine_endTableBody (h : Spine b) (hm : b.mode = .inTableBody) {P : NodeId → Bool}
    (he : Enclosed b .rowGroup P) : Spine (b.popToTableBody.pop.switchTo .inTable) := by
  have l := leaves_popTo h ["tbody", "tfoot", "thead", "template", "html"]
    (by rw [hm]; decide) (by rw [hm]; rfl) (by decide) (by decide) (by simp [Part.CanLeave]) he
  exact l.spine rfl (by decide)

theorem lawful_leaveTableBody (h : Spine b) (hm : b.mode = .inTableBody) (ht : token ≠ .endOfFile)
    (hr : modeRank (.of token) .inTable < modeRank (.of token) .inTableBody) :
    Lawful b token (b.leaveTableBody token) := by
  unfold leaveTableBody
  split
  · next hin =>
    have he := enclosed_of_anyInScope (q := .rowGroup) (by decide) hin
    refine lawful_reprocess (spine_endTableBody h hm he) (rank_lt_of_modeRank ht ?_)
      (quiet_of_ne rfl (by simp [switchTo]))
    rw [hm]
    exact hr
  · exact lawful_refuse h _ ht

/-- Cells and the other pieces of a table are all that the rules of a section and of a row keep to
themselves. -/
theorem not_mem_tableStructure {name : String} {parts : List String}
    (hall : Category.tableStructure ⊆ ["td", "th"] ++ parts) (hcell : ¬ (name = "th" ∨ name = "td"))
    (hpart : name ∉ parts) : name ∉ Category.tableStructure := by
  intro hmem
  obtain hmem | hmem := List.mem_append.1 (hall hmem)
  · simp only [List.mem_cons, List.not_mem_nil, or_false] at hmem
    exact hcell hmem.symm
  · exact hpart hmem

theorem lawful_inTableBody (h : Spine b) (hm : b.mode = .inTableBody) :
    Lawful b token (b.inTableBody token) := by
  have htables : b.mode ∈ tableModes := by rw [hm]; decide
  cases token with
  | startTag tag =>
    simp only [inTableBody]
    refine .ite (fun hname => ?_) fun hrow => ?_
    · obtain ⟨hspine, hrequest⟩ := spine_row h hm (pushed_row h hm hname tag.attributes) hname
      exact lawful_done hspine (by simp) (quiet_of_ne hrequest (by simp [switchTo]))
    refine .ite (fun hname => ?_) fun hcell => ?_
    · -- a row is made for the cell, and gets the tag
      have h' := h.still (plain_report h.toSound .unexpectedStartTag) rfl
      obtain ⟨hspine, hrequest⟩ := spine_row h' hm (pushed_row h' hm rfl []) rfl
      refine lawful_reprocess hspine (rank_lt_of_modeRank (by simp) ?_)
        (quiet_of_ne hrequest (by simp [switchTo]))
      change modeRank (.ofName tag.name) .inRow < modeRank (.ofName tag.name) b.mode
      rw [hm]
      rcases hname with hname | hname <;> rw [hname] <;> decide
    refine .ite (fun hname => ?_) fun hpart => ?_
    · have hall : ∀ name ∈ ["caption", "col", "colgroup", "tbody", "tfoot", "thead"],
          modeRank (.ofName name) .inTable < modeRank (.ofName name) .inTableBody := by decide
      exact lawful_leaveTableBody h hm (by simp) (hall _ (List.contains_iff_mem.1 hname))
    · refine lawful_table h htables fun tag' htag => Or.inr ?_
      cases htag
      exact not_mem_tableStructure (by decide) hcell
        (List.not_mem_cons_of_ne_of_not_mem hrow (mt List.contains_iff_mem.2 hpart))
  | endTag tag =>
    simp only [inTableBody]
    refine .ite (fun hname => ?_) fun _ => ?_
    · split
      · next hin =>
        have he := enclosed_of_inScope (q := .rowGroup) (List.contains_iff_mem.1 hname) hin
        exact lawful_done (spine_endTableBody h hm he)
          (by simp) (quiet_of_ne rfl (by simp [switchTo]))
      · exact lawful_refuse h _ (by simp)
    refine .ite (fun hname => ?_) fun _ => ?_
    · refine lawful_leaveTableBody h hm (by simp) ?_
      rw [Course.of, hname]
      decide
    refine .ite (fun _ => ?_) fun _ => ?_
    · exact lawful_refuse h _ (by simp)
    · exact lawful_table h htables (by simp)
  | character c => exact lawful_table h htables (by simp)
  | comment data => exact lawful_table h htables (by simp)
  | doctype d => exact lawful_table h htables (by simp)
  | endOfFile => exact lawful_table h htables (by simp)

/-- The mode of a row is left for that of the section. -/
theorem spine_endRow (h : Spine b) (hm : b.mode = .inRow) (hin : b.inScope .table "tr" = true) :
    Spine (b.popToRow.pop.switchTo .inTableBody) := by
  have l := leaves_popTo h ["tr", "template", "html"] (by rw [hm]; decide)
    (by rw [hm]; rfl) (by decide) (by decide) (by simp [Part.CanLeave])
    (enclosed_of_inScope (q := .row) (by decide) hin)
  exact l.spine rfl (by decide)

theorem lawful_endRow (h : Spine b) (hm : b.mode = .inRow) (ht : token ≠ .endOfFile) :
    Lawful b token (b.endRow token done) := by
  unfold endRow
  split
  · next hin =>
    exact lawful_done (spine_endRow h hm hin) ht (quiet_of_ne rfl (by simp [switchTo]))
  · exact lawful_refuse h _ ht

theorem lawful_leaveRow (h : Spine b) (hm : b.mode = .inRow) (ht : token ≠ .endOfFile)
    (hr : modeRank (.of token) .inTableBody < modeRank (.of token) .inRow) :
    Lawful b token (b.endRow token (·.reprocess token)) := by
  unfold endRow
  split
  · next hin =>
    refine lawful_reprocess (spine_endRow h hm hin) (rank_lt_of_modeRank ht ?_)
      (quiet_of_ne rfl (by simp [switchTo]))
    rw [hm]
    exact hr
  · exact lawful_refuse h _ ht

/-- A cell is opened in a row. -/
theorem lawful_cell (h : Spine b) (hm : b.mode = .inRow)
    (hname : tag.name = "th" ∨ tag.name = "td") : Lawful b (.startTag tag)
      ((b.popToRow.insertHtml tag).switchTo .inCell).insertMarker.done := by
  obtain ⟨p, -⟩ := popTo_top h ["tr", "template", "html"]
    (by rw [hm]; decide) (by decide) (by rw [hm]; decide)
  have hpart : partOf (.html, tag.name) = some .cell := by
    rcases hname with hname | hname <;> rw [hname] <;> decide
  have hbegun := h.begun_of_plain p (by rw [hm]; decide)
  have p' := pushed_insertElement p.sound hbegun tag.name .html (not_outer_of_part hpart (by simp))
    tag.attributes
  obtain ⟨hspine, hrequest⟩ := h.opened p p' hpart (by rw [hm]; decide) (fun _ _ => trivial)
    .inCell fun _ _ _ => rfl
  exact lawful_done (hspine.still (plain_insertMarker hspine.toSound) rfl) (by simp)
    (quiet_of_ne hrequest (by simp [switchTo, insertMarker]))

theorem lawful_inRow (h : Spine b) (hm : b.mode = .inRow) : Lawful b token (b.inRow token) := by
  have htables : b.mode ∈ tableModes := by rw [hm]; decide
  -- out of the row an end tag has a smaller rank
  have hend : ∀ {tag : Tag}, tag.name ≠ "html" →
      modeRank (.of (.endTag tag)) .inTableBody < modeRank (.of (.endTag tag)) .inRow := by
    intro tag hname
    rw [Course.of, if_neg hname]
    decide
  cases token with
  | startTag tag =>
    simp only [inRow]
    refine .ite (fun hname => ?_) fun hcell => ?_
    · exact lawful_cell h hm hname
    refine .ite (fun hname => ?_) fun hpart => ?_
    · have hall : ∀ name ∈ ["caption", "col", "colgroup", "tbody", "tfoot", "thead", "tr"],
          modeRank (.ofName name) .inTableBody < modeRank (.ofName name) .inRow := by decide
      exact lawful_leaveRow h hm (by simp) (hall _ (List.contains_iff_mem.1 hname))
    · refine lawful_table h htables fun tag' htag => Or.inr ?_
      cases htag
      exact not_mem_tableStructure (by decide) hcell (mt List.contains_iff_mem.2 hpart)
  | endTag tag =>
    simp only [inRow]
    refine .ite (fun _ => ?_) fun _ => ?_
    · exact lawful_endRow h hm (by simp)
    refine .ite (fun hname => ?_) fun _ => ?_
    · exact lawful_leaveRow h hm (by simp) (hend (by simp [hname]))
    refine .ite (fun hname => ?_) fun _ => ?_
    · have hne : tag.name ≠ "html" := by
        rintro he
        rw [he] at hname
        exact absurd hname (by decide)
      split
      · exact lawful_leaveRow h hm (by simp) (hend hne)
      · exact lawful_refuse h _ (by simp)
    refine .ite (fun _ => ?_) fun _ => ?_
    · exact lawful_refuse h _ (by simp)
    · exact lawful_table h htables (by simp)
  | character c => exact lawful_table h htables (by simp)
  | comment data => exact lawful_table h htables (by simp)
  | doctype d => exact lawful_table h htables (by simp)
  | endOfFile => exact lawful_table h htables (by simp)

/-! ## 6. Cells -/

/-- The mode of a cell is left for that of the row. -/
theorem spine_closeCell (h : Spine b) (hm : b.mode = .inCell) :
    Spine b.closeCell ∧ b.closeCell.stateRequest = b.stateRequest := by
  have hs := h.steady (by rw [hm]; decide)
  obtain ⟨rest, hb⟩ := hs.bones_eq (p := .cell) (by rw [hm]; rfl)
  have l := leaves_close h.toSound hs.1 (by simp [Part.CanLeave]) (enclosed_of_innermost hb)
    (by decide) fun b => !b.currentIsOf ["td", "th"]
  exact ⟨(l.plain (plain_clearToMarker l.sound)).spine rfl (by decide), l.request⟩

theorem lawful_leaveCell (h : Spine b) (hm : b.mode = .inCell) (ht : token ≠ .endOfFile)
    (hr : modeRank (.of token) .inRow < modeRank (.of token) .inCell) :
    Lawful b token (b.closeCell.reprocess token) := by
  obtain ⟨hspine, hrequest⟩ := spine_closeCell h hm
  refine lawful_reprocess hspine (rank_lt_of_modeRank ht ?_)
    (quiet_of_ne hrequest (by simp [closeCell, switchTo]))
  rw [hm]
  exact hr

theorem ofName?_cell : ∀ name ∈ Part.cell.names, name ∉ Category.impliedEnd := by decide

theorem lawful_endCell (h : Spine b) (hm : b.mode = .inCell)
    (hname : tag.name = "td" ∨ tag.name = "th") (hin : b.inScope .table tag.name = true) :
    Lawful b (.endTag tag)
      ((b.closeNamed tag.name none).clearToMarker.switchTo .inRow).done := by
  have hs := h.steady (by rw [hm]; decide)
  have hmem : tag.name ∈ Part.cell.names := by
    rcases hname with hname | hname <;> simp [hname, Part.names]
  have l := leaves_closeNamed h.toSound hs.1 (q := .cell) (by simp [Part.CanLeave])
    (enclosed_of_inScope hmem hin) (ofName?_cell _ hmem)
  exact lawful_done ((l.plain (plain_clearToMarker l.sound)).spine rfl (by decide)) (by simp)
    (quiet_of_ne l.request (by simp [switchTo]))

theorem lawful_inCell (h : Spine b) (hm : b.mode = .inCell) : Lawful b token (b.inCell token) := by
  have hinBody : Proper b.mode token → Lawful b token (b.inBody token) :=
    lawful_inBody h (by rw [hm]; decide)
  cases token with
  | startTag tag =>
    simp only [inCell]
    split
    · next hname =>
      split
      · exact lawful_leaveCell h hm (by simp)
          (modeRank_tableStructure _ (List.contains_iff_mem.1 hname)).2
      · exact lawful_refuse h _ (by simp)
    · exact hinBody fun _ => by rw [hm]; decide
  | endTag tag =>
    simp only [inCell]
    refine .ite (fun hname => ?_) fun hcell => ?_
    · split
      · next hin => exact lawful_endCell h hm hname hin
      · exact lawful_refuse h _ (by simp)
    refine .ite (fun _ => ?_) fun hrefuse => ?_
    · exact lawful_refuse h _ (by simp)
    refine .ite (fun hname => ?_) fun _ => ?_
    · have hne : tag.name ≠ "html" := by
        rintro he
        rw [he] at hname
        exact absurd hname (by decide)
      split
      · refine lawful_leaveCell h hm (by simp) ?_
        rw [Course.of, if_neg hne]
        decide
      · exact lawful_refuse h _ (by simp)
    · -- any other end tag is one for the body
      next htable =>
      refine hinBody (Or.inr fun hname => ?_)
      simp only [List.contains_iff_mem] at hrefuse htable
      simp only [List.mem_cons, List.not_mem_nil, or_false] at hname hrefuse htable
      grind
  | character c => exact hinBody trivial
  | comment data => exact hinBody trivial
  | doctype d => exact hinBody trivial
  | endOfFile => exact hinBody trivial

end Hypertext.TreeBuilder
