import Hypertext.Proofs.TreeBuilder.Acts.Body
import Hypertext.Proofs.TreeBuilder.Rules.Table

/-!
# The steps of the rules in tables

The text of a table is collected, and inserted all at once when a token other than a
character comes.
-/

namespace Hypertext.TreeBuilder

open Hypertext.Tree

variable {token : Token} {mode : InsertionMode} {b a : TreeBuilder} {cs : List Char} {tag : Tag}

/-! ## 1. Content before the table -/

/-- Content of any kind may come, if it is put before the table. -/
theorem Spine.fostered (h : Spine b) (ht : ParagraphsApart b) (hm : b.mode ∈ bodyModes) :
    Flows token b.mode { b with fostering := true } [] { b with fostering := true } :=
  (h.setFostering true).flows ⟨ht.apart, ht.based⟩ hm fun _ => rfl

theorem performs_fosterParent {b' : TreeBuilder} (hb : NoTextWaiting b) (hm : b.mode ∈ bodyModes)
    (h : Flows token b.mode { b with fostering := true } [] { b' with fostering := true }) :
    Performs b token (b'.fosterParent token) := by
  obtain ⟨new, hchanges, hw, hn⟩ := h.inBody hm
  refine performs_fostered hb ?_ rfl hw fun h => absurd h hn
  have hf : ({ b' with fostering := true }.inBody token).builder.fostering = true :=
    hchanges.fostering
  rw [← fostering_eta hf] at hchanges
  exact hchanges

theorem performs_misplacedInTable (h : Spine b) (ht : ParagraphsApart b) (hm : b.mode ∈ bodyModes)
    (hb : NoTextWaiting b) : Performs b token (b.misplacedInTable token) := by
  have hflows : Flows token b.mode { b with fostering := true } [] { b with fostering := true } :=
    h.fostered ht hm
  unfold misplacedInTable
  split
  · exact performs_fosterParent hb hm hflows
  · exact performs_fosterParent hb hm (hflows.report _ rfl)
  · exact performs_fosterParent hb hm (hflows.report _ rfl)

/-! ## 2. Between the parts of a table -/

/-- The parts with a marker. -/
theorem ofName?_marked : ∀ name ∈ markedNames,
    Part.ofName? name ∈ [none, some Part.template, some .cell, some .caption] := by decide

/-- When everything above the innermost part is closed, the parts that belong there
may be opened. -/
theorem Spine.hosts_popTo (h : Spine b) (hm : b.mode ∈ tableModes) (hb : NoTextWaiting b)
    {names : List String} {name : String} {q : Part}
    (hnames : ∀ name ∈ names, Part.ofName? name ≠ none)
    (hsub : ∀ p ∈ Frame.innermost b.mode.kind, p.names ⊆ names) (hname : Part.ofName? name = some q)
    (hp : ∀ p ∈ Frame.innermost b.mode.kind, p = .template ∨ name ∈ p.contents?.getD [])
    (hblock : name ∉ Content.block) : Hosts (b.popTo names) (.html, name) := by
  have hbody := mem_bodyModes_of_tableModes _ hm
  have hsteady := mem_steadyModes_of_bodyModes _ hbody
  obtain ⟨plain, htop⟩ := popTo_top h names hsteady hnames hsub
  have hready := plain.ready (h.ready (List.mem_cons_of_mem _ hbody))
  refine hosts_of_part hname (ne_text_of_steady _ hsteady) ?_ (spares_of_not_mem hblock)
  refine takes_of_top hready.begun.nonempty hb.settled rfl fun y hy => ?_
  obtain ⟨p, hmem, hpart⟩ := htop y hy
  exact ⟨p, hpart, hp p hmem⟩

theorem Spine.hosts_popToTable (h : Spine b) (hm : b.mode = .inTable) (hb : NoTextWaiting b)
    {name : String} {q : Part} (hname : Part.ofName? name = some q)
    (hp : name ∈ ["caption", "colgroup"] ++ Category.tableSections) :
    Hosts b.popToTable (.html, name) := by
  have hall : ∀ name ∈ ["caption", "colgroup"] ++ Category.tableSections, name ∉ Content.block ∧
    ∀ p ∈ Frame.innermost .inTable, p = .template ∨ name ∈ p.contents?.getD [] := by decide
  refine h.hosts_popTo (by rw [hm]; decide) hb (by decide) (by rw [hm]; decide) hname ?_
    (hall _ hp).1
  rw [hm]
  exact (hall _ hp).2

theorem Spine.hosts_popToTableBody (h : Spine b) (hm : b.mode = .inTableBody) (hb : NoTextWaiting b)
    {name : String} (hname : name = "tr") : Hosts b.popToTableBody (.html, name) := by
  subst hname
  exact h.hosts_popTo (q := .row) (by rw [hm]; decide) hb (by decide) (by rw [hm]; decide)
    (by decide) (by rw [hm]; decide) (by decide)

/-- What may stand between the pieces of a table may be put into any of its parts. -/
theorem Spine.takes_extra (h : Spine b) (hm : b.mode ∈ tableModes) {name : String}
    (hname : name ∈ Content.tableExtras) : Takes b (.html, name) := by
  have hs := h.steady (mem_steadyModes_of_bodyModes _ (mem_bodyModes_of_tableModes _ hm))
  obtain ⟨p, rest, hb, hp⟩ := hs.innermost
  have hflow : ∀ name ∈ Content.tableExtras, name ∉ Category.tableStructure := by decide
  have hall : ∀ mode ∈ tableModes, ∀ p ∈ Frame.innermost mode.kind, ∀ names ∈ p.contents?,
    ∀ name ∈ Content.tableExtras, name ∈ names := by decide
  exact takes_of_bones hb (fun _ => hflow name hname)
    (Or.inl fun names hnames => ⟨rfl, hall b.mode hm p hp names hnames name hname⟩) fun _ _ _ =>
    hs.1.seated

/-- A part of a table is opened that has no marker. -/
theorem ContentChanges.insertPart (h : ContentChanges token mode b cs a) (hm : mode ∈ tableModes)
    {name : String} {q : Part} (hname : Part.ofName? name = some q)
    (hq : q ∈ [Part.columns, .rowGroup, .row])
    {attributes : List Attribute} (ho : Hosts a (.html, name))
    (hs : Supplied token a.formatting name attributes) :
    ContentChanges token mode b cs (a.insertElement name attributes .html) := by
  refine h.insertElement attributes (fun _ hmarked => ?_) (fun p hp => ?_) ho hs
  · have hall := ofName?_marked name hmarked
    rw [hname] at hall
    revert hq hall
    cases q <;> decide
  · obtain rfl : q = p := Option.some.inj (hname.symm.trans (partOf_html name ▸ hp))
    revert hq
    cases q <;> simp [MayOpen, hm]

/-- A caption is opened, and its marker stands in the list before it. -/
theorem ContentChanges.insertCaption (h : ContentChanges token mode b cs a) (hr : Rooted a)
    (hm : mode ∈ tableModes) (hname : tag.name = "caption") (ho : Hosts a (.html, tag.name))
    (ht : token = .startTag tag) :
    ContentChanges token mode b cs (a.insertMarker.insertHtml tag) := by
  have hpart : Part.ofName? tag.name = some .caption := by rw [hname]; decide
  have hcomm : a.insertMarker.insertHtml tag = (a.insertHtml tag).insertMarker := by
    have hplace : a.insertMarker.place = a.place :=
      Option.some.inj ((place?_eq (b := a.insertMarker)).symm.trans (place?_eq (b := a)))
    unfold TreeBuilder.insertHtml
    rw [insertElement_eq_insertAt (b := a.insertMarker) hr.anchored,
      insertElement_eq_insertAt hr.anchored, hplace]
    rfl
  rw [hcomm]
  refine h.insertMarked (fun p hp => ?_) ho ht
  obtain rfl := Option.some.inj (hpart.symm.trans hp)
  exact ⟨hm, by decide⟩

theorem ContentChanges.leaveTable (h : ContentChanges token mode b cs a) (hne : a.mode ≠ .text) :
    ContentChanges token mode b cs a.leaveTable := (h.popThrough _).resetMode hne

/-- Columns and sections are opened in the table itself. -/
theorem Spine.contentChanges_tablePart (h : Spine b) (hm : b.mode = .inTable) (hb : NoTextWaiting b)
    {name : String} {q : Part} (hname : Part.ofName? name = some q)
    (hq : q ∈ [Part.columns, .rowGroup, .row])
    (hp : name ∈ ["caption", "colgroup"] ++ Category.tableSections) {attributes : List Attribute}
    (hs : Supplied token b.formatting name attributes) {mode' : InsertionMode}
    (hmode : mode' ∉ pastFrameset) :
    ContentChanges token b.mode b [] ((b.popToTable.insertElement name attributes .html).switchTo
      mode') := by
  have hpop : ContentChanges token b.mode b [] b.popToTable := ContentChanges.refl.popTo _
  have ho : Hosts b.popToTable (.html, name) := h.hosts_popToTable hm hb hname hp
  have htables : b.mode ∈ tableModes := by rw [hm]; decide
  refine ContentChanges.switchTo (hpop.insertPart htables hname hq ho hs) _ ?_ hmode
  rw [mode_insertElement]
  exact ho.mode

theorem performs_tableStart (h : Spine b) (ht : ParagraphsApart b) (hm : b.mode ∈ tableModes)
    (hp : b.mode = .inTable ∨ tag.name ∉ Category.tableStructure) (hb : NoTextWaiting b) :
    Performs b (.startTag tag) (b.tableStart tag) := by
  have hbody := mem_bodyModes_of_tableModes _ hm
  have hne : b.mode ≠ .text := ne_text_of_steady _ (mem_steadyModes_of_bodyModes _ hbody)
  -- the kind of the tag says what its name may be; pieces of a table come here in the mode of the
  -- table itself only, and that is what lets them into the current node
  have hname := TableStart.allows_ofName tag.name
  have hchanges : ContentChanges (.startTag tag) b.mode b [] b := .refl
  have hpop : ContentChanges (.startTag tag) b.mode b [] b.popToTable := hchanges.popTo _
  have hreport := hchanges.report .unexpectedStartTag rfl
  have hmisplaced : Performs b (.startTag tag) (b.misplacedInTable (.startTag tag)) :=
    performs_misplacedInTable h ht hbody hb
  unfold tableStart
  cases hkind : TableStart.ofName tag.name <;> simp only [hkind, TableStart.Allows] at hname ⊢
  case caption =>
    have hmode := hp.resolve_right (by rw [hname]; decide)
    have ho : Hosts b.popToTable (.html, tag.name) := h.hosts_popToTable hmode hb (q := .caption)
      (by rw [hname]; decide)
      (by rw [hname]; decide)
    exact performs_quiet hb
      ((hpop.insertCaption (hpop.rooted h.toSound.rooted) hm hname ho rfl).switchTo _
      (by simpa using hne) (by decide))
  case columnGroup =>
    have hmode := hp.resolve_right (by rw [hname]; decide)
    exact performs_quiet hb
      (h.contentChanges_tablePart hmode hb (q := .columns) (by rw [hname]; decide) (by decide)
      (by rw [hname]; decide) (.tag rfl) (by decide))
  case column =>
    have hmode := hp.resolve_right (by rw [hname]; decide)
    exact performs_quiet hb
      (h.contentChanges_tablePart hmode hb (q := .columns) (by decide) (by decide) (by decide)
      (.implied (by decide)) (by decide))
  case «section» =>
    obtain ⟨hpart, hstructure⟩ := ofName?_tableSections _ hname
    have hmode := hp.resolve_right fun hnot => hnot hstructure
    exact performs_quiet hb
      (h.contentChanges_tablePart hmode hb hpart (by decide) (List.mem_append_right _ hname)
      (.tag rfl) (by decide))
  case rowOrCell =>
    have hmode := hp.resolve_right fun hnot => hnot (modeRank_rowOrCell _ hname).1
    exact performs_quiet hb (h.contentChanges_tablePart hmode hb (q := .rowGroup) (by decide)
      (by decide) (by decide) (.implied (by decide)) (by decide))
  case table =>
    split
    · exact performs_quiet hb (hreport.leaveTable hne)
    · exact performs_quiet hb hreport
  case headContent =>
    have hall : ∀ name ∈ ["style", "script", "template"],
      name ∈ Category.headContent ∧ name ∈ Content.tableExtras := by decide
    exact performs_headContent h hne hb (hall _ hname).1 (h.takes_extra hm (hall _ hname).2)
  case input =>
    split
    · -- hidden input and forms may stand between the parts of a table
      have htakes : Takes (b.report .unexpectedStartTag) (.html, tag.name) :=
        Spine.takes_extra (b := b.report .unexpectedStartTag)
          (h.still (plain_report h.toSound _) rfl) hm (by rw [hname]; decide)
      exact performs_quiet hb (hreport.insertVoid (by rw [hname]; decide) (by rw [hname]; decide)
        (by rw [hname]; decide) hne htakes (Or.inr (spares_of_not_mem (by rw [hname]; decide))) rfl)
    · exact hmisplaced
  case form =>
    split
    · exact performs_quiet hb hreport
    · have htakes : Takes (b.report .unexpectedStartTag) (.html, tag.name) :=
        Spine.takes_extra (b := b.report .unexpectedStartTag)
          (h.still (plain_report h.toSound _) rfl) hm (by rw [hname]; decide)
      have hform := hreport.insertClosed (by rw [hname]; decide) (by rw [hname]; decide)
        tag.attributes (Or.inr hname) hne htakes (Or.inl hname) (.tag rfl)
      exact performs_quiet hb (hform.remark rfl id .refl)
  case other => exact hmisplaced

theorem performs_tableEnd (h : Spine b) (ht : ParagraphsApart b) (hm : b.mode ∈ tableModes)
    (hb : NoTextWaiting b) : Performs b (.endTag tag) (b.tableEnd tag) := by
  have hbody := mem_bodyModes_of_tableModes _ hm
  have hne : b.mode ≠ .text := ne_text_of_steady _ (mem_steadyModes_of_bodyModes _ hbody)
  unfold tableEnd
  refine .ite (fun _ => ?_) fun _ => ?_
  · split
    · exact performs_quiet hb (ContentChanges.refl.leaveTable hne)
    · exact performs_refuse hb _ rfl
  refine .ite (fun _ => ?_) fun _ => ?_
  · exact performs_refuse hb _ rfl
  refine .ite (fun _ => ?_) fun _ => ?_
  · exact performs_quiet hb (ContentChanges.refl.endTemplate hne)
  · exact performs_misplacedInTable h ht hbody hb

theorem performs_tableChar (h : Spine b) (ht : ParagraphsApart b) (hm : b.mode ∈ tableModes)
    (hb : NoTextWaiting b) (c : Char) : Performs b (.character c) (b.tableChar c) := by
  have hbody := mem_bodyModes_of_tableModes _ hm
  have hne : b.mode ≠ .text := ne_text_of_steady _ (mem_steadyModes_of_bodyModes _ hbody)
  unfold tableChar
  split
  · exact performs_quiet hb (ContentChanges.refl.note ⟨rfl, rfl, rfl, hb.text.symm, id, fun _ hc =>
      ⟨(by decide : InsertionMode.inTableText ∉ pastFrameset),
        fun _ hr => Option.some.inj hr ▸ hc.mode,
        hc.templateModes⟩, rfl, .refl⟩ (List.suffix_refl _) rfl rfl hne)
  · exact performs_fosterParent hb hbody ((h.fostered ht hbody).report .unexpectedText rfl)

/-- The rules of tables, as far as a mode does not have its own. -/
theorem performs_table (h : Spine b) (ht : ParagraphsApart b) (hm : b.mode ∈ tableModes)
    (hp : ∀ tag, token = .startTag tag → b.mode = .inTable ∨ tag.name ∉ Category.tableStructure)
    (hb : NoTextWaiting b) : Performs b token (b.inTable token) := by
  have hne : b.mode ≠ .text :=
    ne_text_of_steady _ (mem_steadyModes_of_bodyModes _ (mem_bodyModes_of_tableModes _ hm))
  cases token with
  | character c => exact performs_tableChar h ht hm hb c
  | comment data => exact performs_insertComment h hne hb data
  | doctype d => exact performs_refuse hb _ rfl
  | startTag tag => exact performs_tableStart h ht hm (hp tag rfl) hb
  | endTag tag => exact performs_tableEnd h ht hm hb
  | endOfFile => exact performs_quiet hb (ContentChanges.refl.bodyEndOfFile hne)

/-! ## 3. Text in tables -/

/-- The text is inserted character by character, without a change of the parts. -/
theorem ContentChanges.foldl_char {f : TreeBuilder → Char → TreeBuilder} {text : List Char}
    {a₀ : TreeBuilder} {fostering : Bool} (ha : Ready a₀) (hp : ∀ a c, Ready a → Plain a (f a c))
    (hf : ∀ {a cs c}, c ∈ text → Plain a₀ a → a.fostering = false →
      ContentChanges token mode b cs { a with fostering } →
      ContentChanges token mode b (cs ++ [c]) { f a c with fostering } ∧ (f a c).fostering = false)
    (p : Plain a₀ a) (hs : a.fostering = false)
    (h : ContentChanges token mode b cs { a with fostering }) :
    ContentChanges token mode b (cs ++ text) { text.foldl f a with fostering } ∧
    (text.foldl f a).fostering = false := by
  induction text generalizing a cs with
  | nil => exact ⟨by rwa [List.append_nil], hs⟩
  | cons c text ih =>
    obtain ⟨hc, hs'⟩ := hf (List.mem_cons_self ..) p hs h
    have h' := ih (fun hmem => hf (List.mem_cons_of_mem _ hmem)) (p.trans (hp a c (p.ready ha)))
      hs' hc
    rwa [List.append_assoc] at h'

/-- Blanks stay in the table, any other text is put before it. -/
theorem flushTableText_eq (a : TreeBuilder) : a.flushTableText =
    if a.tableText.all isSpace then a.tableText.foldl insertChar { a with tableText := [] }
    else a.tableText.foldl (fun b c => (b.misplacedInTable (.character c)).builder)
      ({ a with tableText := [] }.report .unexpectedText) := rfl

/-- All the collected text is inserted. -/
theorem ContentChanges.flushTableText {mode' : InsertionMode} (ha : Ready a)
    (hf : a.fostering = false)
    (hs : Steady a.tree a.openElements a.templateModes a.headElement.isSome mode')
    (hm : mode' ∈ tableModes) (hne : a.mode ≠ .text) (hsolid : '\x00' ∉ a.tableText) : ∃ fostering,
    ContentChanges token mode { a with tableText := [], fostering } a.tableText
      { a.flushTableText with fostering } ∧ a.flushTableText.fostering = false := by
  have p : Plain a { a with tableText := [] } := plain_tableText ha.toSound []
  rw [flushTableText_eq]
  split
  · next hspace =>
    have hstart : ContentChanges token mode { a with tableText := [], fostering := false } []
        { a with tableText := [], fostering := false } := .refl
    -- blanks go where the collected text stands
    refine ⟨false, hstart.foldl_char (p.ready ha) (fun a c ha => plain_insertChar ha.toSound c)
      (fun {a cs c} hc p' hs h' => ?_) (.refl p.sound) hf⟩
    have hready := p'.ready (p.ready ha)
    obtain ⟨tree, fault, heq⟩ := insertChar_same a c
    have hkeep : (a.insertChar c).fostering = false := by rw [heq]; exact hs
    rw [fostering_eta hs] at h'
    rw [fostering_eta hkeep]
    exact ⟨h'.char (place_ne_root hready.planted hready.begun.nonempty)
      (takesChar_of_isSpace (List.all_eq_true.1 hspace c hc) hs), hkeep⟩
  · have p₁ : Plain a ({ a with tableText := [] }.report .unexpectedText) := p.next fun h =>
      plain_report h _
    -- with foster parenting, the text goes by the rules of the body
    have hroom : Roomy { a with fostering := true } := by
      obtain ⟨hbroad, hregion⟩ := Steady.broad (b := { a with fostering := true }) hs
        (mem_bodyModes_of_tableModes _ hm) fun _ => rfl
      exact ⟨hne, hbroad, fun _ _ _ => hs.1.seated, fun names hn => by rw [hregion] at hn; cases hn⟩
    have hstart : ContentChanges token mode { a with tableText := [], fostering := true } []
        { { a with tableText := [] }.report .unexpectedText with fostering := true } :=
        ContentChanges.refl.report _ rfl
    refine ⟨true, hstart.foldl_char (p₁.ready ha) (fun a c ha => plain_misplacedChar ha c)
      (fun {a cs c} hc p' _ h' => ⟨?_, rfl⟩) (.refl p₁.sound) hf⟩
    have p₂ := p₁.trans p'
    have hready : Ready { a with fostering := true } :=
      (plain_setFostering p₂.sound true).ready (p₂.ready ha)
    have hchar := h'.bodyChar hready.toSound hready.begun (hroom.congr
      (fun _ _ _ => hready.framed.seated) p₂.same.bones p₂.same.mode p₂.same.modes rfl) c
    have hsolid : c ≠ '\x00' := by
      rintro rfl
      exact hsolid hc
    rw [if_neg hsolid] at hchar
    have hfoster : ({ a with fostering := true }.bodyChar c).fostering = true := hchar.fostering
    rw [← fostering_eta hfoster] at hchar
    exact hchar

theorem performs_inTableText (h : Spine b) (hm : b.mode = .inTableText) (hb : Collects b) :
    Performs b token (b.inTableText token) := by
  -- any other token ends the text, which is inserted before the token is looked at again
  have hother : Performs b token (b.flushTableText.resume.reprocess token) := by
    have hs := h.standing
    rw [hm] at hs
    obtain ⟨mode, hmem, -, hs⟩ := hs
    have hready : Ready b :=
      ready_of_steady h.toSound hs (List.mem_cons_of_mem _ (mem_bodyModes_of_tableModes _ hmem))
    have hne : b.mode ≠ .text := by rw [hm]; decide
    obtain ⟨fostering, hchanges, hf⟩ :=
      @ContentChanges.flushTableText token b.mode _ _ hready hb.settled hs hmem hne hb.solid
    have htext : b.flushTableText.tableText = [] := hchanges.acts.tableText
    have hmode : b.flushTableText.mode ≠ .text := by
      rw [(plain_flushTableText hready).same.mode]
      exact hne
    have hresume : ContentChanges token b.mode { b with tableText := [], fostering } b.tableText
        { b.flushTableText.resume with fostering } :=
      hchanges.note Acts.aside_resume (List.suffix_refl _) rfl rfl hmode
    exact ⟨[], fostering, b.tableText, [], hresume, .refl _, Or.inl rfl,
      ⟨Or.inl htext, by simp [reprocess, resume, htext], hf⟩, nofun⟩
  cases token with
  | character c =>
    simp only [inTableText]
    split
    · exact ⟨b.tableText, false, [], [], ContentChanges.refl.report _ rfl, by simp, Or.inl rfl,
        ⟨hb.mode, hb.solid, hb.settled⟩, nofun⟩
    · next hc =>
      refine ⟨b.tableText ++ [c], false, [], [c], .refl, .refl _, Or.inr ⟨rfl, c, rfl, Or.inl rfl⟩,
        ⟨Or.inr hm, ?_, hb.settled⟩, fun hmem => absurd (List.mem_singleton.1 hmem).symm hc⟩
      change '\x00' ∉ b.tableText ++ [c]
      simpa using ⟨hb.solid, Ne.symm hc⟩
  | comment data => exact hother
  | doctype d => exact hother
  | startTag tag => exact hother
  | endTag tag => exact hother
  | endOfFile => exact hother

/-! ## 4. Captions and columns -/

/-- A caption is closed with its marker. -/
theorem performs_endCaption (hne : b.mode ≠ .text) (hb : NoTextWaiting b)
    {next : TreeBuilder → Outcome} (hnext : ∀ b', (next b').builder = b') :
    Performs b token (b.endCaption next) := by
  unfold endCaption
  split
  · next hin =>
    refine performs_quiet hb ?_
    rw [hnext]
    exact (ContentChanges.refl.unmarkNamed (exists_of_inScope hin) (by decide)).switchTo _
      (by simpa using hne) (by decide)
  · exact performs_refuse hb _ rfl

theorem performs_inCaption (h : Spine b) (ht : ParagraphsApart b) (hm : b.mode = .inCaption)
    (hb : NoTextWaiting b) : Performs b token (b.inCaption token) := by
  have hinBody : Performs b token (b.inBody token) := performs_inBody h ht (by rw [hm]; decide) hb
  have hne : b.mode ≠ .text := by rw [hm]; decide
  cases token with
  | startTag tag =>
    simp only [inCaption]
    split
    · exact performs_endCaption hne hb fun _ => rfl
    · exact hinBody
  | endTag tag =>
    simp only [inCaption]
    refine .ite (fun _ => ?_) fun _ => ?_
    · exact performs_endCaption hne hb fun _ => rfl
    refine .ite (fun _ => ?_) fun _ => ?_
    · exact performs_endCaption hne hb fun _ => rfl
    refine .ite (fun _ => ?_) fun _ => ?_
    · exact performs_refuse hb _ rfl
    · exact hinBody
  | character c => exact hinBody
  | comment data => exact hinBody
  | doctype d => exact hinBody
  | endOfFile => exact hinBody

/-- A column may come in a group of columns, in a template, and in formatting elements that are
opened again there. -/
theorem Spine.takes_column (h : Spine b) (hm : b.mode = .inColumnGroup) (hb : NoTextWaiting b) :
    Takes b (.html, "col") := by
  have hs := h.steady (by rw [hm]; decide)
  obtain ⟨p, rest, hbones, hp⟩ := hs.innermost
  have hne : b.openElements ≠ [] := (head_of_bones hbones).1
  rw [hm] at hp
  obtain rfl | rfl : p = .columns ∨ p = .template := by
    simpa [Frame.innermost, InsertionMode.kind] using hp
  · obtain ⟨x, outer, hopen, hx, -⟩ := hs.1.seated.exists_top hbones (by decide)
    refine takes_of_top hne hb.settled rfl fun y hy => ⟨.columns, ?_, Or.inr (by decide)⟩
    rw [hopen] at hy
    exact Option.some.inj hy ▸ hx
  · refine ⟨fun hopen => absurd hopen hne, fun y _ hr => ?_, fun _ _ _ => hs.1.seated,
      fun y hy _ htemplate => ?_⟩
    · rw [Redirects, hb.settled] at hr
      cases hr.1
    · have hnone := ((head_of_bones hbones).2 y hy).resolve_right htemplate
      rw [hnone]
      have hframe := hs.1.frame
      have hkind := hs.2
      rw [show b.tree.bones b.openElements = _ from hbones] at hframe hkind
      refine Or.inr ⟨rfl, rfl, ?_⟩
      rw [TreeBuilder.region, show b.bones = _ from hbones]
      exact hframe.regionNames_columns hkind hm

theorem performs_leaveColumnGroup (hne : b.mode ≠ .text) (hb : NoTextWaiting b) :
    Performs b token (b.leaveColumnGroup token) := by
  unfold leaveColumnGroup
  split
  · exact performs_quiet hb (ContentChanges.refl.pop.switchTo _ hne (by decide))
  · exact performs_refuse hb _ rfl

theorem performs_inColumnGroup (h : Spine b) (hm : b.mode = .inColumnGroup) (hb : NoTextWaiting b) :
    Performs b token (b.inColumnGroup token) := by
  have hsteady : b.mode ∈ steadyModes := by rw [hm]; decide
  have hne : b.mode ≠ .text := ne_text_of_steady _ hsteady
  have hs := h.steady hsteady
  obtain ⟨p, rest, hbones, hp⟩ := hs.innermost
  rw [hm] at hp
  cases token with
  | character c =>
    simp only [inColumnGroup]
    split
    · next hspace =>
      exact performs_insertSpace h (h.begun (by rw [hm]; decide)).nonempty hb hspace
    · exact performs_leaveColumnGroup hne hb
  | comment data => exact performs_insertComment h hne hb data
  | doctype d => exact performs_refuse hb _ rfl
  | startTag tag =>
    simp only [inColumnGroup]
    refine .ite (fun _ => ?_) fun _ => ?_
    · exact performs_repeatedHtml h hsteady hb tag
    refine .ite (fun hname => ?_) fun _ => ?_
    · refine performs_quiet hb (ContentChanges.refl.insertVoid (by rw [hname]; decide)
        (by rw [hname]; decide) (by rw [hname]; decide) hne ?_
        (Or.inr (spares_of_not_mem (by rw [hname]; decide))) rfl)
      rw [hname]
      exact h.takes_column hm hb
    refine .ite (fun hname => ?_) fun _ => ?_
    · -- no innermost part of this mode shuts a template out
      have hall : ∀ p ∈ Frame.innermost .inColumnGroup, ∀ names ∈ p.contents?,
          "template" ∈ names := by
        decide
      refine performs_headContent h hne hb (by rw [hname]; decide) ?_
      rw [hname]
      exact takes_of_bones hbones (by decide) (Or.inl fun names hnames =>
        ⟨rfl, hall p hp names hnames⟩) fun _ _ _ => hs.1.seated
    · exact performs_leaveColumnGroup hne hb
  | endTag tag =>
    simp only [inColumnGroup]
    refine .ite (fun _ => ?_) fun _ => ?_
    · split
      · exact performs_quiet hb (ContentChanges.refl.pop.switchTo _ hne (by decide))
      · exact performs_refuse hb _ rfl
    refine .ite (fun _ => ?_) fun _ => ?_
    · exact performs_refuse hb _ rfl
    refine .ite (fun _ => ?_) fun _ => ?_
    · exact performs_quiet hb (ContentChanges.refl.endTemplate hne)
    · exact performs_leaveColumnGroup hne hb
  | endOfFile => exact performs_quiet hb (ContentChanges.refl.bodyEndOfFile hne)

/-! ## 5. Sections and rows -/

theorem ContentChanges.popToTableBody (h : ContentChanges token mode b cs a) :
    ContentChanges token mode b cs a.popToTableBody :=
  h.popTo _

theorem ContentChanges.popToRow (h : ContentChanges token mode b cs a) :
    ContentChanges token mode b cs a.popToRow := h.popTo _

theorem performs_leaveTableBody (hne : b.mode ≠ .text) (hb : NoTextWaiting b) :
    Performs b token (b.leaveTableBody token) := by
  unfold leaveTableBody
  split
  · exact performs_quiet hb (ContentChanges.refl.popToTableBody.pop.switchTo _ hne (by decide))
  · exact performs_refuse hb _ token.isOfInput_unexpected

theorem performs_inTableBody (h : Spine b) (ht : ParagraphsApart b) (hm : b.mode = .inTableBody)
    (hb : NoTextWaiting b) : Performs b token (b.inTableBody token) := by
  have htables : b.mode ∈ tableModes := by rw [hm]; decide
  have hne : b.mode ≠ .text := by rw [hm]; decide
  have htable (hp : ∀ tag, token = .startTag tag → tag.name ∉ Category.tableStructure) :
      Performs b token (b.inTable token) :=
      performs_table h ht htables (fun tag ht => Or.inr (hp tag ht)) hb
  cases token with
  | startTag tag =>
    simp only [inTableBody]
    refine .ite (fun hname => ?_) fun hrow => ?_
    · have ho := h.hosts_popToTableBody hm hb hname
      exact performs_quiet hb
        (ContentChanges.switchTo (ContentChanges.refl.popToTableBody.insertPart htables (q := .row)
        (by rw [hname]; decide) (by decide) ho (.tag rfl)) _ (by simpa using hne) (by decide))
    refine .ite (fun _ => ?_) fun hcell => ?_
    · -- a cell without a row gets one
      have ho : Hosts (b.report .unexpectedStartTag).popToTableBody (.html, "tr") :=
        Spine.hosts_popToTableBody (h.still (plain_report h.toSound _) rfl) hm ⟨hb.text,
          hb.settled⟩ rfl
      exact performs_quiet hb
        (ContentChanges.switchTo ((ContentChanges.refl.report _ rfl).popToTableBody.insertPart
          htables (q := .row) (by decide) (by decide) ho (.implied (by decide))) _
          (by simpa using hne) (by decide))
    refine .ite (fun _ => ?_) fun hpart => ?_
    · exact performs_leaveTableBody hne hb
    · refine htable fun tag' heq => ?_
      cases heq
      -- what is left after the branches above is no piece of a table
      exact not_mem_tableStructure (by decide) hcell
        (List.not_mem_cons_of_ne_of_not_mem hrow (mt List.contains_iff_mem.2 hpart))
  | endTag tag =>
    simp only [inTableBody]
    refine .ite (fun _ => ?_) fun _ => ?_
    · split
      · exact performs_quiet hb (ContentChanges.refl.popToTableBody.pop.switchTo _ hne (by decide))
      · exact performs_refuse hb _ rfl
    refine .ite (fun _ => ?_) fun _ => ?_
    · exact performs_leaveTableBody hne hb
    refine .ite (fun _ => ?_) fun _ => ?_
    · exact performs_refuse hb _ rfl
    · exact htable (by simp)
  | character c => exact htable (by simp)
  | comment data => exact htable (by simp)
  | doctype d => exact htable (by simp)
  | endOfFile => exact htable (by simp)

theorem performs_endRow (hne : b.mode ≠ .text) (hb : NoTextWaiting b) {next : TreeBuilder → Outcome}
    (hnext : ∀ b', (next b').builder = b') : Performs b token (b.endRow token next) := by
  unfold endRow
  split
  · refine performs_quiet hb ?_
    rw [hnext]
    exact ContentChanges.refl.popToRow.pop.switchTo _ hne (by decide)
  · exact performs_refuse hb _ token.isOfInput_unexpected

/-- A cell is opened with its marker. -/
theorem ContentChanges.insertCell (h : ContentChanges token mode b cs a) (hne : a.mode ≠ .text)
    (hm : mode ∈ tableModes) (hname : tag.name = "th" ∨ tag.name = "td")
    (ho : Hosts a (.html, tag.name)) (ht : token = .startTag tag) :
    ContentChanges token mode b cs ((a.insertHtml tag).switchTo .inCell).insertMarker := by
  have hpart : Part.ofName? tag.name = some .cell := by
    rcases hname with hname | hname <;> rw [hname] <;> decide
  refine ContentChanges.switchTo (h.insertMarked (fun p hp => ?_) ho ht) .inCell
    (by simpa using hne) (by decide)
  obtain rfl := Option.some.inj (hpart.symm.trans hp)
  exact ⟨hm, by decide⟩

theorem performs_inRow (h : Spine b) (ht : ParagraphsApart b) (hm : b.mode = .inRow)
    (hb : NoTextWaiting b) : Performs b token (b.inRow token) := by
  have htables : b.mode ∈ tableModes := by rw [hm]; decide
  have hne : b.mode ≠ .text := by rw [hm]; decide
  have htable (hp : ∀ tag, token = .startTag tag → tag.name ∉ Category.tableStructure) :
      Performs b token (b.inTable token) :=
      performs_table h ht htables (fun tag ht => Or.inr (hp tag ht)) hb
  have hend {next : TreeBuilder → Outcome} (hnext : ∀ b', (next b').builder = b') :
      Performs b token (b.endRow token next) := performs_endRow hne hb hnext
  cases token with
  | startTag tag =>
    simp only [inRow]
    refine .ite (fun hname => ?_) fun hcell => ?_
    · have ho : Hosts b.popToRow (.html, tag.name) :=
        h.hosts_popTo (q := .cell) htables hb (by decide)
        (by rw [hm]; decide) (by rcases hname with hname | hname <;> rw [hname] <;> decide)
        (by rw [hm]; rcases hname with hname | hname <;> rw [hname] <;> decide)
        (by rcases hname with hname | hname <;> rw [hname] <;> decide)
      exact performs_quiet hb (ContentChanges.refl.popToRow.insertCell hne htables hname ho rfl)
    refine .ite (fun _ => ?_) fun hpart => ?_
    · exact hend fun _ => rfl
    · refine htable fun tag' heq => ?_
      cases heq
      -- what is left after the branches above is no piece of a table
      exact not_mem_tableStructure (by decide) hcell (mt List.contains_iff_mem.2 hpart)
  | endTag tag =>
    simp only [inRow]
    refine .ite (fun _ => ?_) fun _ => ?_
    · exact hend fun _ => rfl
    refine .ite (fun _ => ?_) fun _ => ?_
    · exact hend fun _ => rfl
    refine .ite (fun _ => ?_) fun _ => ?_
    · split
      · exact hend fun _ => rfl
      · exact performs_refuse hb _ rfl
    refine .ite (fun _ => ?_) fun _ => ?_
    · exact performs_refuse hb _ rfl
    · exact htable (by simp)
  | character c => exact htable (by simp)
  | comment data => exact htable (by simp)
  | doctype d => exact htable (by simp)
  | endOfFile => exact htable (by simp)

/-! ## 6. Cells -/

/-- The open cell is closed with its marker. -/
theorem performs_closeCell (h : Spine b) (hm : b.mode = .inCell) (hb : NoTextWaiting b) :
    Performs b token (b.closeCell.reprocess token) := by
  have hs := h.steady (by rw [hm]; decide)
  have hne : b.mode ≠ .text := by rw [hm]; decide
  obtain ⟨rest, hbones⟩ := hs.bones_eq (p := .cell) (by rw [hm]; rfl)
  obtain ⟨inner, x, outer, hopen, -, -, hx, -⟩ := enclosed_of_innermost hbones
  have hcell : ∃ x ∈ b.openElements, b.isHtmlOf ["td", "th"] x = true := ⟨x, by simp [hopen], hx⟩
  have hchanges : ContentChanges token b.mode b [] _ :=
    ContentChanges.refl.unmarkClose hcell (by decide) none fun b => !b.currentIsOf ["td", "th"]
  obtain ⟨errors, he, -⟩ := reportIf_eq (b := b.closeImplied none)
    (!(b.closeImplied none).currentIsOf ["td", "th"]) .unclosedElements rfl
  unfold closeCell
  dsimp only at hchanges ⊢
  rw [he] at hchanges ⊢
  exact performs_quiet hb (hchanges.switchTo _ (by simpa using hne) (by decide))

theorem performs_inCell (h : Spine b) (ht : ParagraphsApart b) (hm : b.mode = .inCell)
    (hb : NoTextWaiting b) : Performs b token (b.inCell token) := by
  have hinBody : Performs b token (b.inBody token) := performs_inBody h ht (by rw [hm]; decide) hb
  have hne : b.mode ≠ .text := by rw [hm]; decide
  have hclose : Performs b token (b.closeCell.reprocess token) := performs_closeCell h hm hb
  cases token with
  | startTag tag =>
    simp only [inCell]
    split
    · split
      · exact hclose
      · exact performs_refuse hb _ rfl
    · exact hinBody
  | endTag tag =>
    simp only [inCell]
    refine .ite (fun hname => ?_) fun _ => ?_
    · split
      · next hin =>
        have hmarked : tag.name ∈ markedNames ∧ tag.name ∉ Category.impliedEnd := by
          rcases hname with hname | hname <;> rw [hname] <;> decide
        exact performs_quiet hb
          ((ContentChanges.refl.unmarkNamed (exists_of_inScope hin) hmarked).switchTo _
            (by simpa using hne) (by decide))
      · exact performs_refuse hb _ rfl
    refine .ite (fun _ => ?_) fun _ => ?_
    · exact performs_refuse hb _ rfl
    refine .ite (fun _ => ?_) fun _ => ?_
    · split
      · exact hclose
      · exact performs_refuse hb _ rfl
    · exact hinBody
  | character c => exact hinBody
  | comment data => exact hinBody
  | doctype d => exact hinBody
  | endOfFile => exact hinBody

end Hypertext.TreeBuilder
