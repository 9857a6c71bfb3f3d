import Hypertext.Proofs.TreeBuilder.Paragraphs

/-!
# Operations that heed the content models

What rules are made of, as changes that heed the content models. For an element it has to be
said that the place takes it; what is opened by the rules of the body is taken wherever these
rules are used.
-/

namespace Hypertext.TreeBuilder

open Hypertext.Tree

variable {token : Token} {mode : InsertionMode} {b b' a a' : TreeBuilder} {cs : List Char}
  {tag : Tag}

/-! ## 1. The mode while a rule is at work -/

section Mode

variable (b : TreeBuilder)

@[simp]
theorem mode_insertElement (name : String) (attributes : List Attribute) (ns : Namespace) :
    (b.insertElement name attributes ns).mode = b.mode := by
  obtain ⟨tree, openElements, fault, heq⟩ := insertElement_same b name attributes ns
  rw [heq]

@[simp]
theorem mode_insertHtml (tag : Tag) : (b.insertHtml tag).mode = b.mode := mode_insertElement ..

@[simp]
theorem mode_insertNamed (name : String) : (b.insertNamed name).mode = b.mode :=
  mode_insertElement ..

@[simp]
theorem mode_report (kind : ErrorKind) : (b.report kind).mode = b.mode := rfl

@[simp]
theorem mode_reportIf (bad : Bool) (kind : ErrorKind) : (b.reportIf bad kind).mode = b.mode := by
  cases bad <;> rfl

@[simp]
theorem mode_pop : b.pop.mode = b.mode := rfl

@[simp]
theorem mode_popWhile (p : NodeId → Bool) : (b.popWhile p).mode = b.mode := rfl

@[simp]
theorem mode_popThrough (p : NodeId → Bool) : (b.popThrough p).mode = b.mode := rfl

@[simp]
theorem mode_popToTable : b.popToTable.mode = b.mode := rfl

@[simp]
theorem mode_popToTableBody : b.popToTableBody.mode = b.mode := rfl

@[simp]
theorem mode_popToRow : b.popToRow.mode = b.mode := rfl

@[simp]
theorem mode_closeImplied (except : Option String) : (b.closeImplied except).mode = b.mode := rfl

@[simp]
theorem mode_closeNamed (name : String) (except : Option String) :
    (b.closeNamed name except).mode = b.mode := mode_reportIf ..

@[simp]
theorem mode_insertMarker : b.insertMarker.mode = b.mode := rfl

@[simp]
theorem mode_clearToMarker : b.clearToMarker.mode = b.mode := rfl

@[simp]
theorem mode_framesetNotOk : b.framesetNotOk.mode = b.mode := rfl

end Mode

/-! ## 2. Easing changes -/

/-- The tree stays as it is, and elements are at most closed. -/
theorem eases_of_tree (ht : a'.tree = a.tree) (hopen : a'.openElements <:+ a.openElements)
    (hmodes : a'.templateModes <:+ a.templateModes) (hs : a'.scripting = a.scripting)
    (hf : a'.fostering = a.fostering)
    (hm : a.mode = .text → a'.mode = .text ∨ a'.openElements <:+ a.openElements.tail) :
    Eases a a' :=
  ⟨fun _ _ h => ht ▸ h, fun _ h => ht.symm ▸ h, fun _ _ => by rw [ht], fun _ => by rw [ht],
    fun _ h => ht.symm ▸ h, fun _ => by rw [ht], by rw [ht], hopen, hmodes, hs, hf, hm⟩

/-- The attributes of an element change. -/
theorem eases_mergeAttributes (hr : Rooted a) (id : NodeId) (attributes : List Attribute) :
    Eases a (a.mergeAttributes id attributes) := by
  have s := sameShape_modifyElement hr.anchored.forest.linked id (f := fun e =>
    { e with attributes := attributes.foldl (fun as a => as.addNew a.name a.value) e.attributes })
    fun _ => rfl
  refine ⟨fun x p h => s.parent x ▸ h, fun x h => (s.parent x).symm ▸ h, fun x _ => s.parent x,
    s.label, fun f => (s.fragment f).2, fun x => text?_modifyElement _ _ x _, mode_congr ?_,
    List.suffix_refl _, List.suffix_refl _, rfl, rfl, Or.inl⟩
  -- the document is no element
  obtain ⟨documentMode, hroot⟩ := hr.anchored.forest.document
  change (a.tree.modifyElement id _).data? root = _
  rw [modifyElement, data?, get?_modify]
  split
  · next hid =>
    subst hid
    rw [data?] at hroot ⊢
    cases hn : a.tree.get? root with
    | none => rfl
    | some n =>
      rw [hn] at hroot
      have hdata : n.data = .document documentMode := Option.some.inj hroot
      simp [hdata]
  · rfl

/-- The body is taken out of an element. -/
theorem eases_detach (hr : Rooted a) {id : NodeId} (hbody : a.tree.label? id = some (.html, "body"))
    (hid : a.tree.parent? id ≠ some root) {stack : List NodeId} (hs : stack <:+ a.openElements) :
    Eases a { a with tree := a.tree.detach id, openElements := stack } := by
  have m := moved_detach hr.anchored.forest.linked id
  refine ⟨fun x p h => ?_, fun x h => ?_, fun x h => ?_, fun x => label?_congr (m.data x),
    fun f h => (m.data f).trans h, fun x => text?_congr (m.data x), mode_congr (m.data _), hs,
    List.suffix_refl _, rfl, rfl, Or.inl⟩
  · rw [m.parent] at h
    split at h
    · cases h
    · exact h
  · rw [m.parent]
    split
    · next hx => exact absurd (hx ▸ h) hid
    · exact h
  · rw [m.parent, if_neg]
    rintro rfl
    exact h hbody

/-! ## 3. Places that take what comes -/

/-- The innermost part holds content of any kind, or what comes is put before the table. -/
def Broad (b : TreeBuilder) : Prop :=
  ∃ p rest, b.bones = p :: rest ∧
    (p.contents? = none ∨ b.fostering = true ∧ p ∈ [Part.table, .rowGroup, .row])

theorem redirects_of_part {y : NodeId} {p : Part} (hf : b.fostering = true)
    (hy : b.tree.part? y = some p) (hp : p ∈ [Part.table, .rowGroup, .row]) : Redirects b y := by
  obtain ⟨name, hname, hl⟩ := part?_eq_some.1 hy
  refine ⟨hf, isHtmlOf_iff.2 ⟨name, ?_, hl⟩⟩
  have hall : ∀ p ∈ [Part.table, .rowGroup, .row], ∀ name ∈ p.names, name ∈ Category.fostering := by
    decide
  exact hall p hp name hname

/-- A current node that is a part is the innermost one. -/
theorem head_of_bones {p : Part} {rest : List Part} {stack : List NodeId} {t : Tree}
    (hb : t.bones stack = p :: rest) :
    stack ≠ [] ∧ ∀ y ∈ stack.head?, t.part? y = none ∨ t.part? y = some p := by
  cases stack with
  | nil => cases hb
  | cons x outer =>
    refine ⟨List.cons_ne_nil _ _, fun y hy => ?_⟩
    obtain rfl : x = y := Option.some.inj hy
    cases hx : t.part? x with
    | none => exact Or.inl rfl
    | some q =>
      rw [bones_cons_some hx] at hb
      exact Or.inr (congrArg some (List.cons.inj hb).1)

/-- What is inserted is redirected between the parts of a table only. -/
theorem braced_of_part (h : ∀ y ∈ b.openElements.head?,
    b.tree.part? y ∉ [some Part.table, some .rowGroup, some .row]) : Braced b b.openElements := by
  intro y hy hr
  obtain ⟨name, hname, hl⟩ := isHtmlOf_iff.1 hr.2
  have hall : ∀ name ∈ Category.fostering,
    Part.ofName? name ∈ [some Part.table, some .rowGroup, some .row] := by decide
  refine absurd ?_ (h y hy)
  rw [part?_of_label hl, partOf_html]
  exact hall name hname

theorem braced_of_bones {p : Part} {rest : List Part} (hb : b.bones = p :: rest)
    (hp : p ∉ [Part.table, .rowGroup, .row]) : Braced b b.openElements :=
  braced_of_part fun y hy hmem => by
    obtain hnone | hsome := (head_of_bones hb).2 y hy
    · rw [hnone] at hmem
      simp at hmem
    · rw [hsome] at hmem
      exact hp (by simpa using hmem)

/-- Formatting elements that are opened again are no parts. -/
theorem Braced.opens (h : Braced b b.openElements)
    (hl : ∀ x ∈ b.openElements, (b.tree.label? x).isSome)
    (ho : Opens b b') : Braced b' b'.openElements := by
  obtain ⟨new, hnew, hformatted⟩ := ho.stack
  cases new with
  | nil =>
    rw [hnew, List.nil_append]
    intro y hy hr
    refine ho.keeps.seated hl (h y hy ⟨?_, ?_⟩)
    · rw [← hr.1, ho.same]
    · obtain ⟨name, hname, hl'⟩ := isHtmlOf_iff.1 hr.2
      obtain ⟨l, hly⟩ := Option.isSome_iff_exists.1 (hl y (List.mem_of_mem_head? hy))
      rw [ho.keeps y l hly] at hl'
      exact isHtmlOf_iff.2 ⟨name, hname, hly.trans hl'⟩
  | cons x new =>
    refine braced_of_part fun y hy => ?_
    rw [hnew] at hy
    obtain rfl : x = y := Option.some.inj hy
    obtain ⟨name, hname, hl'⟩ := hformatted x (List.mem_cons_self ..)
    rw [part?_of_label hl', partOf_html, ofName?_formatting _ hname]
    decide

theorem Broad.welcomes (h : Broad b) {above outer : List NodeId}
    (hopen : b.openElements = above ++ outer)
    (hc : Clear b.tree above) : ∀ y ∈ outer.head?, Welcomes b y := by
  obtain ⟨p, rest, hb, hp⟩ := h
  intro y hy
  have hbones : b.tree.bones outer = p :: rest := by
    rw [← hb, bones, hopen, hc.bones_append]
  obtain hnone | hsome := (head_of_bones hbones).2 y hy
  · exact Or.inr (Or.inr (by rw [hnone]; rfl))
  · obtain hp | ⟨hf, hp⟩ := hp
    · exact Or.inr (Or.inr (by rw [hsome]; exact hp))
    · exact Or.inl (redirects_of_part hf hsome hp)

/-- What is no piece of a table may be put where the innermost part admits it, or before a table. -/
theorem takes_of_bones {p : Part} {rest : List Part} {l : Namespace × String}
    (hb : b.bones = p :: rest) (hl : Flow l)
    (hp : p.Admits l ∨ b.fostering = true ∧ p ∈ [Part.table, .rowGroup, .row])
    (hbraced : Braced b b.openElements) : Takes b l := by
  obtain ⟨hne, hhead⟩ := head_of_bones hb
  refine ⟨fun hopen => absurd hopen hne, fun _ _ _ => hl, hbraced, fun y hy hr _ => ?_⟩
  obtain hnone | hsome := hhead y hy
  · rw [hnone]
    exact Or.inl hl
  · rw [hsome, Option.bind_some]
    obtain hp | ⟨hf, hp⟩ := hp
    · split
      · next names hnames => exact hp names hnames
      · exact Or.inl hl
    · exact absurd (redirects_of_part hf hsome hp) hr

theorem Broad.takes (h : Broad b) (hb : Braced b b.openElements) {l : Namespace × String}
    (hl : Flow l) : Takes b l := by
  obtain ⟨p, rest, hbones, hp⟩ := h
  refine takes_of_bones hbones hl (hp.imp_left fun hnone names hsome => ?_) hb
  rw [hnone] at hsome
  cases hsome

/-- Text that comes between the parts of a table is put before it. -/
theorem Broad.takesChar (h : Broad b) (hbraced : Braced b b.openElements) (c : Char) :
    TakesChar b c := by
  obtain ⟨p, rest, hb, hp⟩ := h
  refine ⟨fun y hy hpart => Or.inl ?_, hbraced⟩
  obtain hnone | hsome := (head_of_bones hb).2 y hy
  · rw [hnone] at hpart
    simp at hpart
  · rw [hsome] at hpart
    obtain hp | ⟨hf, hp⟩ := hp
    · exfalso
      revert hpart hp
      cases p <;> decide
    · exact redirects_of_part hf hsome hp

/-- A piece of a table may be put into the current node, if that is the part that it belongs to. -/
theorem takes_of_top {l : Namespace × String} (hne : b.openElements ≠ []) (hf : b.fostering = false)
    (hns : l.1 = .html) (htop : ∀ y ∈ b.openElements.head?, ∃ p, b.tree.part? y = some p ∧
      (p = .template ∨ l.2 ∈ p.contents?.getD [])) : Takes b l := by
  refine ⟨fun h => absurd h hne, fun y _ hr => ?_, braced_of_settled hf _, fun y hy _ ht => ?_⟩
  · rw [Redirects, hf] at hr
    cases hr.1
  · obtain ⟨p, hp, rfl | hl⟩ := htop y hy
    · exact absurd hp ht
    · rw [hp, Option.bind_some]
      cases hnames : p.contents? with
      | none =>
        rw [hnames] at hl
        cases hl
      | some names =>
        rw [hnames] at hl
        exact ⟨hns, hl⟩

/-- Nothing is asked for in a part that is neither a select element nor a template. -/
theorem region_eq_none {p : Part} {rest : List Part} (hb : b.bones = p :: rest)
    (hp : p ∉ [Part.select, .template]) : b.region = none := by
  rw [region, hb]
  cases p <;> first | rfl | simp at hp

theorem suits_of_region {l : Namespace × String} (h : b.region = none) : Suits b l :=
  fun names hn => by
  rw [h] at hn
  cases hn

theorem suits_of_part {l : Namespace × String} {p : Part} (h : partOf l = some p) : Suits b l :=
  fun _ _ hl => by
    rw [h] at hl
    cases hl

theorem spares_of_not_mem {l : Namespace × String} (h : l.2 ∉ Content.block) : Spares b l :=
  fun _ hname => absurd hname h

/-- Formatting elements may be opened. -/
structure Roomy (b : TreeBuilder) : Prop where
  mode : b.mode ≠ .text
  broad : Broad b
  braced : Braced b b.openElements
  region : ∀ names, b.region = some names → names = Category.formatting

theorem Roomy.hosts (h : Roomy b) {name : String} (hname : name ∈ Category.formatting) :
    Hosts b (.html, name) where
  mode := h.mode
  takes := h.broad.takes h.braced fun _ => Content.formatting_not_structure name hname
  plain _ := ⟨Content.formatting_not_void name hname, Content.formatting_not_raw name hname⟩
  suits := fun names hn _ => Or.inl ⟨rfl, (h.region names hn).symm ▸ hname⟩
  spares := spares_of_not_mem (Content.formatting_not_block name hname)

/-- What the parts show stays as it is. -/
theorem Roomy.congr (h : Roomy b) (hb : Braced b' b'.openElements) (hbones : b'.bones = b.bones)
    (hm : b'.mode = b.mode) (hmodes : b'.templateModes = b.templateModes)
    (hf : b'.fostering = b.fostering) : Roomy b' := by
  refine ⟨hm ▸ h.mode, ?_, hb, fun names hn => h.region names ?_⟩
  · rw [Broad, hbones, hf]
    exact h.broad
  · rwa [TreeBuilder.region, hbones, hmodes] at hn

/-! ## 4. Operations -/

namespace ContentChanges

variable (h : ContentChanges token mode b cs a)
include h

/-! ### Notes -/

/-- Nothing is changed but what rules note down besides the modes. -/
theorem remark (heq : a' = { a with
      headElement := a'.headElement, formElement := a'.formElement, framesetOk := a'.framesetOk,
      skipNewline := a'.skipNewline, selfClosing := a'.selfClosing, stateRequest := a'.stateRequest,
      errors := a'.errors, fault := a'.fault })
    (hok : a'.framesetOk = true → a.framesetOk = true)
    (hl : a.errors.GrowsAt a.position a'.errors) : ContentChanges token mode b cs a' := by
  rw [heq]
  exact h.step (Acts.refl.note ⟨rfl, rfl, rfl, rfl, hok, fun _ => id, rfl, hl⟩)
    (.ease (eases_of_tree rfl (List.suffix_refl _) (List.suffix_refl _) rfl rfl Or.inl))

theorem report (kind : ErrorKind) (hk : kind.isOfInput = false) :
    ContentChanges token mode b cs (a.report kind) :=
  h.remark rfl id (.record hk)

theorem reportIf (bad : Bool) (kind : ErrorKind) (hk : kind.isOfInput = false) :
    ContentChanges token mode b cs (a.reportIf bad kind) := by
  unfold TreeBuilder.reportIf
  split
  · exact h.report kind hk
  · exact h

theorem requestState (state : Tokenizer.State) :
    ContentChanges token mode b cs (a.requestState state) :=
  h.remark rfl id .refl

theorem acknowledge : ContentChanges token mode b cs a.acknowledge := h.remark rfl id .refl

theorem framesetNotOk : ContentChanges token mode b cs a.framesetNotOk := h.remark rfl nofun .refl

/-- The modes change, where no raw text is read. -/
theorem note (ha : Aside mode a a') (hmodes : a'.templateModes <:+ a.templateModes)
    (hs : a'.scripting = a.scripting) (hf : a'.fostering = a.fostering) (hm : a.mode ≠ .text) :
    ContentChanges token mode b cs a' :=
  h.step (Acts.refl.note ha)
    (.ease (eases_of_tree ha.tree (ha.openElements ▸ List.suffix_refl _) hmodes hs hf
    (absurd · hm)))

theorem switchTo (mode' : InsertionMode) (hne : a.mode ≠ .text) (hm : mode' ∉ pastFrameset) :
    ContentChanges token mode b cs (a.switchTo mode') :=
  h.note ⟨rfl, rfl, rfl, rfl, id, fun _ hc => ⟨hm, hc.resumeMode, hc.templateModes⟩, rfl,
    .refl⟩ (List.suffix_refl _) rfl rfl hne

theorem resetMode (hne : a.mode ≠ .text) : ContentChanges token mode b cs a.resetMode :=
  h.note ⟨rfl, rfl, rfl, rfl, id, fun _ hc =>
    ⟨Acts.calm_modeFor hc.templateModes _, hc.resumeMode, hc.templateModes⟩, rfl, .refl⟩
    (List.suffix_refl _) rfl rfl hne

/-! ### Closing elements -/

theorem close {stack : List NodeId} (hs : stack <:+ a.openElements) :
    ContentChanges token mode b cs { a with openElements := stack } :=
  h.step (Acts.refl.close hs) (.ease (eases_of_tree rfl hs (List.suffix_refl _) rfl rfl Or.inl))

theorem pop : ContentChanges token mode b cs a.pop := h.close (List.tail_suffix _)

/-- Raw text is left together with its element. -/
theorem resume : ContentChanges token mode b cs a.pop.resume :=
  h.step Acts.refl.pop.resume
    (.ease (eases_of_tree rfl (List.tail_suffix _) (List.suffix_refl _) rfl rfl
    fun _ => Or.inr (List.suffix_refl _)))

theorem popIf (name : String) : ContentChanges token mode b cs (a.popIf name) := by
  unfold TreeBuilder.popIf
  split
  · exact h.pop
  · exact h

theorem popWhile (p : NodeId → Bool) : ContentChanges token mode b cs (a.popWhile p) :=
  h.close (List.dropWhile_suffix p)

theorem popTo (names : List String) : ContentChanges token mode b cs (a.popTo names) := h.popWhile _

theorem truncate (count : Nat) : ContentChanges token mode b cs (a.truncate count) :=
  h.close (List.drop_suffix _ _)

theorem popThrough (p : NodeId → Bool) : ContentChanges token mode b cs (a.popThrough p) :=
  h.close (dropThrough_suffix p _)

theorem closeImplied (except : Option String) :
    ContentChanges token mode b cs (a.closeImplied except) :=
  h.popWhile _

theorem closeImpliedThoroughly : ContentChanges token mode b cs a.closeImpliedThoroughly :=
  h.popWhile _

theorem closeNamed (name : String) (except : Option String) :
    ContentChanges token mode b cs (a.closeNamed name except) :=
  ((h.closeImplied except).reportIf _ _ rfl).popThrough _

theorem closeOpenParagraph : ContentChanges token mode b cs a.closeOpenParagraph := by
  unfold TreeBuilder.closeOpenParagraph
  split
  · exact h.closeNamed "p" (some "p")
  · exact h

theorem removeForm (hn : Named a.tree a.formatting) {id : NodeId}
    (hl : a.tree.label? id = some (.html, "form")) :
    ContentChanges token mode b cs (a.removeOpen id) :=
  h.step (Acts.refl.removeOpen (hn.not_mem hl (by decide)))
    (.remove ⟨"form", List.mem_cons_self .., hl⟩)

/-- An element with a marker is closed, with everything in it, and the list is cleared. -/
theorem unmark {p : NodeId → Bool} {x : NodeId} (hx : x ∈ a.openElements) (hp : p x = true)
    (hm : ∀ x, p x = true → Marked a.tree x) :
    ContentChanges token mode b cs (a.popThrough p).clearToMarker :=
  h.step (Acts.refl.unmark hx hp hm)
    (.ease (eases_of_tree rfl (dropThrough_suffix p _) (List.suffix_refl _) rfl rfl Or.inl))

theorem stopped : ContentChanges token mode b cs a.stop :=
  h.step (Acts.refl.step .stop)
    (.ease (eases_of_tree rfl (List.nil_suffix) (List.nil_suffix) rfl rfl Or.inl))

/-! ### Inserting elements -/

theorem insertElement {name : String} {ns : Namespace} (attributes : List Attribute)
    (hm : ns = .html → name ∉ markedNames) (hp : ∀ p, partOf (ns, name) = some p →
      MayOpen token mode p ∧ p ∉ [Part.table, .select, .template]) (ho : Hosts a (ns, name))
    (hs : Supplied token a.formatting name attributes) :
    ContentChanges token mode b cs (a.insertElement name attributes ns) := by
  have d : ContentChange a { a.insertElement name attributes ns with
      formatting := a.formatting, framesetOk := a.framesetOk } := .insert ho
  have s : Acts token mode a [] (a.insertElement name attributes ns) :=
    Acts.refl.insertElement attributes hm hp ho.takes.braced hs
  obtain ⟨tree, openElements, fault, heq⟩ := insertElement_same a name attributes ns
  rw [heq] at d s ⊢
  exact h.step s d

theorem insertNamed {name : String} (hname : Part.ofName? name = none)
    (hm : name ∉ Category.markerElements) (attributes : List Attribute) (ho : Hosts a (.html, name))
    (hs : Supplied token a.formatting name attributes) :
    ContentChanges token mode b cs (a.insertElement name attributes .html) := by
  have s : Acts token mode a [] (a.insertElement name attributes .html) :=
    Acts.refl.insertNamed hname hm attributes ho.takes.braced hs
  have d : ContentChange a { a.insertElement name attributes .html with
      formatting := a.formatting, framesetOk := a.framesetOk } := .insert ho
  obtain ⟨tree, openElements, fault, heq⟩ := insertElement_same a name attributes .html
  rw [heq] at d s ⊢
  exact h.step s d

/-- An element that is no part. -/
theorem insertHtml (hname : Part.ofName? tag.name = none) (hm : tag.name ∉ Category.markerElements)
    (ho : Hosts a (.html, tag.name)) (ht : token = .startTag tag) :
    ContentChanges token mode b cs (a.insertHtml tag) :=
  h.insertNamed hname hm tag.attributes ho (.tag ht)

/-- An element that is closed at once. -/
theorem insertClosed {name : String} (hname : Part.ofName? name = none)
    (hm : name ∉ Category.markerElements) (attributes : List Attribute)
    (hvoid : name ∈ Content.void ∨ name = "form") (hne : a.mode ≠ .text)
    (ht : Takes a (.html, name)) (hs : name = "form" ∨ a.region.isSome ∨ Spares a (.html, name))
    (hsupplied : Supplied token a.formatting name attributes) :
    ContentChanges token mode b cs (a.insertElement name attributes .html).pop :=
  h.step (Acts.refl.insertNamed hname hm attributes ht.braced hsupplied).pop (.void hvoid hne ht hs)

theorem insertVoid (hname : Part.ofName? tag.name = none) (hm : tag.name ∉ Category.markerElements)
    (hvoid : tag.name ∈ Content.void) (hne : a.mode ≠ .text) (htakes : Takes a (.html, tag.name))
    (hs : a.region.isSome ∨ Spares a (.html, tag.name)) (ht : token = .startTag tag) :
    ContentChanges token mode b cs (a.insertVoid tag) :=
  (h.insertClosed hname hm tag.attributes (Or.inl hvoid) hne htakes (Or.inr hs)
    (.tag ht)).acknowledge

theorem insertRawText (hname : Part.ofName? tag.name = none)
    (hm : tag.name ∉ Category.markerElements)
    (kind : RawText) (hraw : tag.name ∈ Content.raw a.scripting) (hne : a.mode ≠ .text)
    (htakes : Takes a (.html, tag.name)) (hs : Spares a (.html, tag.name))
    (ht : token = .startTag tag) : ContentChanges token mode b cs (a.insertRawText tag kind) := by
  have s : Acts token mode a [] { a.insertElement tag.name tag.attributes .html with
      resumeMode := some a.mode, mode := .text } := by
    refine (Acts.refl.insertHtml hname hm htakes.braced ht).note ?_
    refine ⟨rfl, rfl, rfl, rfl, id, fun _ hc =>
      ⟨(by decide : InsertionMode.text ∉ pastFrameset), fun _ hr => ?_, hc.templateModes⟩, rfl,
        .refl⟩
    rw [← Option.some.inj hr, ← mode_insertHtml a tag]
    exact hc.mode
  have h' := (h.step s (.startText hraw hne htakes hs)).requestState (.text kind)
  unfold TreeBuilder.insertRawText
  dsimp only
  obtain ⟨tree, openElements, fault, heq⟩ := insertElement_same a tag.name tag.attributes .html
  have heq' : a.insertHtml tag = { a with tree, openElements, fault } := heq
  rw [heq] at h'
  rw [heq']
  exact h'

theorem insertForeign {name : String} {ns : Namespace}
    (hns : ns ≠ .html) (attributes : List Attribute)
    (ho : Hosts a (ns, name)) (hs : Supplied token a.formatting name attributes) :
    ContentChanges token mode b cs (a.insertForeign tag name attributes ns) := by
  have hi : ContentChanges token mode b cs (a.insertElement name attributes ns) :=
    h.insertElement attributes (absurd · hns) (fun p hp => by simp [partOf, hns] at hp) ho hs
  unfold TreeBuilder.insertForeign
  dsimp only
  split
  · exact hi.pop.acknowledge
  · exact hi

/-- An element that a frameset cannot follow. -/
theorem insertBarring (hm : tag.name ∉ markedNames)
    (hp : ∀ p, Part.ofName? tag.name = some p → MayOpen token mode p)
    (ho : Hosts a (.html, tag.name)) (ht : token = .startTag tag) :
    ContentChanges token mode b cs (a.insertHtml tag).framesetNotOk := by
  have d : ContentChange a { a.insertElement tag.name tag.attributes .html with
      formatting := a.formatting, framesetOk := false } := .insert ho
  have s : Acts token mode a [] (a.insertHtml tag).framesetNotOk :=
    Acts.refl.insertBarring hm hp ho.takes.braced ht
  obtain ⟨tree, openElements, fault, heq⟩ := insertElement_same a tag.name tag.attributes .html
  have heq' : a.insertHtml tag = { a with tree, openElements, fault } := heq
  rw [heq] at d
  rw [heq'] at s ⊢
  exact h.step s d

theorem insertMarked (hp : ∀ p, Part.ofName? tag.name = some p →
      MayOpen token mode p ∧ p ∉ [Part.table, .select, .template]) (ho : Hosts a (.html, tag.name))
    (ht : token = .startTag tag) :
    ContentChanges token mode b cs (a.insertHtml tag).insertMarker := by
  have s : Acts token mode a [] (a.insertHtml tag).insertMarker :=
    Acts.refl.insertMarked hp ho.takes.braced ht
  have heq : (a.insertHtml tag).insertMarker = _ :=
    Acts.insertMarker_eq tag.name tag.attributes .html
  rw [heq] at s ⊢
  exact h.step s (.insert ho)

theorem insertMarkedBarring (hp : ∀ p, Part.ofName? tag.name = some p → MayOpen token mode p)
    (ho : Hosts a (.html, tag.name)) (ht : token = .startTag tag) :
    ContentChanges token mode b cs (a.insertHtml tag).insertMarker.framesetNotOk := by
  have s : Acts token mode a [] (a.insertHtml tag).insertMarker.framesetNotOk :=
    Acts.refl.insertMarkedBarring hp ho.takes.braced ht
  have heq : (a.insertHtml tag).insertMarker = _ :=
    Acts.insertMarker_eq tag.name tag.attributes .html
  rw [heq] at s ⊢
  exact h.step s (.insert ho)

/-! ### Inserting other nodes -/

theorem insertComment (hr : Rooted a) (hne : a.mode ≠ .text) {data : String}
    (ht : token = .comment data) : ContentChanges token mode b cs (a.insertComment data) := by
  have s : Acts token mode a [] (a.insertComment data) := Acts.refl.insertComment hr ht
  rw [insertComment_eq_insertAt hr.anchored] at s ⊢
  exact h.step s (.leaf (Or.inl rfl) (Or.inl rfl) (Or.inl hne))

theorem insertCommentIn (hr : Rooted a) {parent : NodeId} (hp : Outermost a parent) {data : String}
    (ht : token = .comment data) :
    ContentChanges token mode b cs (a.insertCommentIn parent data) := by
  have s : Acts token mode a [] (a.insertCommentIn parent data) :=
    Acts.refl.insertCommentIn hr hp ht
  have hplace : PlacesLeaf a ⟨parent, none⟩ := Or.inr ⟨rfl, hp⟩
  rw [insertCommentIn_eq_insertAt hr.anchored.forest (hplace.lt hr)] at s ⊢
  exact h.step s (.leaf (Or.inl rfl) hplace (Or.inr hp))

theorem mergeAttributes (hr : Rooted a) {id : NodeId} {tag : Tag} (ht : token = .startTag tag)
    (hid : a.tree.Outer id ∨ a.tree.Housed id) :
    ContentChanges token mode b cs (a.mergeAttributes id tag.attributes) :=
  h.step (Acts.refl.mergeAttributes ht hid) (.ease (eases_mergeAttributes hr id tag.attributes))

/-! ### The list of active formatting elements -/

theorem removeFormatting (id : NodeId) :
    ContentChanges token mode b cs (a.removeFormatting id) := by
  have s : Acts token mode a [] (a.removeFormatting id) := Acts.refl.removeFormatting id
  obtain ⟨entries, heq, -⟩ := removeFormatting_eq (b := a) id
  rw [heq] at s ⊢
  exact h.step s (.ease (eases_of_tree rfl (List.suffix_refl _) (List.suffix_refl _) rfl
    rfl Or.inl))

theorem dropFormatting {id : NodeId}
    (hid : ∃ name ∈ Category.formatting,
      (a.removeFormatting id).tree.label? id = some (.html, name)) :
    ContentChanges token mode b cs ((a.removeFormatting id).removeOpen id) := by
  have s : Acts token mode a [] ((a.removeFormatting id).removeOpen id) :=
    Acts.refl.dropFormatting id
  obtain ⟨name, hname, hl⟩ := hid
  obtain ⟨entries, heq, -⟩ := removeFormatting_eq (b := a) id
  rw [heq] at s hl ⊢
  exact h.step s (.remove ⟨name, List.mem_cons_of_mem _ hname, hl⟩)

/-- The closed element with the entry at index `i` is opened again. -/
theorem exists_renew {i : Nat} {old : NodeId} {tag : Tag} (hr : Rooted a) (hroom : Roomy a)
    (hi : a.formatting[i]? = some (.element old tag))
    (hends : EndsOpen a.openElements (a.formatting.take i))
    (hlater : ∀ x ∈ (a.formatting.drop (i + 1)).filterMap (·.id?), x ∉ a.openElements) :
    ∃ id tree, a.insertHtml tag = { a with tree, openElements := id :: a.openElements } ∧
      ContentChanges token mode b cs { a with
        tree, openElements := id :: a.openElements
        formatting := a.formatting.set i (.element id tag) } ∧
      Rooted { a with
        tree, openElements := id :: a.openElements
        formatting := a.formatting.set i (.element id tag) } ∧
      Roomy { a with
        tree, openElements := id :: a.openElements
        formatting := a.formatting.set i (.element id tag) } ∧
      ∀ x ∈ (a.formatting.drop (i + 1)).filterMap (·.id?), x ∉ id :: a.openElements := by
  obtain ⟨id, tree, heq, hacts, hr', hlater'⟩ :=
    (Acts.refl : Acts token mode a [] a).exists_renew hr hroom.braced hi hends hlater
  have ht := (hr.named old tag (List.mem_of_getElem? hi)).1
  have d : ContentChange a { a.insertElement tag.name tag.attributes .html with
      formatting := a.formatting.set i (.element id tag), framesetOk := a.framesetOk } :=
    .insert (hroom.hosts ht)
  have heq' : a.insertElement tag.name tag.attributes .html =
      { a with tree, openElements := id :: a.openElements } := heq
  rw [heq'] at d
  -- the new element is no part
  have hl := (hr'.named id tag (List.mem_of_getElem? (i := i) (by
    rw [List.getElem?_set_self (List.getElem?_eq_some_iff.1 hi).1]))).2
  have hnone : tree.part? id = none := by
    rw [part?_of_label hl, partOf_html, ofName?_formatting _ ht]
  have hbraced : Braced { a with
      tree, openElements := id :: a.openElements
      formatting := a.formatting.set i (.element id tag) } (id :: a.openElements) :=
      braced_of_part fun y hy => by
    obtain rfl : id = y := Option.some.inj hy
    rw [hnone]
    decide
  refine ⟨id, tree, heq, h.step hacts d, hr', hroom.congr hbraced ?_ rfl rfl rfl, hlater'⟩
  exact (bones_cons_none hnone).trans (Keeps.bones (hacts.keeps hr) hr.anchored.element)

theorem exists_reopen? {i count : Nat} (hr : Rooted a) (hroom : Roomy a)
    (hi : i + count = a.formatting.length) (hends : EndsOpen a.openElements (a.formatting.take i))
    (hclosed : ∀ x ∈ (a.formatting.drop i).filterMap (·.id?), x ∉ a.openElements) :
    ∃ a', a.reopen? i count = some a' ∧ ContentChanges token mode b cs a' := by
  -- the entries from `i` on are closed, and each step opens the first of them, so the entry before
  -- `i` is always open
  induction count generalizing a i with
  | zero => exact ⟨a, rfl, h⟩
  | succ count ih =>
    have hlt : i < a.formatting.length := by omega
    have hget := List.getElem?_eq_getElem hlt
    have hlater : ∀ x ∈ (a.formatting.drop (i + 1)).filterMap (·.id?), x ∉ a.openElements := by
      intro x hx
      refine hclosed x (((List.drop_sublist 1 _).filterMap _).subset ?_)
      rwa [List.drop_drop]
    rw [TreeBuilder.reopen?, hget]
    cases hentry : a.formatting[i] with
    | marker =>
      rw [hentry] at hget
      exact ih h hr hroom (by omega) (endsOpen_take_succ hget (by simp)) hlater
    | element old tag =>
      rw [hentry] at hget
      obtain ⟨id, tree, heq, h', hr', hroom', hlater'⟩ := h.exists_renew hr hroom hget hends hlater
      have hcurrent : (a.insertHtml tag).currentNode?.getD old = id := by rw [heq]; rfl
      have hset := setFormatting_eq (b := { a with tree, openElements := id :: a.openElements }) hlt
        (.element id tag)
      simp only [Option.bind_eq_bind, Option.bind_some, hcurrent]
      rw [heq, hset, Option.bind_some]
      refine ih h' hr' hroom' (by simpa using (show i + 1 + count = a.formatting.length by omega))
        (endsOpen_take_succ (List.getElem?_set_self hlt) ?_) ?_
      · rintro _ _ ⟨⟩
        exact List.mem_cons_self
      · rwa [List.drop_set_of_lt (by omega)]

theorem reconstruct (hr : Rooted a) (hroom : Roomy a) :
    ContentChanges token mode b cs a.reconstruct := by
  cases hlength : a.formatting.length with
  | zero =>
    simp only [TreeBuilder.reconstruct, hlength, Indexed.before?]
    exact h
  | succ last =>
    obtain ⟨c, hc⟩ := exists_isClosedAt? (b := a) (i := last) (by omega)
    simp only [TreeBuilder.reconstruct, hlength, Indexed.before?, reconstructFrom?, hc,
      Option.bind_eq_bind, Option.bind_some]
    cases c with
    | false => exact h
    | true =>
      -- `rewind?` finds the first of the closed entries at the end of the list
      obtain ⟨first, hle, hrewind, hclosed, hends⟩ := exists_rewind? (b := a) (i := last) (by omega)
      have hall : ∀ x ∈ (a.formatting.drop first).filterMap (·.id?), x ∉ a.openElements := by
        intro x hx
        obtain ⟨entry, hmem, hid⟩ := List.mem_filterMap.1 hx
        obtain ⟨k, hk, rfl⟩ := List.mem_iff_getElem.1 hmem
        rw [List.length_drop] at hk
        rw [List.getElem_drop] at hid
        refine not_mem_of_isClosedAt? (k := first + k) ?_
          (by rw [List.getElem?_eq_getElem (by omega), Option.bind_some, hid])
        obtain hlast | hlast : first + k = last ∨ first + k < last := by omega
        · rw [hlast, hc]
        · exact hclosed _ (Nat.le_add_right _ _) hlast
      obtain ⟨a', ha', h'⟩ := h.exists_reopen? hr hroom
        (show first + (last + 1 - first) = a.formatting.length by omega) hends hall
      simp only [if_true, hrewind, Option.bind_some, ha', attempt_some]
      exact h'

/-- An element that is remembered in the list. -/
theorem insertRemembered {id : NodeId} (ht : tag.name ∈ Category.formatting)
    (hid : (a.insertHtml tag).currentNode? = some id) (hends : EndsOpen a.openElements a.formatting)
    (hroom : Roomy a) (htoken : token = .startTag tag) :
    ContentChanges token mode b cs ((a.insertHtml tag).pushFormatting id tag) := by
  have hpart : ∀ p, partOf (.html, tag.name) ≠ some p := fun p => by
    rw [partOf_html, ofName?_formatting _ ht]
    simp
  have s : Step token mode a { a.insertElement tag.name tag.attributes .html with
      formatting := ((a.insertHtml tag).pushFormatting id tag).formatting
      framesetOk := a.framesetOk } :=
    .insert (.remember ht hid hends) (fun p hp => absurd hp (hpart p))
      (fun hok => ⟨hok, fun p hp => absurd hp (hpart p)⟩) hroom.braced (.tag htoken)
  have hs := h.step (Acts.refl.step s) (.insert (hroom.hosts ht))
  obtain ⟨entries, hb, -⟩ := pushFormatting_eq (b := a.insertHtml tag) id tag
  obtain ⟨tree, openElements, fault, heq⟩ := insertElement_same a tag.name tag.attributes .html
  have heq' : a.insertHtml tag = { a with tree, openElements, fault } := heq
  rw [hb] at hs ⊢
  rw [heq']
  rw [heq] at hs
  exact hs

/-! ### The adoption agency -/

theorem agency {subject : String} {a' : TreeBuilder} (hag : Agency subject a a') (hr : Ready a)
    (ht : token ≠ .endOfFile) (hroom : Roomy a) : ContentChanges token mode b cs a' := by
  induction hag with
  | stop errors hl => exact h.remark rfl id hl
  | @forget a errors element hl =>
    have h' : ContentChanges token mode b cs { a with errors } := h.remark rfl id hl
    exact h'.removeFormatting element
  | @close a errors inner outer element hl hopen _ =>
    have h' : ContentChanges token mode b cs { a with errors } := h.remark rfl id hl
    exact (h'.close ⟨inner, hopen.symm⟩).removeFormatting element
  | @round a a₁ a' errors r hl hactive ha p _ ih =>
    have h' : ContentChanges token mode b cs { a with errors } := h.remark rfl id hl
    have hcut : a.openElements = (r.deeper ++ r.block :: (r.between ++ [r.element])) ++
        r.outer := by
      have hstack : a.openElements = _ := ha.carriable.stack
      simp [hstack]
    have hw : ∀ y ∈ r.outer.head?, Welcomes a y := hroom.broad.welcomes hcut ha.clear
    have d : ContentChange { a with errors } a₁ := .adopt ha hroom.mode hw
    have hbraced : Braced { a with errors } r.outer := fun _ _ _ => (hcut ▸ hr.framed.seated).suffix
    have hr' := p.ready hr
    exact ih (h'.step (Acts.refl.step (.adopt ht hactive ha hbraced)) d) hr'
      (hroom.congr (fun _ _ _ => hr'.framed.seated) p.same.bones p.same.mode p.same.modes
        d.fostering)

theorem runAdoption (hr : Ready a) {subject : String} (hs : subject ∈ Category.formatting)
    (ht : token ≠ .endOfFile) (hroom : Roomy a) :
    ContentChanges token mode b cs (a.runAdoption subject).1 := by
  unfold TreeBuilder.runAdoption
  split
  · exact h.pop
  · obtain ⟨r, hadopt, hag⟩ := exists_adopt? hs outerLimit hr
    rw [hadopt]
    exact h.agency hag hr ht hroom

end ContentChanges

/-! ## 5. Content of any kind -/

/-- Content of any kind may come next: elements, too. -/
structure Flows (token : Token) (mode : InsertionMode) (b : TreeBuilder) (cs : List Char)
    (a : TreeBuilder) : Prop where
  rooted : Rooted b
  paragraphsApart : ParagraphsApart b
  contentChanges : ContentChanges token mode b cs a
  ready : Ready a
  mode : a.mode ≠ .text
  broad : Broad a
  region : a.region = none

/-- A name that says nothing about what an element holds or is held by. -/
structure Common (name : String) : Prop where
  flow : name ∉ Category.tableStructure
  void : name ∉ Content.void
  raw : ∀ scripting, name ∉ Content.raw scripting

/-- Behind a closed paragraph no other one is open. -/
theorem spares_closeOpenParagraph (h : ParagraphsApart a) (l : Namespace × String) :
    Spares a.closeOpenParagraph l := by
  intro _ _ hm
  unfold TreeBuilder.closeOpenParagraph at hm ⊢
  split at hm
  · next hin =>
    rw [if_pos hin]
    obtain ⟨errors, he, -⟩ := reportIf_eq (b := a.closeImplied (some "p"))
      (!(a.closeImplied (some "p")).currentIs "p") .unclosedElements rfl
    have hstack : (a.closeParagraph).openElements =
        dropThrough (a.isHtml "p") (a.closeImplied (some "p")).openElements := by
      unfold closeParagraph closeNamed popThroughName popThrough
      dsimp only
      rw [he]
      rfl
    have htree : a.closeParagraph.tree = a.tree := by
      unfold closeParagraph closeNamed popThroughName popThrough
      dsimp only
      rw [he]
      rfl
    -- no paragraph is below another one, so behind the one that is closed there is none
    have hapart := h.apart (htree ▸ hm)
    change a.closeParagraph.tree.Parted a.closeParagraph.openElements
    rw [hstack, htree]
    generalize hl : (a.closeImplied (some "p")).openElements = l
    have hs : l <:+ a.openElements := hl ▸ List.dropWhile_suffix _
    clear hl
    induction l with
    | nil => rfl
    | cons x outer ih =>
      rw [dropThrough]
      split
      · next hx => exact (EachOver.suffix hapart hs).1 "p" (by decide) (isHtml_iff.1 hx)
      · exact ih ((List.suffix_cons _ _).trans hs)
  · next hin =>
    rw [if_neg hin]
    simpa using hin

namespace Flows

variable (h : Flows token mode b cs a)
include h

theorem next (o : ContentChanges token mode b cs a') (p : Plain a a') :
    Flows token mode b cs a' where
  rooted := h.rooted
  paragraphsApart := h.paragraphsApart
  contentChanges := o
  ready := p.ready h.ready
  mode := p.same.mode ▸ h.mode
  broad := by
    have hf := o.fostering.trans h.contentChanges.fostering.symm
    rw [Broad, p.same.bones, hf]
    exact h.broad
  region := by
    rw [TreeBuilder.region, p.same.bones, p.same.modes]
    exact h.region

theorem braced : Braced a a.openElements := fun _ _ _ => h.ready.framed.seated

theorem roomy : Roomy a :=
  ⟨h.mode, h.broad, h.braced, fun names hn => by rw [h.region] at hn; cases hn⟩

theorem paragraphsApart' : ParagraphsApart a :=
  h.contentChanges.paragraphsApart h.rooted h.paragraphsApart

theorem rooted' : Rooted a := h.contentChanges.rooted h.rooted

theorem takes {name : String} (hname : name ∉ Category.tableStructure) : Takes a (.html, name) :=
  h.broad.takes h.braced fun _ => hname

theorem hosts {name : String} (hc : Common name) (hs : Spares a (.html, name)) :
    Hosts a (.html, name) :=
  ⟨h.mode, h.takes hc.flow, fun _ => ⟨hc.void, hc.raw _⟩, suits_of_region h.region, hs⟩

theorem report (kind : ErrorKind) (hk : kind.isOfInput = false) :
    Flows token mode b cs (a.report kind) :=
  h.next (h.contentChanges.report kind hk) (plain_report h.ready.toSound kind)

theorem framesetNotOk : Flows token mode b cs a.framesetNotOk :=
  h.next h.contentChanges.framesetNotOk (plain_framesetNotOk h.ready.toSound)

theorem closeOpenParagraph : Flows token mode b cs a.closeOpenParagraph :=
  h.next h.contentChanges.closeOpenParagraph (plain_closeOpenParagraph h.ready)

theorem spares (l : Namespace × String) : Spares a.closeOpenParagraph l :=
  spares_closeOpenParagraph h.paragraphsApart' l

theorem reconstruct : Flows token mode b cs a.reconstruct :=
  h.next (h.contentChanges.reconstruct h.rooted' h.roomy) (plain_reconstruct h.ready)

/-- Formatting elements that are opened again are no paragraphs. -/
theorem spares_reconstruct {l : Namespace × String} (hs : Spares a l) : Spares a.reconstruct l := by
  have ho := opens_reconstruct h.ready.planted h.ready.begun h.ready.named
  obtain ⟨new, hnew, hformatted⟩ := ho.stack
  intro hns hname hm
  have hparted : a.tree.Parted a.openElements := hs hns hname (ho.documentMode ▸ hm)
  change a.reconstruct.tree.Parted a.reconstruct.openElements
  rw [hnew]
  refine Parted.append ((parted_congr fun x hx => ?_).2 hparted) fun x hx hl => ?_
  · obtain ⟨l', hl'⟩ := Option.isSome_iff_exists.1 (h.ready.planted.element x hx)
    rw [hl', ho.keeps x l' hl']
  · obtain ⟨name, hformatting, hl'⟩ := hformatted x hx
    rw [hl] at hl'
    cases hl'
    exact Content.formatting_not_block _ hformatting (by decide)

theorem insertHtml (hname : Part.ofName? tag.name = none) (hm : tag.name ∉ Category.markerElements)
    (hc : Common tag.name) (hs : Spares a (.html, tag.name)) (ht : token = .startTag tag) :
    Flows token mode b cs (a.insertHtml tag) :=
  h.next (h.contentChanges.insertHtml hname hm (h.hosts hc hs) ht) (plain_insertHtml h.ready hname)

theorem insertVoid (hname : Part.ofName? tag.name = none) (hm : tag.name ∉ Category.markerElements)
    (hflow : tag.name ∉ Category.tableStructure) (hvoid : tag.name ∈ Content.void)
    (hs : Spares a (.html, tag.name)) (ht : token = .startTag tag) :
    ContentChanges token mode b cs (a.insertVoid tag) :=
  h.contentChanges.insertVoid hname hm hvoid h.mode (h.takes hflow) (Or.inr hs) ht

theorem insertRawText (hname : Part.ofName? tag.name = none)
    (hm : tag.name ∉ Category.markerElements)
    (kind : RawText) (hraw : tag.name ∈ Content.raw a.scripting) (hs : Spares a (.html, tag.name))
    (ht : token = .startTag tag) : ContentChanges token mode b cs (a.insertRawText tag kind) :=
  h.contentChanges.insertRawText hname hm kind hraw h.mode
    (h.takes (Content.raw_not_structure _ hraw)) hs ht

theorem runAdoption {subject : String} (hs : subject ∈ Category.formatting)
    (ht : token ≠ .endOfFile) : Flows token mode b cs (a.runAdoption subject).1 :=
  h.next (h.contentChanges.runAdoption h.ready hs ht h.roomy) (plain_runAdoption h.ready subject hs)

theorem insertFormatting (ht : tag.name ∈ Category.formatting) (htoken : token = .startTag tag) :
    ContentChanges token mode b cs (a.insertFormatting tag) := by
  have h' := h.reconstruct
  have hends := endsOpen_reconstruct h.ready.planted h.ready.begun h.ready.named
  unfold TreeBuilder.insertFormatting
  generalize a.reconstruct = a' at h' hends ⊢
  dsimp only
  split
  · next id hid => exact h'.contentChanges.insertRemembered ht hid hends h'.roomy htoken
  · have hmarker : ∀ name ∈ Category.formatting, name ∉ Category.markerElements := by decide
    exact h'.contentChanges.insertHtml (ofName?_formatting _ ht) (hmarker _ ht) (h'.roomy.hosts ht)
      htoken

end Flows

/-! ## 6. Rules -/

/-- What a token may add to the text of the document when it is done with: the character that it is,
or what stands for a null character. -/
def Writes (token : Token) (next : Continuation) (new : List Char) : Prop :=
  new = [] ∨ next = .done ∧ ∃ c, token = .character c ∧ (new = [c] ∨ c = '\x00' ∧ new = ['\uFFFD'])

/-- Text of a table is waiting in the mode for it only, and holds no null character. Nothing is put
before a table unless a rule says so. -/
structure Collects (b : TreeBuilder) : Prop where
  mode : b.tableText = [] ∨ b.mode = .inTableText
  solid : '\x00' ∉ b.tableText
  settled : b.fostering = false

theorem fostering_eta {f : Bool} (h : b.fostering = f) : { b with fostering := f } = b := by
  subst h
  rfl

/-- No text is waiting. -/
structure NoTextWaiting (b : TreeBuilder) : Prop where
  text : b.tableText = []
  settled : b.fostering = false

/-- What a rule makes of a token: it acts by steps, and may put before a table what comes. The
characters that are inserted or left waiting are those that were waiting before and what is new. A
null character is new in raw text only. -/
def Performs (b : TreeBuilder) (token : Token) (o : Outcome) : Prop :=
  ∃ text fostering cs new, ContentChanges token b.mode { b with tableText := text, fostering } cs
      { o.builder with fostering } ∧
    (cs ++ text).Perm (b.tableText ++ new) ∧ Writes token o.next new ∧ Collects o.builder ∧
    ('\x00' ∈ new → b.mode = .text)

section Performs

variable {o : Outcome}

/-- While no text is waiting, none is collected by other rules than that of the mode for it. -/
theorem performs_of_contentChanges (hb : NoTextWaiting b)
    (h : ContentChanges token b.mode b cs o.builder)
    (hw : Writes token o.next cs) (hn : '\x00' ∈ cs → b.mode = .text) : Performs b token o := by
  have hb' : o.builder.tableText = [] := h.acts.tableText.trans hb.text
  have hf : o.builder.fostering = false := h.fostering.trans hb.settled
  refine ⟨b.tableText, false, cs, cs,
    ?_, by rw [hb.text]; simp, hw, ⟨Or.inl hb', by rw [hb']; simp, hf⟩, hn⟩
  rw [fostering_eta hb.settled, fostering_eta hf]
  exact h

theorem performs_quiet (hb : NoTextWaiting b) (h : ContentChanges token b.mode b [] o.builder) :
    Performs b token o :=
  performs_of_contentChanges hb h (Or.inl rfl) nofun

/-- What comes is put before the table. -/
theorem performs_fostered (hb : NoTextWaiting b)
    (h : ContentChanges token b.mode { b with fostering := true } cs
      { o.builder with fostering := true })
    (hf : o.builder.fostering = false) (hw : Writes token o.next cs)
    (hn : '\x00' ∈ cs → b.mode = .text) : Performs b token o := by
  have hb' : o.builder.tableText = [] := h.acts.tableText.trans hb.text
  exact ⟨b.tableText, true, cs, cs,
    h, by rw [hb.text]; simp, hw, ⟨Or.inl hb', by rw [hb']; simp, hf⟩, hn⟩

/-- A rule that tests the token or the state performs if both ways do. -/
theorem Performs.ite {c : Prop} [Decidable c] {o' : Outcome} (h : c → Performs b token o)
    (h' : ¬ c → Performs b token o') : Performs b token (if c then o else o') :=
  iteInduction (motive := Performs b token) h h'

/-- A rule acts by steps. -/
theorem Performs.exists_acts (h : Performs b token o) : ∃ text cs new,
    Acts token b.mode { b with tableText := text } cs o.builder ∧
      (cs ++ text).Perm (b.tableText ++ new) ∧ Writes token o.next new ∧ Collects o.builder ∧
      ('\x00' ∈ new → b.mode = .text) := by
  obtain ⟨text, fostering, cs, new, hchanges, hrest⟩ := h
  have hstart : Acts token b.mode { b with tableText := text } []
      { b with tableText := text, fostering } :=
    Acts.refl.note ⟨rfl, rfl, rfl, rfl, id, fun _ => id, rfl, .refl⟩
  have hacts : Acts token b.mode { b with tableText := text } ([] ++ cs) o.builder :=
    (hstart.trans hchanges.acts).note ⟨rfl, rfl, rfl, rfl, id, fun _ => id, rfl, .refl⟩
  rw [List.nil_append] at hacts
  exact ⟨text, cs, new, hacts, hrest⟩

end Performs

end Hypertext.TreeBuilder
