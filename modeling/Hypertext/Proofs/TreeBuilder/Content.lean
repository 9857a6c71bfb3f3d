import Hypertext.Proofs.TreeBuilder.Lawful

/-!
# Content models

What an element may hold is nowhere checked when nodes are put into a tree. The lists below say it
for the elements that hold nothing, those that hold text only, and the parts of tables, select
elements and framesets; all other elements hold whatever is no piece of a table.
-/

namespace Hypertext

open Hypertext.Tree

/-! ## 1. What elements hold -/

namespace Content

/-- The HTML elements that hold nothing. -/
def void : List String :=
  ["area", "base", "basefont", "bgsound", "br", "col", "embed", "frame", "hr", "img",
    "input", "keygen",
   "link", "meta", "param", "source", "track", "wbr"]

/-- The HTML elements that hold nothing but a text. -/
def raw (scripting : Bool) : List String :=
  ["title", "textarea", "style", "script", "xmp", "iframe", "noembed", "noframes"] ++
    if scripting then ["noscript"] else []

/-- The HTML elements that a paragraph does not hold. -/
def block : List String :=
  Category.blockStart ++ Category.headings ++
    ["pre", "listing", "form", "li", "dd", "dt", "plaintext", "hr", "xmp", "table"]

/-- What may stand between the pieces of a table. -/
def tableExtras : List String := ["style", "script", "template", "input", "form"]

theorem formatting_not_structure :
    ∀ name ∈ Category.formatting, name ∉ Category.tableStructure := by
  decide

theorem raw_not_structure {scripting : Bool} :
    ∀ name ∈ raw scripting, name ∉ Category.tableStructure := by
  cases scripting <;> decide

theorem raw_not_void {scripting : Bool} : ∀ name ∈ raw scripting, name ∉ void := by
  cases scripting <;> decide

theorem formatting_not_raw {scripting : Bool} :
    ∀ name ∈ Category.formatting, name ∉ raw scripting := by
  cases scripting <;> decide

theorem formatting_not_void : ∀ name ∈ Category.formatting, name ∉ void := by decide

theorem formatting_not_block : ∀ name ∈ Category.formatting, name ∉ block := by decide

end Content

/-- The elements that a part holds, for the parts that do not take most of them. -/
def Part.contents? : Part → Option (List String)
  | .table => some (["caption", "colgroup"] ++ Category.tableSections ++ Content.tableExtras)
  | .rowGroup => some ("tr" :: Content.tableExtras)
  | .row => some ("td" :: "th" :: Content.tableExtras)
  | .columns => some ["col", "template"]
  | .select => some ["option", "optgroup", "hr", "script", "template"]
  | .frameset => some ["frameset", "frame", "noframes"]
  | .html | .head | .body | .caption | .cell | .template => none

/-- The part holds an element with this label, as far as it does not hold everything. -/
def Part.Admits (p : Part) (l : Namespace × String) : Prop :=
  ∀ names, p.contents? = some names → l.1 = .html ∧ l.2 ∈ names

/-- What is no piece of a table. -/
def Flow (l : Namespace × String) : Prop := l.1 = .html → l.2 ∉ Category.tableStructure

instance (l : Namespace × String) : Decidable (Flow l) := inferInstanceAs (Decidable (_ → _))

/-- Whether an element with the label `l` may be in one with the label `p`. A `col` may be in a
formatting element that was opened again in a template. -/
def Holds (p l : Namespace × String) : Prop :=
  match (partOf p).bind Part.contents? with
  | some names => l.1 = .html ∧ l.2 ∈ names
  | none => Flow l ∨ l = (.html, "col") ∧ p.1 = .html ∧ p.2 ∈ Category.formatting

theorem holds_of_flow {p l : Namespace × String} (hp : (partOf p).bind Part.contents? = none)
    (hl : Flow l) : Holds p l := by
  unfold Holds
  rw [hp]
  exact Or.inl hl

/-- What holds a table holds everything but pieces of tables. -/
theorem contents?_of_holds_table {p : Namespace × String} (h : Holds p (.html, "table")) :
    (partOf p).bind Part.contents? = none := by
  unfold Holds at h
  split at h
  · next names hnames =>
    obtain ⟨q, -, hq⟩ := Option.bind_eq_some_iff.1 hnames
    have hall : ∀ q ∈ Part.all, ∀ names, q.contents? = some names → "table" ∉ names := by decide
    exact absurd h.2 (hall q (by cases q <;> decide) names hq)
  · next hnone => exact hnone

/-! ## 2. What is open in a part -/

/-- The elements that may be open directly in the innermost part, where not all may: options in
a select element, and elements that are opened again in a template without other content or
with columns. -/
def regionNames (modes : List InsertionMode) : List Part → Option (List String)
  | .select :: _ => some ["optgroup", "option"]
  | .template :: rest =>
    if modes.reverse[rest.count .template]? ∈ [some .inTemplate, some .inColumnGroup] then
      some Category.formatting
    else none
  | _ => none

section Region

variable {modes modes' : List InsertionMode} {mode : InsertionMode} {bones : List Part}
  {names : List String}

theorem regionNames_mem (h : regionNames modes bones = some names) :
    names = ["optgroup", "option"] ∨ names = Category.formatting := by
  unfold regionNames at h
  split at h
  · exact Or.inl (Option.some.inj h).symm
  · split at h
    · exact Or.inr (Option.some.inj h).symm
    · cases h
  · cases h

/-- If the modes of some templates are forgotten, or read as less narrow, nothing more
is asked for. -/
theorem regionNames_mono (hm : ∀ i : Nat,
      modes'.reverse[i]? ∈ [some InsertionMode.inTemplate, some .inColumnGroup] →
      i < bones.count .template →
      modes.reverse[i]? ∈ [some InsertionMode.inTemplate, some .inColumnGroup])
    (h : regionNames modes' bones = some names) : regionNames modes bones = some names := by
  cases bones with
  | nil => cases h
  | cons p rest =>
    cases p
    case select => exact h
    case template =>
      simp only [regionNames] at h ⊢
      split at h
      · next hsnug => rw [if_pos (hm _ hsnug (by simp)), h]
      · cases h
    all_goals cases h

theorem regionNames_suffix (hm : modes' <:+ modes) (h : regionNames modes' bones = some names) :
    regionNames modes bones = some names := by
  refine regionNames_mono (fun i hi _ => ?_) h
  obtain ⟨inner, rfl⟩ := hm
  rw [List.reverse_append]
  by_cases hlt : i < modes'.reverse.length
  · rwa [List.getElem?_append_left hlt]
  · rw [List.getElem?_eq_none (Nat.not_lt.1 hlt)] at hi
    simp at hi

/-- The mode of a new template says nothing about the others. -/
theorem regionNames_open (hcount : bones.count .template ≤ modes.length)
    (h : regionNames (mode :: modes) bones = some names) :
    regionNames modes bones = some names := by
  refine regionNames_mono (fun i hi hlt => ?_) h
  rwa [List.reverse_cons, List.getElem?_append_left (by simp; omega)] at hi

/-- The first tag in a template widens what it takes, if it changes anything. -/
theorem regionNames_retarget (h : regionNames (mode :: modes) bones = some names) :
    regionNames (.inTemplate :: modes) bones = some names := by
  refine regionNames_mono (fun i hi _ => ?_) h
  rw [List.reverse_cons] at hi ⊢
  by_cases hlt : i < modes.reverse.length
  · rwa [List.getElem?_append_left hlt] at hi ⊢
  · rw [List.getElem?_append_right (Nat.not_lt.1 hlt)] at hi ⊢
    cases hk : i - modes.reverse.length with
    | zero => simp
    | succ k =>
      rw [hk] at hi
      simp at hi

/-- Each open template has a mode, and there are no others. -/
theorem Frame.length_modes (h : Frame bones modes) : modes.length = bones.count .template := by
  induction h with
  | html => rfl
  | outer hp =>
    revert hp
    rename_i p
    cases p <;> decide
  | frameset _ ih => simpa using ih
  | @inside p bones modes _ hp ih =>
    have hne : p ≠ .template := by
      rintro rfl
      cases hp
    rw [ih, List.count_cons_of_ne hne]
  | template _ _ ih => simp [ih]

/-- The mode shows whether all elements may be open. -/
theorem Frame.regionNames_eq (h : Frame bones modes) {headSeen : Bool}
    (hm : mode.kind = modeOf modes headSeen bones)
    (hne : mode.kind ∉ [InsertionMode.inSelect, .inTemplate, .inColumnGroup]) :
    regionNames modes bones = none := by
  unfold regionNames
  split
  · rw [hm] at hne
    simp [modeOf] at hne
  · next rest =>
    obtain ⟨top, outer, rfl, -, hrest⟩ := h.template_inv
    have hlength := hrest.length_modes
    rw [List.reverse_cons, List.getElem?_append_right (by simp [hlength]), ← hlength]
    rw [hm] at hne
    cases top <;> simp_all [modeOf, InsertionMode.kind]
  · rfl

/-- In a template that has columns only, formatting elements may be open. -/
theorem Frame.regionNames_columns {rest : List Part} (h : Frame (.template :: rest) modes)
    {headSeen : Bool} (hm : mode.kind = modeOf modes headSeen (.template :: rest))
    (hcolumns : mode = .inColumnGroup) :
    regionNames modes (.template :: rest) = some Category.formatting := by
  obtain ⟨top, outer, rfl, -, hrest⟩ := h.template_inv
  have htop : top = .inColumnGroup := by
    rw [hcolumns] at hm
    revert hm
    cases top <;> simp [modeOf, InsertionMode.kind]
  have hlength := hrest.length_modes
  rw [regionNames, List.reverse_cons, List.getElem?_append_right (by simp [hlength]),
    ← hlength, htop]
  simp

theorem Frame.regionNames_template (h : Frame bones modes) {headSeen : Bool}
    (hm : mode.kind = modeOf modes headSeen bones) (hne : mode.kind ≠ .inSelect)
    (hr : regionNames modes bones = some names) : names = Category.formatting := by
  rcases regionNames_mem hr with rfl | rfl
  · unfold regionNames at hr
    split at hr
    · rw [hm] at hne
      simp [modeOf] at hne
    · split at hr
      · exact absurd (Option.some.inj hr) (by decide)
      · cases hr
    · cases hr
  · rfl

end Region

/-! ## 3. Modes of open templates -/

namespace TreeBuilder

section Counted

variable {t : Tree} {stack : List NodeId} {modes : List InsertionMode} {headSeen : Bool}
  {resume : Option InsertionMode} {mode : InsertionMode}

/-- The open templates are as many as the modes that are noted down for templates. -/
def Counted (t : Tree) (stack : List NodeId) (modes : List InsertionMode) : Prop :=
  modes.length = (t.bones stack).count .template

theorem Fits.counted (h : Fits t stack modes headSeen mode) : Counted t stack modes := by
  unfold Fits at h
  split at h
  · simp [Counted, h.1, h.2.1, Tree.bones]
  · simp [Counted, h.1, h.2.1, Tree.bones]
  · obtain ⟨x, outer, rfl, ⟨name, hl, hname⟩, h⟩ := h
    have hx : t.part? x = none := by rw [part?_of_label hl, partOf_html, hname]
    rw [Counted, bones_cons_none hx]
    exact h.1.frame.length_modes
  · exact h.1.frame.length_modes
  · exact h.1.frame.length_modes
  · simp [Counted, h.1, h.2.1]
  · simp [Counted, h.1, h.2.1]
  · exact h.elim
  · exact h.elim
  · exact h.1.frame.length_modes

theorem Standing.counted (h : Standing t stack modes headSeen resume mode) :
    Counted t stack modes := by
  unfold Standing at h
  split at h
  · obtain ⟨_, x, outer, -, rfl, ⟨name, hl, hname⟩, h⟩ := h
    have hx : t.part? x = none := by rw [part?_of_label hl, partOf_html, hname]
    rw [Counted, bones_cons_none hx]
    exact h.counted
  · obtain ⟨_, -, -, h⟩ := h
    exact h.1.frame.length_modes
  · exact h.counted

end Counted

end TreeBuilder

/-! ## 4. Elements and what is open around them -/

/-- `P` is true of each element of a stack and the elements outside it. -/
def EachOver (P : NodeId → List NodeId → Prop) : List NodeId → Prop
  | [] => True
  | x :: outer => P x outer ∧ EachOver P outer

namespace EachOver

variable {P Q : NodeId → List NodeId → Prop} {x : NodeId} {above stack stack' outer : List NodeId}

theorem suffix (h : EachOver P stack) (hs : stack' <:+ stack) : EachOver P stack' := by
  obtain ⟨above, rfl⟩ := hs
  induction above with
  | nil => exact h
  | cons x above ih => exact ih h.2

theorem of_mem (h : EachOver P (above ++ x :: outer)) : P x outer :=
  (h.suffix (List.suffix_append _ _)).1

theorem imp (h : EachOver P stack) (hPQ : ∀ x outer, x :: outer <:+ stack → P x outer → Q x outer) :
    EachOver Q stack := by
  induction stack with
  | nil => exact True.intro
  | cons x outer ih =>
    exact ⟨hPQ x outer (List.suffix_refl _) h.1,
      ih h.2 fun y rest hs => hPQ y rest (hs.trans (List.suffix_cons _ _))⟩

theorem append (h : EachOver P outer)
    (habove : ∀ pre x post, above = pre ++ x :: post → P x (post ++ outer)) :
    EachOver P (above ++ outer) := by
  induction above with
  | nil => exact h
  | cons x above ih =>
    exact ⟨habove [] x above rfl,
      ih fun pre y post heq => habove (x :: pre) y post (by rw [heq]; rfl)⟩

theorem filter (h : EachOver P stack) {q : NodeId → Bool}
    (hP : ∀ x outer, x :: outer <:+ stack → P x outer → P x (outer.filter q)) :
    EachOver P (stack.filter q) := by
  induction stack with
  | nil => exact True.intro
  | cons x outer ih =>
    have h' := ih h.2 fun y rest hs => hP y rest (hs.trans (List.suffix_cons _ _))
    rw [List.filter_cons]
    split
    · exact ⟨hP x outer (List.suffix_refl _) h.1, h'⟩
    · exact h'

end EachOver

end Hypertext
