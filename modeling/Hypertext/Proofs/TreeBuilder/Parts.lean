import Hypertext.Proofs.TreeBuilder.Planted
import Mathlib.Data.List.Chain

/-!
# The parts of a document among the open elements

Some elements decide about the insertion mode: the document element, head and body, tables and what
they are made of, select elements and templates. The stack of open elements, read through these
parts only, is a `Frame`: every part stands on one that it belongs to.
-/

namespace Hypertext

open Hypertext.Tree

/-! ## 1. Parts -/

inductive Part where
  | html
  | head
  | body
  | frameset
  | table
  | caption
  | columns
  | rowGroup
  | row
  | cell
  | select
  | template
deriving DecidableEq

namespace Part

/-- The names of the elements that are this part. -/
def names : Part → List String
  | .html => ["html"]
  | .head => ["head"]
  | .body => ["body"]
  | .frameset => ["frameset"]
  | .table => ["table"]
  | .caption => ["caption"]
  | .columns => ["colgroup"]
  | .rowGroup => Category.tableSections
  | .row => ["tr"]
  | .cell => ["td", "th"]
  | .select => ["select"]
  | .template => ["template"]

def all : List Part :=
  [.html, .head, .body, .frameset, .table, .caption, .columns, .rowGroup, .row, .cell, .select,
   .template]

/-- The part that an HTML element of this name is. -/
def ofName? (name : String) : Option Part := all.find? fun p => p.names.contains name

/-- No name belongs to two parts. -/
theorem eq_of_mem_names {p q : Part} {name : String} (hp : name ∈ p.names) (hq : name ∈ q.names) :
    p = q := by
  have h : ∀ p ∈ all, ∀ name ∈ p.names, ∀ q ∈ all, name ∈ q.names → p = q := by decide
  have hall : ∀ p : Part, p ∈ all := by intro p; cases p <;> decide
  exact h p (hall p) name hp q (hall q) hq

theorem ofName?_eq_some {name : String} {p : Part} : ofName? name = some p ↔ name ∈ p.names := by
  constructor
  · intro h
    simpa using List.find?_some h
  · intro h
    have hall : p ∈ all := by cases p <;> decide
    cases hf : ofName? name with
    | none =>
      have := List.find?_eq_none.1 hf p hall
      simp [h] at this
    | some q =>
      have hq : name ∈ q.names := by simpa using List.find?_some hf
      rw [eq_of_mem_names h hq]

end Part

/-- The part that an element of this namespace and name is. -/
def partOf (l : Namespace × String) : Option Part :=
  if l.1 = .html then Part.ofName? l.2 else none

theorem partOf_html (name : String) : partOf (.html, name) = Part.ofName? name := rfl

/-- The part that a node is, if it is one. -/
def Tree.part? (t : Tree) (x : NodeId) : Option Part := (t.label? x).bind partOf

/-- The parts among the open elements, the innermost first. -/
def Tree.bones (t : Tree) (stack : List NodeId) : List Part := stack.filterMap t.part?

section Part

variable {t t' : Tree} {x : NodeId} {p : Part}

theorem Tree.part?_eq_some :
    t.part? x = some p ↔ ∃ name ∈ p.names, t.label? x = some (.html, name) := by
  unfold part?
  rcases t.label? x with _ | ⟨ns, name⟩
  · simp
  · by_cases hns : ns = .html
    · simp [hns, partOf, Part.ofName?_eq_some]
    · simp [hns, partOf]

theorem Tree.isHtmlOf_eq_false {e : Element} (he : t.element? x = some e) (h : t.part? x = none)
    (names : List String) (p : Part) (hp : names ⊆ p.names) : e.isHtmlOf names = false := by
  rw [Bool.eq_false_iff]
  intro hn
  simp only [Element.isHtmlOf, Bool.and_eq_true, decide_eq_true_eq, List.contains_iff_mem] at hn
  have hl : t.label? x = some (.html, e.tagName) := by rw [label?, he, ← hn.1]; rfl
  rw [part?_eq_some.2 ⟨_, hp hn.2, hl⟩] at h
  cases h

theorem Tree.isHtml_eq_false {e : Element} (he : t.element? x = some e) (h : t.part? x = none)
    {name : String} (p : Part) (hp : name ∈ p.names) : e.isHtml name = false := by
  have := isHtmlOf_eq_false he h [name] p (by simpa using hp)
  simpa [Element.isHtmlOf, Element.isHtml] using this

theorem Tree.part?_of_label {l : Namespace × String} (h : t.label? x = some l) :
    t.part? x = partOf l := by
  rw [part?, h, Option.bind_some]

theorem Tree.bones_cons_none {stack : List NodeId} (h : t.part? x = none) :
    t.bones (x :: stack) = t.bones stack := List.filterMap_cons_none h

theorem Tree.bones_cons_some {stack : List NodeId} (h : t.part? x = some p) :
    t.bones (x :: stack) = p :: t.bones stack := List.filterMap_cons_some h

theorem Tree.Keeps.part {l : Namespace × String} (hk : t.Keeps t') (h : t.label? x = some l) :
    t'.part? x = t.part? x := by
  rw [part?, part?, h, hk x l h]

theorem Tree.Keeps.bones {stack : List NodeId} (hk : t.Keeps t')
    (h : ∀ x ∈ stack, (t.label? x).isSome) : t'.bones stack = t.bones stack := by
  refine List.filterMap_congr fun x hx => ?_
  obtain ⟨l, hl⟩ := Option.isSome_iff_exists.1 (h x hx)
  exact hk.part hl

end Part

theorem TreeBuilder.part?_eq_some_iff {b : TreeBuilder} {x : NodeId} {p : Part} :
    b.tree.part? x = some p ↔ b.isHtmlOf p.names x = true := by
  rw [part?_eq_some, isHtmlOf_iff]

/-! ## 2. The mode of the innermost part -/

/-- The mode with the two modes of select elements taken as one. -/
def InsertionMode.kind : InsertionMode → InsertionMode
  | .inSelectInTable => .inSelect
  | mode => mode

/-- The mode that fits these parts. -/
def modeOf (templateModes : List InsertionMode) (headSeen : Bool) : List Part → InsertionMode
  | [] => .inBody
  | .html :: _ => if headSeen then .afterHead else .beforeHead
  | .head :: _ => .inHead
  | .body :: _ => .inBody
  | .frameset :: _ => .inFrameset
  | .table :: _ => .inTable
  | .caption :: _ => .inCaption
  | .columns :: _ => .inColumnGroup
  | .rowGroup :: _ => .inTableBody
  | .row :: _ => .inRow
  | .cell :: _ => .inCell
  | .select :: _ => .inSelect
  | .template :: _ => (templateModes.head?.getD .inTemplate).kind

/-- The mode that is found by a search through the open elements is that of the innermost part. -/
theorem TreeBuilder.kind_modeFor {b : TreeBuilder} {stack : List NodeId}
    (h : b.tree.bones stack ≠ [.cell] ∧ b.tree.bones stack ≠ [.head]) :
    (b.modeFor stack).kind = modeOf b.templateModes b.headElement.isSome (b.tree.bones stack) := by
  induction stack with
  | nil => rfl
  | cons x outer ih =>
    cases hp : b.tree.part? x with
    | none =>
      rw [bones_cons_none hp] at h ⊢
      rw [← ih h, modeFor]
      cases he : b.tree.element? x with
      | none => rfl
      | some e =>
        have hname : ∀ name (p : Part), name ∈ p.names → e.isHtml name = false :=
          fun _ p hn => isHtml_eq_false he hp p hn
        have hcell := isHtmlOf_eq_false he hp ["td", "th"] .cell (by decide)
        have hsection := isHtmlOf_eq_false he hp Category.tableSections .rowGroup (by decide)
        simp [hname "select" .select (by decide), hcell, hname "tr" .row (by decide), hsection,
          hname "caption" .caption (by decide), hname "colgroup" .columns (by decide),
          hname "table" .table (by decide), hname "template" .template (by decide),
          hname "head" .head (by decide), hname "body" .body (by decide),
          hname "frameset" .frameset (by decide), hname "html" .html (by decide)]
    | some p =>
      have houter : p = .cell ∨ p = .head → outer.isEmpty = false := by
        rintro hp
        cases outer with
        | nil => rcases hp with rfl | rfl <;> simp_all [Tree.bones]
        | cons y outer => rfl
      rw [bones_cons_some hp]
      obtain ⟨name, hname, hl⟩ := part?_eq_some.1 hp
      obtain ⟨e, he, hns, htag⟩ := exists_element_of_label hl
      rw [modeFor, he]
      simp only [Element.isHtml, Element.isHtmlOf, hns, htag]
      -- the name of a part decides every question that is asked about it
      cases p <;> simp only [Part.names, Category.tableSections, List.mem_cons, List.not_mem_nil,
        or_false] at hname
      case html =>
        subst hname
        cases b.headElement <;> simp [modeOf, InsertionMode.kind, Category.tableSections]
      case select =>
        subst hname
        cases b.selectIsInTable outer <;> simp [modeOf, InsertionMode.kind]
      case rowGroup =>
        rcases hname with rfl | rfl | rfl <;>
          simp [modeOf, InsertionMode.kind, Category.tableSections]
      case cell => rcases hname with rfl | rfl <;> simp [modeOf, InsertionMode.kind, houter]
      all_goals
        subst hname
        simp [modeOf, InsertionMode.kind, Category.tableSections, houter]

/-! ## 3. Frames -/

namespace Part

/-- The modes in which a part of a table or a select element may begin. -/
def hosts : Part → List InsertionMode
  | .table => [.inBody, .inCell, .inCaption]
  | .caption | .columns | .rowGroup => [.inTable]
  | .row => [.inTableBody]
  | .cell => [.inRow]
  | .select => [.inBody, .inCell, .inCaption, .inTable, .inTableBody, .inRow]
  | .html | .head | .body | .frameset | .template => []

end Part

/-- The modes that the content of a template may be in. -/
def contentModes : List InsertionMode :=
  [.inTemplate, .inTable, .inColumnGroup, .inTableBody, .inRow, .inBody]

/-- The parts of the stack stand on each other as they should, and each template has a mode. -/
inductive Frame : List Part → List InsertionMode → Prop where
  | html : Frame [.html] []
  | outer {p : Part} : p ∈ [Part.head, .body, .frameset] → Frame [p, .html] []
  | frameset {bones : List Part} :
    Frame (.frameset :: bones) [] → Frame (.frameset :: .frameset :: bones) []
  | inside {p : Part} {bones : List Part} {modes : List InsertionMode} :
    Frame bones modes → modeOf modes true bones ∈ p.hosts → Frame (p :: bones) modes
  | template {mode : InsertionMode} {bones : List Part} {modes : List InsertionMode} :
    Frame bones modes → mode ∈ contentModes → Frame (.template :: bones) (mode :: modes)

namespace Frame

variable {bones : List Part} {modes : List InsertionMode} {mode : InsertionMode} {p : Part}
  {headSeen : Bool}

theorem length_le (h : Frame bones modes) : modes.length ≤ bones.length := by
  induction h with
  | html => simp
  | outer => simp
  | frameset _ ih => simp
  | inside _ _ ih => simp only [List.length_cons]; omega
  | template _ _ ih => simpa using ih

theorem ne_nil (h : Frame bones modes) : bones ≠ [] := by
  cases h <;> simp

/-- No cell and no head is the only part. -/
theorem lone (h : Frame bones modes) : bones ≠ [.cell] ∧ bones ≠ [.head] := by
  refine ⟨?_, ?_⟩ <;> rintro rfl <;> cases h
  case inside h _ => exact h.ne_nil rfl
  case inside h hm => cases hm

/-- The document element is the outermost part, and nothing else is one. -/
theorem eq_concat (h : Frame bones modes) : ∃ inner, bones = inner ++ [.html] ∧ .html ∉ inner := by
  induction h with
  | html => exact ⟨[], rfl, by simp⟩
  | @outer p hp => exact ⟨[p], rfl, by revert hp; cases p <;> simp⟩
  | frameset _ ih =>
    obtain ⟨inner, heq, hn⟩ := ih
    exact ⟨.frameset :: inner, by rw [heq]; rfl, by simpa using hn⟩
  | @inside p _ _ _ hp ih =>
    obtain ⟨inner, rfl, hn⟩ := ih
    refine ⟨p :: inner, rfl, ?_⟩
    have hne : p ≠ .html := by rintro rfl; simp [Part.hosts] at hp
    simpa [Ne.symm hne] using hn
  | template _ _ ih =>
    obtain ⟨inner, rfl, hn⟩ := ih
    exact ⟨.template :: inner, rfl, by simpa using hn⟩

/-- The host of a part is found under everything that is open in it, if no template is. -/
theorem host_of_append {inner : List Part} (h : Frame (inner ++ p :: bones) modes)
    (ht : .template ∉ inner) (hp : p ∉ [Part.html, .head, .body, .frameset, .template]) :
    Frame bones modes ∧ modeOf modes true bones ∈ p.hosts := by
  -- the frame is taken apart from the inside, and `inner` becomes shorter with it
  generalize hall : inner ++ p :: bones = all at h
  induction h generalizing inner with
  | html =>
    rcases inner with _ | ⟨q, _ | ⟨r, inner⟩⟩ <;> simp_all
  | outer hq =>
    rcases inner with _ | ⟨q, _ | ⟨r, _ | ⟨s, inner⟩⟩⟩ <;> simp_all
  | frameset h ih =>
    cases inner with
    | nil => simp_all
    | cons q inner =>
      obtain ⟨-, hall⟩ := List.cons.inj hall
      exact ih (fun hm => ht (List.mem_cons_of_mem _ hm)) hall
  | inside h hm ih =>
    cases inner with
    | nil =>
      obtain ⟨rfl, rfl⟩ := List.cons.inj hall
      exact ⟨h, hm⟩
    | cons q inner =>
      obtain ⟨-, hall⟩ := List.cons.inj hall
      exact ih (fun hm => ht (List.mem_cons_of_mem _ hm)) hall
  | template h hm ih =>
    cases inner with
    | nil => simp_all
    | cons q inner =>
      -- here the template is one of the inner parts
      obtain ⟨rfl, -⟩ := List.cons.inj hall
      simp at ht

theorem template_inv (h : Frame (.template :: bones) modes) :
    ∃ mode rest, modes = mode :: rest ∧ mode ∈ contentModes ∧ Frame bones rest := by
  cases h with
  | outer hp => simp at hp
  | inside _ hm => simp [Part.hosts] at hm
  | template h hm => exact ⟨_, _, rfl, hm, h⟩

/-- Head and body stand directly in the document element. -/
theorem outer_inv (h : Frame (p :: bones) modes) (hp : p = .head ∨ p = .body) :
    bones = [.html] ∧ modes = [] := by
  cases h with
  | html => simp at hp
  | outer => exact ⟨rfl, rfl⟩
  | frameset => simp at hp
  | inside _ hm => rcases hp with rfl | rfl <;> simp [Part.hosts] at hm
  | template => simp at hp

theorem html_inv (h : Frame (.html :: bones) modes) : bones = [] ∧ modes = [] := by
  cases h with
  | html => exact ⟨rfl, rfl⟩
  | outer hp => simp at hp
  | inside _ hm => simp [Part.hosts] at hm

theorem frameset_inv (h : Frame (.frameset :: bones) modes) :
    modes = [] ∧ (bones = [.html] ∨ ∃ rest, bones = .frameset :: rest ∧ Frame bones []) := by
  cases h with
  | outer => exact ⟨rfl, Or.inl rfl⟩
  | frameset h => exact ⟨rfl, Or.inr ⟨_, rfl, h⟩⟩
  | inside _ hm => simp [Part.hosts] at hm

/-- The parts that may be innermost in a mode. -/
def innermost : InsertionMode → List Part
  | .beforeHead | .afterHead => [.html]
  | .inHead => [.head]
  | .inBody => [.body, .template]
  | .inTable => [.table, .template]
  | .inCaption => [.caption]
  | .inColumnGroup => [.columns, .template]
  | .inTableBody => [.rowGroup, .template]
  | .inRow => [.row, .template]
  | .inCell => [.cell]
  | .inSelect => [.select]
  | .inTemplate => [.template]
  | .inFrameset => [.frameset]
  | _ => []

theorem exists_innermost (h : Frame bones modes) (headSeen : Bool) :
    ∃ p rest, bones = p :: rest ∧ p ∈ innermost (modeOf modes headSeen bones) := by
  cases hb : bones with
  | nil => exact absurd hb h.ne_nil
  | cons p rest =>
    subst hb
    refine ⟨p, rest, rfl, ?_⟩
    cases p
    case html => cases headSeen <;> simp [modeOf, innermost]
    case template =>
      obtain ⟨mode, rest', rfl, hm, -⟩ := h.template_inv
      revert hm
      cases mode <;> simp [contentModes, modeOf, innermost, InsertionMode.kind]
    all_goals simp [modeOf, innermost]

theorem modeOf_headSeen (hb : p ≠ .html) :
    modeOf modes headSeen (p :: bones) = modeOf modes true (p :: bones) := by
  cases p <;> first | rfl | exact absurd rfl hb

/-- The body, or the frameset in its place, is not found above another part that is open in it. -/
theorem not_body_of_append {inner : List Part} (h : Frame (inner ++ p :: bones) modes)
    (hp : p ∉ [Part.html, .head, .body, .frameset]) : .body ∉ inner ∧ .frameset ∉ inner := by
  -- the frame is taken apart from the inside, and `inner` becomes shorter with it
  generalize hall : inner ++ p :: bones = all at h
  induction h generalizing inner with
  | html =>
    rcases inner with _ | ⟨q, _ | ⟨r, inner⟩⟩ <;> simp_all
  | outer hq =>
    rcases inner with _ | ⟨q, _ | ⟨r, _ | ⟨s, inner⟩⟩⟩ <;> simp_all
  | frameset h ih =>
    cases inner with
    | nil => simp
    | cons q inner =>
      have htail := (List.cons.inj hall).2
      cases inner with
      | nil =>
        obtain ⟨rfl, -⟩ := List.cons.inj htail
        simp at hp
      | cons r inner =>
        obtain ⟨rfl, -⟩ := List.cons.inj htail
        exact absurd (List.mem_cons_self ..) (ih htail).2
  | inside h hm ih =>
    cases inner with
    | nil => simp
    | cons q inner =>
      obtain ⟨rfl, htail⟩ := List.cons.inj hall
      -- these two have no mode that hosts them
      have hne : q ≠ .body ∧ q ≠ .frameset := by
        constructor <;> rintro rfl <;> simp [Part.hosts] at hm
      obtain ⟨hbody, hframeset⟩ := ih htail
      exact ⟨by simpa using ⟨Ne.symm hne.1, hbody⟩, by simpa using ⟨Ne.symm hne.2, hframeset⟩⟩
  | template h hm ih =>
    cases inner with
    | nil => simp
    | cons q inner =>
      obtain ⟨rfl, htail⟩ := List.cons.inj hall
      simpa using ih htail

/-- Unless only the head is open in the document element, the body is open outside templates. -/
theorem body_mem (h : Frame bones modes) (ht : .template ∉ bones) (hhtml : bones ≠ [.html])
    (hhead : bones ≠ [.head, .html]) : .body ∈ bones ∨ .frameset ∈ bones := by
  induction h with
  | html => exact absurd rfl hhtml
  | @outer p hp =>
    revert hp hhead
    cases p <;> simp
  | frameset => simp
  | @inside p bones _ _ hm ih =>
    have hinner : .body ∈ bones ∨ .frameset ∈ bones := by
      refine ih (fun hmem => ht (List.mem_cons_of_mem _ hmem)) ?_ ?_ <;> rintro rfl <;>
        revert hm <;> cases p <;> simp [modeOf, Part.hosts]
    exact hinner.imp (List.mem_cons_of_mem _) (List.mem_cons_of_mem _)
  | template => simp at ht

/-- What is left of the parts when the innermost template has been closed. -/
def leave : List Part → List Part
  | [] => []
  | .template :: rest => rest
  | _ :: rest => leave rest

theorem leave_cons (hp : p ≠ .template) : leave (p :: bones) = leave bones := by
  cases p <;> first | rfl | exact absurd rfl hp

theorem exists_leave (ht : .template ∈ bones) :
    ∃ inner, bones = inner ++ .template :: leave bones := by
  induction bones with
  | nil => cases ht
  | cons p bones ih =>
    by_cases hp : p = .template
    · exact ⟨[], by rw [hp]; rfl⟩
    · obtain ⟨inner, heq⟩ := ih ((List.mem_cons.1 ht).resolve_left (Ne.symm hp))
      refine ⟨p :: inner, ?_⟩
      rw [leave_cons hp, List.cons_append, ← heq]

theorem modes_ne_nil (h : Frame bones modes) (ht : .template ∈ bones) : modes ≠ [] := by
  induction h with
  | html => simp at ht
  | outer hp => revert hp ht; cases ‹Part› <;> simp
  | frameset _ ih => exact ih ((List.mem_cons.1 ht).resolve_left (by simp))
  | @inside p _ _ _ hm ih =>
    have hne : p ≠ .template := by rintro rfl; simp [Part.hosts] at hm
    exact ih ((List.mem_cons.1 ht).resolve_left (Ne.symm hne))
  | template => simp

/-- Closing a template takes away its mode. -/
theorem template_left (h : Frame bones modes) (ht : .template ∈ bones) :
    Frame (leave bones) modes.tail := by
  induction h with
  | html => simp at ht
  | outer hp => revert hp ht; cases ‹Part› <;> simp
  | frameset _ ih =>
    have ht := (List.mem_cons.1 ht).resolve_left (by simp)
    exact ih ht
  | @inside p _ _ _ hm ih =>
    have hne : p ≠ .template := by rintro rfl; simp [Part.hosts] at hm
    rw [leave_cons hne]
    exact ih ((List.mem_cons.1 ht).resolve_left (Ne.symm hne))
  | template h _ _ => exact h

end Frame

/-! ## 4. Seats -/

/-- Whether an element, which may be a part, can stand directly on another one. -/
def Sits : Option Part → Option Part → Prop
  | none, q => q ∉ [some Part.html, some .head, some .frameset, some .columns]
  | some .html, _ => False
  | some .row, q => q ∈ [some Part.rowGroup, some .template]
  | some .rowGroup, q => q ∈ [some Part.table, some .template]
  | some .columns, q => q ∈ [some Part.table, some .template]
  | some .head, q => q = some .html
  | some .body, q => q = some .html
  | some .frameset, q => q ∈ [some Part.html, some .frameset]
  | some _, _ => True

/-- Every open element stands on one that it can stand on. -/
def Seated (t : Tree) (stack : List NodeId) : Prop := (stack.map t.part?).IsChain Sits

/-- None of the nodes is a part. -/
def Clear (t : Tree) (xs : List NodeId) : Prop := ∀ x ∈ xs, t.part? x = none

/-- What is open admits any element on top of it. -/
def Admits (t : Tree) (stack : List NodeId) : Prop := ∀ y ∈ stack.head?, Sits none (t.part? y)

/-- An element that is no part may be taken out from under another one. -/
theorem Sits.trans {p q : Option Part} (h : Sits p none) (h' : Sits none q) : Sits p q := by
  rcases p with _ | p
  · exact h'
  · cases p <;> simp [Sits] at h ⊢

section Seated

variable {t t' : Tree} {x y : NodeId} {stack above outer : List NodeId} {p : Part}
  {bones : List Part}

theorem seated_cons : Seated t (x :: stack) ↔
    (∀ y ∈ stack.head?, Sits (t.part? x) (t.part? y)) ∧ Seated t stack := by
  unfold Seated
  rw [List.map_cons, List.isChain_cons]
  simp

theorem Seated.suffix (h : Seated t (above ++ stack)) : Seated t stack := by
  unfold Seated at h
  rw [List.map_append] at h
  exact h.right_of_append

theorem Clear.append {xs ys : List NodeId} (h : Clear t xs) (h' : Clear t ys) :
    Clear t (xs ++ ys) := fun x hx => (List.mem_append.1 hx).elim (h x) (h' x)

theorem Clear.left {xs ys : List NodeId} (h : Clear t (xs ++ ys)) : Clear t xs :=
  fun x hx => h x (List.mem_append_left _ hx)

theorem Clear.right {xs ys : List NodeId} (h : Clear t (xs ++ ys)) : Clear t ys :=
  fun x hx => h x (List.mem_append_right _ hx)

@[simp]
theorem clear_nil : Clear t [] := fun _ hx => by cases hx

@[simp]
theorem clear_cons : Clear t (x :: stack) ↔ t.part? x = none ∧ Clear t stack :=
  List.forall_mem_cons

theorem Clear.bones_append (h : Clear t above) : t.bones (above ++ stack) = t.bones stack := by
  unfold Tree.bones
  rw [List.filterMap_append, List.filterMap_eq_nil_iff.2 h, List.nil_append]

/-- Elements that are no parts may be piled up on a seat. -/
theorem Seated.pile (h : Seated t stack) (hc : Clear t above) (ha : Admits t stack) :
    Seated t (above ++ stack) := by
  induction above with
  | nil => exact h
  | cons x above ih =>
    obtain ⟨hx, hc⟩ := clear_cons.1 hc
    refine seated_cons.2 ⟨fun y hy => ?_, ih hc⟩
    rw [hx]
    cases above with
    | nil => exact ha y hy
    | cons z above =>
      cases hy
      rw [(clear_cons.1 hc).1]
      simp [Sits]

theorem Seated.admits (h : Seated t (x :: stack)) (hx : t.part? x = none) : Admits t stack :=
  fun y hy => hx ▸ (seated_cons.1 h).1 y hy

theorem Seated.filter_cons (h : Seated t (x :: stack)) {q : NodeId → Bool}
    (hq : ∀ y ∈ stack, q y = false → t.part? y = none) : Seated t (x :: stack.filter q) := by
  induction stack generalizing x with
  | nil => exact h
  | cons y stack ih =>
    obtain ⟨hy, hq⟩ := List.forall_mem_cons.1 hq
    obtain ⟨hxy, h'⟩ := seated_cons.1 h
    cases hqy : q y with
    | true =>
      rw [List.filter_cons_of_pos hqy]
      exact seated_cons.2 ⟨fun z hz => by cases hz; exact hxy y rfl, ih h' hq⟩
    | false =>
      rw [List.filter_cons_of_neg (by simp [hqy])]
      have hnone := hy hqy
      refine ih (seated_cons.2 ⟨fun z hz => ?_, (seated_cons.1 h').2⟩) hq
      exact (hnone ▸ hxy y rfl).trans (h'.admits hnone z hz)

/-- Elements that are no parts may be closed anywhere in the stack. -/
theorem Seated.filter (h : Seated t stack) {q : NodeId → Bool}
    (hq : ∀ y ∈ stack, q y = false → t.part? y = none) : Seated t (stack.filter q) := by
  induction stack with
  | nil => exact h
  | cons x stack ih =>
    obtain ⟨hx, hq⟩ := List.forall_mem_cons.1 hq
    cases hqx : q x with
    | true =>
      rw [List.filter_cons_of_pos hqx]
      exact h.filter_cons hq
    | false =>
      rw [List.filter_cons_of_neg (by simp [hqx])]
      exact ih (seated_cons.1 h).2 hq

theorem Tree.Keeps.seated (hk : t.Keeps t') (hl : ∀ x ∈ stack, (t.label? x).isSome)
    (h : Seated t stack) : Seated t' stack := by
  have hmap : stack.map t'.part? = stack.map t.part? := by
    refine List.map_congr_left fun x hx => ?_
    obtain ⟨l, hl⟩ := Option.isSome_iff_exists.1 (hl x hx)
    exact hk.part hl
  unfold Seated
  rw [hmap]
  exact h

/-- The stack, cut at its innermost part. -/
theorem exists_cut (h : t.bones stack = p :: bones) :
    ∃ above x outer, stack = above ++ x :: outer ∧ Clear t above ∧ t.part? x = some p ∧
      t.bones outer = bones := by
  obtain ⟨above, x, outer, rfl, ha, hx, ho⟩ := List.filterMap_eq_cons_iff.1 h
  exact ⟨above, x, outer, rfl, ha, hx, ho⟩

/-- A part that takes no ordinary elements is the current node while it is innermost. -/
theorem Seated.exists_top (h : Seated t stack) (hb : t.bones stack = p :: bones)
    (hp : p ∈ [Part.html, .head, .frameset, .columns]) :
    ∃ x outer, stack = x :: outer ∧ t.part? x = some p ∧ t.bones outer = bones := by
  obtain ⟨above, x, outer, rfl, ha, hx, ho⟩ := exists_cut hb
  rcases List.eq_nil_or_concat above with rfl | ⟨above, z, rfl⟩
  · exact ⟨x, outer, rfl, hx, ho⟩
  · rw [List.concat_eq_append, List.append_assoc] at h
    have hz : t.part? z = none := ha z (by simp)
    have hsits := h.suffix.admits hz x rfl
    rw [hx] at hsits
    revert hp
    cases p <;> simp_all [Sits]

/-- Nothing is open outside the document element. -/
theorem Seated.outer_of_html (h : Seated t (above ++ x :: outer)) (hx : t.part? x = some .html) :
    outer = [] := by
  cases outer with
  | nil => rfl
  | cons y outer =>
    have hsits := (seated_cons.1 h.suffix).1 y rfl
    rw [hx] at hsits
    exact hsits.elim

/-! ## 5. Scopes -/

/-- The parts that hold content of any kind. -/
def Part.content : List Part := [.body, .table, .caption, .rowGroup, .row, .cell, .template]

/-- Any element may be opened while such a part is innermost. -/
theorem admits_of_bones (hb : t.bones stack = p :: bones)
    (hp : p ∉ [Part.html, .head, .frameset, .columns]) : Admits t stack := by
  obtain ⟨above, x, outer, rfl, ha, hx, -⟩ := exists_cut hb
  intro y hy
  cases above with
  | nil =>
    cases hy
    rw [hx]
    revert hp
    cases p <;> simp [Sits]
  | cons z above =>
    cases hy
    rw [(clear_cons.1 ha).1]
    simp [Sits]

/-- The scopes in which elements of the body are looked for. -/
def Scope.isOrdinary (s : Scope) : Prop := s = .general ∨ s = .listItem ∨ s = .button

/-- The parts that bound a scope. -/
def Scope.bounds : Scope → List Part
  | .general | .listItem | .button => [.html, .table, .caption, .cell, .template]
  | .table => [.html, .table, .template]
  | .select => Part.all

theorem Scope.isOrdinary.bounds {s : Scope} (hs : s.isOrdinary) :
    s.bounds = [.html, .table, .caption, .cell, .template] := by
  rcases hs with rfl | rfl | rfl <;> rfl

theorem Scope.isBoundary_of_bounds {s : Scope} {e : Element} (hp : p ∈ s.bounds)
    (hns : e.ns = .html) (hname : e.tagName ∈ p.names) : s.isBoundary e = true := by
  have hgeneral : ∀ q ∈ Scope.bounds .general, ∀ name ∈ q.names,
      Scope.generalHtml.contains name = true := by decide
  have htable : ∀ q ∈ Scope.bounds .table, ∀ name ∈ q.names,
      ["html", "table", "template"].contains name = true := by decide
  have hselect : ∀ q ∈ Scope.bounds .select, ∀ name ∈ q.names,
      ["optgroup", "option"].contains name = false := by decide
  cases s with
  | general => simpa [isBoundary, isGeneralBoundary, hns] using hgeneral p hp _ hname
  | listItem =>
    have hb := hgeneral p hp _ hname
    simp only [isBoundary, isGeneralBoundary, hns, hb, Bool.true_or]
  | button =>
    have hb := hgeneral p hp _ hname
    simp only [isBoundary, isGeneralBoundary, hns, hb, Bool.true_or]
  | table =>
    have hb := htable p hp _ hname
    simp only [isBoundary, Element.isHtmlOf, hns, hb, decide_true, Bool.and_self]
  | select =>
    have hb := hselect p hp _ hname
    simp only [isBoundary, Element.isHtmlOf, hb, Bool.and_false, Bool.not_false]

variable {scope : Scope} {target : NodeId → Element → Bool}

/-- A part that is not looked for ends the search, if it bounds the scope. -/
theorem searchScope_boundary (hx : t.part? x = some p)
    (ht : ∀ e, t.element? x = some e → target x e = false) (hp : p ∈ scope.bounds) :
    TreeBuilder.searchScope t scope target (x :: outer) = false := by
  obtain ⟨name, hname, hl⟩ := part?_eq_some.1 hx
  obtain ⟨e, he, hns, htag⟩ := exists_element_of_label hl
  simp [TreeBuilder.searchScope, he, ht e he, Scope.isBoundary_of_bounds hp hns (htag ▸ hname)]

/-- A search that does not end at an element goes on behind it. -/
theorem searchScope_tail (hx : ∀ e, t.element? x = some e → target x e = false)
    (h : TreeBuilder.searchScope t scope target (x :: outer) = true) :
    TreeBuilder.searchScope t scope target outer = true := by
  rw [TreeBuilder.searchScope] at h
  split at h
  · exact h
  · next e he =>
    rw [hx e he] at h
    split at h
    · next hf => cases hf
    · split at h
      · cases h
      · exact h

theorem searchScope_append
    (ha : ∀ x ∈ above, ∀ e, t.element? x = some e → target x e = false)
    (h : TreeBuilder.searchScope t scope target (above ++ stack) = true) :
    TreeBuilder.searchScope t scope target stack = true := by
  induction above with
  | nil => exact h
  | cons x above ih =>
    obtain ⟨hx, ha⟩ := List.forall_mem_cons.1 ha
    exact ih ha (searchScope_tail hx h)

/-- A search for parts does not end above the innermost one. -/
theorem searchScope_cut
    (ht : ∀ x e, t.element? x = some e → target x e = true → t.part? x ≠ none)
    (hc : Clear t above) (h : TreeBuilder.searchScope t scope target (above ++ stack) = true) :
    TreeBuilder.searchScope t scope target stack = true := by
  refine searchScope_append (fun x hx e he => ?_) h
  rw [Bool.eq_false_iff]
  exact fun hte => ht x e he hte (hc x hx)

/-- A search ends at a part that is not looked for, or goes on at what that part stands on. -/
theorem searchScope_step (hseat : Seated t (x :: outer)) (hx : t.part? x = some p)
    (ht : ∀ e, t.element? x = some e → target x e = false)
    (hnext : ∀ y rest, Seated t (y :: rest) → Sits (some p) (t.part? y) →
      TreeBuilder.searchScope t scope target (y :: rest) = false) :
    TreeBuilder.searchScope t scope target (x :: outer) = false := by
  rw [Bool.eq_false_iff]
  intro h
  have h := searchScope_tail ht h
  cases outer with
  | nil => cases h
  | cons y rest =>
    obtain ⟨hy, hseat⟩ := seated_cons.1 hseat
    rw [hnext y rest hseat (hx ▸ hy y rfl)] at h
    cases h

/-- A search in an ordinary scope ends within a table, a caption, a cell or a template, unless it is
for a part: the parts that do not bound the scope stand directly on one that does. -/
theorem searchScope_inner (hs : scope.isOrdinary)
    (ht : ∀ x q e, t.part? x = some q → q ≠ .body → t.element? x = some e → target x e = false)
    (hseat : Seated t (x :: outer)) (hx : t.part? x = some p)
    (hp : p ∈ [Part.table, .caption, .rowGroup, .row, .cell, .template]) :
    TreeBuilder.searchScope t scope target (x :: outer) = false := by
  have hbound : ∀ {y q rest}, t.part? y = some q → q ∈ [Part.table, .caption, .cell, .template] →
      TreeBuilder.searchScope t scope target (y :: rest) = false := by
    intro y q rest hy hq
    refine searchScope_boundary hy (fun e he => ht y q e hy ?_ he) ?_
    · rintro rfl
      simp at hq
    · rw [hs.bounds]
      exact List.mem_cons_of_mem _ hq
  -- a row group stands on a table or a template, and both end the search
  have hgroup : ∀ {y rest}, Seated t (y :: rest) → t.part? y = some .rowGroup →
      TreeBuilder.searchScope t scope target (y :: rest) = false := by
    intro y rest hseat hy
    refine searchScope_step hseat hy (fun e he => ht y _ e hy (by simp) he) fun z rest _ hz => ?_
    simp only [Sits, List.mem_cons, List.not_mem_nil, or_false] at hz
    rcases hz with hz | hz <;> exact hbound hz (by simp)
  simp only [List.mem_cons, List.not_mem_nil, or_false] at hp
  rcases hp with rfl | rfl | rfl | rfl | rfl | rfl
  · exact hbound hx (by simp)
  · exact hbound hx (by simp)
  · exact hgroup hseat hx
  · -- a row stands on a row group or a template
    refine searchScope_step hseat hx (fun e he => ht x _ e hx (by simp) he) fun y rest hseat hy =>
      ?_
    simp only [Sits, List.mem_cons, List.not_mem_nil, or_false] at hy
    rcases hy with hy | hy
    · exact hgroup hseat hy
    · exact hbound hy (by simp)
  · exact hbound hx (by simp)
  · exact hbound hx (by simp)

/-- An element that is no part is not found behind a part that holds content. -/
theorem searchScope_content (hs : scope.isOrdinary)
    (ht : ∀ x e, t.element? x = some e → target x e = true → t.part? x = none)
    (hseat : Seated t (x :: outer)) (hx : t.part? x = some p) (hp : p ∈ Part.content) :
    TreeBuilder.searchScope t scope target (x :: outer) = false := by
  have htarget : ∀ x q e, t.part? x = some q → t.element? x = some e → target x e = false := by
    intro y q e hy he
    rw [Bool.eq_false_iff]
    intro h
    rw [ht y e he h] at hy
    cases hy
  by_cases hbody : p = .body
  · subst hbody
    refine searchScope_step hseat hx (fun e he => htarget x _ e hx he) fun y rest _ hy => ?_
    exact searchScope_boundary hy (fun e he => htarget y _ e hy he) (by simp [hs.bounds])
  · refine searchScope_inner hs (fun x q e hx _ he => htarget x q e hx he) hseat hx ?_
    revert hp hbody
    cases p <;> simp [Part.content]

/-- What is found in scope inside a part that holds content is open above that part. -/
theorem exists_of_searchScope (hs : scope.isOrdinary)
    (ht : ∀ x e, t.element? x = some e → target x e = true → t.part? x = none)
    (hseat : Seated t stack) (hb : t.bones stack = p :: bones) (hp : p ∈ Part.content)
    (h : TreeBuilder.searchScope t scope target stack = true) :
    ∃ inner x outer e, stack = inner ++ x :: outer ∧ Clear t (inner ++ [x]) ∧
      t.element? x = some e ∧ target x e = true := by
  induction stack with
  | nil => cases h
  | cons x stack ih =>
    cases hx : t.part? x with
    | some q =>
      have hq : q = p := by
        rw [bones_cons_some hx] at hb
        exact (List.cons.inj hb).1
      -- the innermost part ends the search, so what was found is above it
      rw [searchScope_content hs ht hseat hx (hq ▸ hp)] at h
      cases h
    | none =>
      have hfound : (∃ e, t.element? x = some e ∧ target x e = true) ∨
          TreeBuilder.searchScope t scope target stack = true := by
        by_cases hf : ∃ e, t.element? x = some e ∧ target x e = true
        · exact Or.inl hf
        · refine Or.inr (searchScope_tail (fun e he => ?_) h)
          rw [Bool.eq_false_iff]
          exact fun ht => hf ⟨e, he, ht⟩
      rcases hfound with ⟨e, he, hte⟩ | h
      · exact ⟨[], x, stack, e, rfl, by simpa using hx, he, hte⟩
      · have hb' : t.bones stack = p :: bones := by
          rwa [bones_cons_none hx] at hb
        obtain ⟨inner, y, outer, e, rfl, hc, he, hte⟩ := ih (seated_cons.1 hseat).2 hb' h
        exact ⟨x :: inner, y, outer, e, rfl, by simpa [hx] using hc, he, hte⟩

end Seated

end Hypertext
