import Hypertext.TreeBuilder.Adoption
import Mathlib.Data.List.InsertIdx

/-!
# The stack by depth

The open elements are kept innermost first and read by depth, from the outermost on. An element
that is open with the elements `outer` outside it is at depth `outer.length`, which is the form
in which the lemmas below take a depth. They say that such a depth is in range and what is found
or done there.
-/

namespace Hypertext

/-! ## 1. Lists by index -/

namespace Indexed

variable {α : Type} (l₁ l₂ : List α) (a b : α)

theorem erase?_length : erase? (l₁ ++ a :: l₂) l₁.length = some (l₁ ++ l₂) := by
  simp [erase?, List.eraseIdx_append_of_length_le]

theorem set?_length : set? (l₁ ++ a :: l₂) l₁.length b = some (l₁ ++ b :: l₂) := by
  simp [set?]

theorem insert?_length : insert? (l₁ ++ l₂) l₁.length a = some (l₁ ++ a :: l₂) := by
  have hinsert : (l₁ ++ l₂).insertIdx l₁.length a = l₁ ++ a :: l₂ := by
    induction l₁ with
    | nil => rfl
    | cons x l₁ ih => simp [ih]
  rw [insert?, if_pos (by simp), hinsert]

theorem from?_length : from? (l₁ ++ a :: l₂) (l₁.length + 1) = some l₂ := by
  simp [from?, List.drop_append]

end Indexed

namespace TreeBuilder

variable {b : TreeBuilder} {inner outer : List NodeId} {x : NodeId}

@[simp] theorem attempt_some (b b' : TreeBuilder) : b.attempt (some b') = b' := rfl

/-! ## 2. Open elements -/

section Open

variable (h : b.openElements = inner ++ x :: outer)
include h

theorem reverse_eq : b.openElements.reverse = outer.reverse ++ x :: inner.reverse := by
  simp [h]

theorem openAt?_eq : b.openAt? outer.length = some x := by
  rw [openAt?, reverse_eq h, ← List.length_reverse]
  simp

theorem eraseOpen_eq : b.changeOpen? (Indexed.erase? · outer.length) =
    some { b with openElements := inner ++ outer } := by
  rw [changeOpen?, reverse_eq h, ← List.length_reverse, Indexed.erase?_length]
  simp

theorem setOpen_eq (y : NodeId) : b.changeOpen? (Indexed.set? · outer.length y) =
    some { b with openElements := inner ++ y :: outer } := by
  rw [changeOpen?, reverse_eq h, ← List.length_reverse, Indexed.set?_length]
  simp

theorem insertOpen_eq (y : NodeId) : b.changeOpen? (Indexed.insert? · (outer.length + 1) y) =
    some { b with openElements := inner ++ y :: x :: outer } := by
  have hlength : outer.length + 1 = (outer.reverse ++ [x]).length := by simp
  rw [changeOpen?, reverse_eq h, hlength, List.append_cons, Indexed.insert?_length]
  simp

theorem openDepth?_eq (hx : x ∉ outer) : b.openDepth? x = some outer.length := by
  rw [openDepth?, reverse_eq h, List.findIdx?_append]
  have hnone : outer.reverse.findIdx? (· == x) = none := by
    simp only [List.findIdx?_eq_none_iff, List.mem_reverse, beq_eq_false_iff_ne]
    rintro y hy rfl
    exact hx hy
  simp [hnone, List.findIdx?_cons]

theorem removeOpen_eq (hn : b.openElements.Nodup) :
    b.removeOpen x = { b with openElements := inner ++ outer } := by
  have hx : x ∉ inner := fun hm => by
    rw [h] at hn
    exact (List.nodup_append.1 hn).2.2 x hm x (by simp) rfl
  rw [removeOpen, ← hn.erase_eq_filter, h, List.erase_append_right _ hx, List.erase_cons_head]

theorem openFrom_eq : Indexed.from? b.openElements.reverse (outer.length + 1) =
    some inner.reverse := by
  rw [reverse_eq h, ← List.length_reverse, Indexed.from?_length]

end Open

theorem openDepth?_eq_none_iff : b.openDepth? x = none ↔ x ∉ b.openElements := by
  rw [openDepth?, List.findIdx?_eq_none_iff]
  constructor
  · intro h hx
    simpa using h x (List.mem_reverse.2 hx)
  · intro h y hy
    rw [beq_eq_false_iff_ne]
    rintro rfl
    exact h (List.mem_reverse.1 hy)

/-- The depth at which a node is found says what is open outside of it. -/
theorem exists_of_openDepth? {depth : Nat} (h : b.openDepth? x = some depth) :
    ∃ inner outer, b.openElements = inner ++ x :: outer ∧ outer.length = depth ∧ x ∉ outer := by
  have hmem : x ∈ b.openElements.reverse := by
    rw [List.mem_reverse]
    by_contra hx
    rw [openDepth?_eq_none_iff.2 hx] at h
    cases h
  obtain ⟨outer, inner, heq, hx⟩ := List.eq_append_cons_of_mem hmem
  have hopen : b.openElements = inner.reverse ++ x :: outer.reverse := by
    rw [← List.reverse_reverse b.openElements, heq]
    simp
  have hx : x ∉ outer.reverse := by simpa using hx
  rw [openDepth?_eq hopen hx] at h
  exact ⟨_, _, hopen, Option.some.inj h, hx⟩

theorem truncate_eq (h : b.openElements = inner ++ outer) :
    b.truncate outer.length = { b with openElements := outer } := by
  simp [truncate, h]

/-- The element directly outside the others, or the document. -/
theorem outside?_eq (h : b.openElements = inner ++ outer) :
    b.outside? outer.length = some (outer.head?.getD Tree.root) := by
  cases outer with
  | nil => rfl
  | cons y outer => exact openAt?_eq h

/-! ## 3. Places -/

/-- The place for content that may not be in a table, found by going outwards through the open
elements. -/
def fosterPlace (b : TreeBuilder) : List NodeId → Place
  | [] => ⟨b.openElements.getLast?.getD Tree.root, none⟩
  | id :: outer =>
    if b.isHtml "template" id then ⟨(b.tree.contents? id).getD id, none⟩
    else if b.isHtml "table" id then
      match b.tree.parent? id with
      | some parent => ⟨parent, some id⟩
      | none => ⟨outer.head?.getD Tree.root, none⟩
    else fosterPlace b outer

/-- The place for a node that goes into `target`. -/
def placeIn (b : TreeBuilder) (target : NodeId) : Place :=
  let place : Place :=
    if b.fostering && b.isHtmlOf Category.fostering target then b.fosterPlace b.openElements
    else ⟨target, none⟩
  if b.isHtml "template" place.parent then
    match b.tree.contents? place.parent with
    | some contents => ⟨contents, none⟩
    | none => place
  else place

/-- The place for a new node. -/
def place (b : TreeBuilder) : Place := b.placeIn (b.currentNode?.getD Tree.root)

/-- What is found among some of the open elements is open at the depth that is found. -/
theorem innermostDepth?_lt {p : NodeId → Bool} {stack : List NodeId} {depth : Nat}
    (h : innermostDepth? p stack = some depth) : depth < stack.length := by
  induction stack with
  | nil => cases h
  | cons y stack ih =>
    rw [innermostDepth?] at h
    split at h
    · cases h
      simp
    · exact Nat.lt_succ_of_lt (ih h)

/-- The place for content that may not be in a table, from the depths of the innermost open template
and table. -/
def fosterPlaceAt? (b : TreeBuilder) (template table : Option Nat) : Option Place :=
  match template, table with
  | some depth, none => b.placeInTemplate? depth
  | some depth, some tableDepth =>
    if depth > tableDepth then b.placeInTemplate? depth else b.placeBeforeTable? tableDepth
  | none, some tableDepth => b.placeBeforeTable? tableDepth
  | none, none => some ⟨b.openElements.getLast?.getD Tree.root, none⟩

theorem fosterPlaceAt?_template {outer : List NodeId} :
    b.fosterPlaceAt? (some outer.length) (innermostDepth? (b.isHtml "table") outer) =
      b.placeInTemplate? outer.length := by
  cases ht : innermostDepth? (b.isHtml "table") outer with
  | none => rfl
  | some depth => exact if_pos (innermostDepth?_lt ht)

theorem fosterPlaceAt?_table {outer : List NodeId} :
    b.fosterPlaceAt? (innermostDepth? (b.isHtml "template") outer) (some outer.length) =
      b.placeBeforeTable? outer.length := by
  cases ht : innermostDepth? (b.isHtml "template") outer with
  | none => rfl
  | some depth => exact if_neg (Nat.lt_asymm (innermostDepth?_lt ht))

theorem fosterPlace?_eq : b.fosterPlace? = some (b.fosterPlace b.openElements) := by
  -- going outwards, elements that are neither templates nor tables change nothing
  suffices hgo : ∀ inner outer, b.openElements = inner ++ outer →
      b.fosterPlaceAt? (innermostDepth? (b.isHtml "template") outer)
        (innermostDepth? (b.isHtml "table") outer) = some (b.fosterPlace outer) from hgo [] _ rfl
  intro inner outer h
  induction outer generalizing inner with
  | nil => rfl
  | cons y outer ih =>
    have hy := openAt?_eq h
    rw [innermostDepth?, innermostDepth?, fosterPlace]
    by_cases htemplate : b.isHtml "template" y = true
    · have htable : ¬ b.isHtml "table" y = true := by
        intro htable
        simp only [isHtml] at htemplate htable
        cases he : b.tree.element? y <;> simp_all [Element.isHtml]
      rw [if_pos htemplate, if_neg htable, if_pos htemplate, fosterPlaceAt?_template]
      simp [placeInTemplate?, hy]
    · by_cases htable : b.isHtml "table" y = true
      · have hstack : b.openElements = (inner ++ [y]) ++ outer := by simp [h]
        have hout := outside?_eq hstack
        rw [if_neg htemplate, if_pos htable, if_neg htemplate, if_pos htable, fosterPlaceAt?_table]
        cases hp : b.tree.parent? y <;> simp [placeBeforeTable?, hy, hp, hout]
      · rw [if_neg htemplate, if_neg htable, if_neg htemplate, if_neg htable]
        exact ih (inner ++ [y]) (by simp [h])

theorem placeIn?_eq (target : NodeId) : b.placeIn? target = some (b.placeIn target) := by
  unfold placeIn? placeIn
  rw [fosterPlace?_eq]
  extract_lets place
  have hplace : (if (b.fostering && b.isHtmlOf Category.fostering target) = true then
      some (b.fosterPlace b.openElements) else some ⟨target, none⟩) = some place := by
    unfold place
    split <;> rfl
  rw [hplace, Option.bind_eq_bind, Option.bind_some]
  split
  · cases b.tree.contents? place.parent <;> rfl
  · rfl

theorem place?_eq : b.place? = some b.place := placeIn?_eq _

end TreeBuilder

end Hypertext
