import Hypertext.Dom.Tree

/-!
# What the elementary changes of a tree do to its views

A tree is read through `data?`, `parent?`, `children`, `next?` and `prev?`. Each elementary change
touches one of these at one node; the lemmas below say so, one for each change and view.
-/

namespace Hypertext.Tree

variable (t : Tree) (id x : NodeId)

/-! ## 1. Modified and new nodes -/

@[simp]
theorem size_modify (f : Node → Node) : (t.modify id f).size = t.size := by
  simp [modify, size]

theorem get?_modify (f : Node → Node) :
    (t.modify id f).get? x = if id = x then (t.get? x).map f else t.get? x := by
  simp [modify, get?, Array.getElem?_modify]

@[simp]
theorem fst_alloc (data : NodeData) : (t.alloc data).1 = t.size := rfl

@[simp]
theorem size_alloc (data : NodeData) : (t.alloc data).2.size = t.size + 1 := by
  simp [alloc, size]

theorem get?_alloc (data : NodeData) :
    (t.alloc data).2.get? x = if x = t.size then some { data } else t.get? x :=
  Array.getElem?_push

theorem get?_eq_none (h : t.size ≤ x) : t.get? x = none := by
  simpa [get?, size] using h

theorem exists_get? (h : x < t.size) : ∃ n, t.get? x = some n :=
  ⟨_, Array.getElem?_eq_getElem h⟩

/-- A change that keeps a part of every node keeps the view of that part. -/
theorem map_get?_modify {α : Type} (f : Node → Node) (g : Node → α) (h : ∀ n, g (f n) = g n) :
    ((t.modify id f).get? x).map g = (t.get? x).map g := by
  rw [get?_modify]
  split
  · cases t.get? x <;> simp [h]
  · rfl

theorem bind_get?_modify {α : Type} (f : Node → Node) (g : Node → Option α)
    (h : ∀ n, g (f n) = g n) : ((t.modify id f).get? x).bind g = (t.get? x).bind g := by
  rw [get?_modify]
  split
  · cases t.get? x <;> simp [h]
  · rfl

/-- A change of an existing node shows in the part that it sets. -/
theorem bind_get?_modify_self {α : Type} (f : Node → Node) (g : Node → Option α) {a : Option α}
    (hid : id < t.size) (h : ∀ n, g (f n) = a) :
    ((t.modify id f).get? x).bind g = if x = id then a else (t.get? x).bind g := by
  obtain ⟨n, hn⟩ := exists_get? t id hid
  rw [get?_modify]
  by_cases hx : x = id
  · subst hx; simp [hn, h]
  · rw [if_neg (Ne.symm hx), if_neg hx]

theorem children_eq : t.children x = ((t.get? x).map (·.children)).getD [] := by
  unfold children
  cases t.get? x <;> rfl

variable {t id x}

theorem lt_size_of_get? {n : Node} (h : t.get? x = some n) : x < t.size := by
  apply Nat.lt_of_not_le
  intro hx
  rw [get?_eq_none t x hx] at h
  cases h

theorem lt_size_of_parent? {p : NodeId} (h : t.parent? x = some p) : x < t.size := by
  obtain ⟨n, hn, -⟩ := Option.bind_eq_some_iff.1 h
  exact lt_size_of_get? hn

theorem lt_size_of_mem_children (h : x ∈ t.children id) : id < t.size := by
  unfold children at h
  split at h
  · next n hn => exact lt_size_of_get? hn
  · cases h

theorem lt_size_of_next? {y : NodeId} (h : t.next? x = some y) : x < t.size := by
  obtain ⟨n, hn, -⟩ := Option.bind_eq_some_iff.1 h
  exact lt_size_of_get? hn

theorem lt_size_of_data? {d : NodeData} (h : t.data? x = some d) : x < t.size := by
  obtain ⟨n, hn, -⟩ := Option.map_eq_some_iff.1 h
  exact lt_size_of_get? hn

theorem lt_size_of_element? {e : Element} (h : t.element? x = some e) : x < t.size := by
  unfold element? at h
  split at h
  · next e' hd => exact lt_size_of_data? hd
  · cases h

theorem element?_eq_some {e : Element} : t.element? x = some e ↔ t.data? x = some (.element e) := by
  unfold element?
  split <;> simp_all

theorem contents?_eq_some {f : NodeId} :
    t.contents? x = some f ↔ ∃ e, t.element? x = some e ∧ e.contents = some f :=
  Option.bind_eq_some_iff

variable (t id x)

/-! ## 2. Links -/

section Set

variable (parent next prev : Option NodeId) (cs : List NodeId)

@[simp] theorem size_setParent : (t.setParent id parent).size = t.size := size_modify ..
@[simp] theorem size_setNext : (t.setNext id next).size = t.size := size_modify ..
@[simp] theorem size_setPrev : (t.setPrev id prev).size = t.size := size_modify ..
@[simp] theorem size_setChildren : (t.setChildren id cs).size = t.size := size_modify ..

@[simp]
theorem data?_setParent : (t.setParent id parent).data? x = t.data? x :=
  map_get?_modify t id x _ _ fun _ => rfl

@[simp]
theorem data?_setNext : (t.setNext id next).data? x = t.data? x :=
  map_get?_modify t id x _ _ fun _ => rfl

@[simp]
theorem data?_setPrev : (t.setPrev id prev).data? x = t.data? x :=
  map_get?_modify t id x _ _ fun _ => rfl

@[simp]
theorem data?_setChildren : (t.setChildren id cs).data? x = t.data? x :=
  map_get?_modify t id x _ _ fun _ => rfl

/-- A write to a node that does not exist is lost. -/
theorem parent?_setParent (h : id < t.size) :
    (t.setParent id parent).parent? x = if x = id then parent else t.parent? x :=
  bind_get?_modify_self t id x _ _ h fun _ => rfl

@[simp]
theorem parent?_setNext : (t.setNext id next).parent? x = t.parent? x :=
  bind_get?_modify t id x _ _ fun _ => rfl

@[simp]
theorem parent?_setPrev : (t.setPrev id prev).parent? x = t.parent? x :=
  bind_get?_modify t id x _ _ fun _ => rfl

@[simp]
theorem parent?_setChildren : (t.setChildren id cs).parent? x = t.parent? x :=
  bind_get?_modify t id x _ _ fun _ => rfl

theorem next?_setNext (h : id < t.size) :
    (t.setNext id next).next? x = if x = id then next else t.next? x :=
  bind_get?_modify_self t id x _ _ h fun _ => rfl

@[simp]
theorem next?_setParent : (t.setParent id parent).next? x = t.next? x :=
  bind_get?_modify t id x _ _ fun _ => rfl

@[simp]
theorem next?_setPrev : (t.setPrev id prev).next? x = t.next? x :=
  bind_get?_modify t id x _ _ fun _ => rfl

@[simp]
theorem next?_setChildren : (t.setChildren id cs).next? x = t.next? x :=
  bind_get?_modify t id x _ _ fun _ => rfl

theorem prev?_setPrev (h : id < t.size) :
    (t.setPrev id prev).prev? x = if x = id then prev else t.prev? x :=
  bind_get?_modify_self t id x _ _ h fun _ => rfl

@[simp]
theorem prev?_setParent : (t.setParent id parent).prev? x = t.prev? x :=
  bind_get?_modify t id x _ _ fun _ => rfl

@[simp]
theorem prev?_setNext : (t.setNext id next).prev? x = t.prev? x :=
  bind_get?_modify t id x _ _ fun _ => rfl

@[simp]
theorem prev?_setChildren : (t.setChildren id cs).prev? x = t.prev? x :=
  bind_get?_modify t id x _ _ fun _ => rfl

theorem children_setChildren (h : id < t.size) :
    (t.setChildren id cs).children x = if x = id then cs else t.children x := by
  obtain ⟨n, hn⟩ := exists_get? t id h
  rw [children_eq, children_eq, setChildren, get?_modify]
  by_cases hx : x = id
  · subst hx; simp [hn]
  · rw [if_neg (Ne.symm hx), if_neg hx]

@[simp]
theorem children_setParent : (t.setParent id parent).children x = t.children x := by
  rw [children_eq, children_eq, setParent, map_get?_modify]
  exact fun _ => rfl

@[simp]
theorem children_setNext : (t.setNext id next).children x = t.children x := by
  rw [children_eq, children_eq, setNext, map_get?_modify]
  exact fun _ => rfl

@[simp]
theorem children_setPrev : (t.setPrev id prev).children x = t.children x := by
  rw [children_eq, children_eq, setPrev, map_get?_modify]
  exact fun _ => rfl

end Set

/-! ## 3. New nodes -/

section Alloc

variable (data : NodeData)

theorem data?_alloc :
    (t.alloc data).2.data? x = if x = t.size then some data else t.data? x := by
  simp only [data?, get?_alloc]
  split <;> rfl

@[simp]
theorem parent?_alloc : (t.alloc data).2.parent? x = t.parent? x := by
  simp only [parent?, get?_alloc]
  split
  · next h => rw [h, get?_eq_none t t.size (Nat.le_refl _)]; rfl
  · rfl

@[simp]
theorem next?_alloc : (t.alloc data).2.next? x = t.next? x := by
  simp only [next?, get?_alloc]
  split
  · next h => rw [h, get?_eq_none t t.size (Nat.le_refl _)]; rfl
  · rfl

@[simp]
theorem prev?_alloc : (t.alloc data).2.prev? x = t.prev? x := by
  simp only [prev?, get?_alloc]
  split
  · next h => rw [h, get?_eq_none t t.size (Nat.le_refl _)]; rfl
  · rfl

@[simp]
theorem children_alloc : (t.alloc data).2.children x = t.children x := by
  rw [children_eq, children_eq, get?_alloc]
  split
  · next h => rw [h, get?_eq_none t t.size (Nat.le_refl _)]; rfl
  · rfl

theorem parent?_eq_none (h : t.size ≤ x) : t.parent? x = none := by
  rw [parent?, get?_eq_none t x h, Option.bind_none]

end Alloc

/-! ## 4. Changes of data -/

/-- A change that leaves the links of every node alone. -/
structure KeepsLinks (f : Node → Node) : Prop where
  parent : ∀ n, (f n).parent = n.parent
  children : ∀ n, (f n).children = n.children
  next : ∀ n, (f n).next = n.next
  prev : ∀ n, (f n).prev = n.prev

theorem keepsLinks_setData (data : NodeData) : KeepsLinks ({ · with data }) :=
  ⟨fun _ => rfl, fun _ => rfl, fun _ => rfl, fun _ => rfl⟩

theorem keepsLinks_modifyElement (f : Element → Element) :
    KeepsLinks fun n => match n.data with
      | .element e => { n with data := .element (f e) }
      | _ => n := by
  constructor <;> intro n <;> split <;> rfl

theorem keepsLinks_setMode (mode : DocumentMode) :
    KeepsLinks fun n => match n.data with
      | .document _ => { n with data := .document mode }
      | _ => n := by
  constructor <;> intro n <;> split <;> rfl

end Hypertext.Tree
