import Hypertext.TreeBuilder.Insertion
import Mathlib.Data.List.Nodup
import Mathlib.Data.List.Perm.Subperm

/-!
# Attributes as finite maps

Attributes are a list in which each name stands once, so they are the same in any order if every
name has the same value.
-/

namespace Hypertext

namespace Attributes

variable {as bs : Attributes} {name value : String}

def names (as : Attributes) : List String := as.map Prod.fst

theorem get?_eq_none : as.get? name = none ↔ name ∉ as.names := by
  rw [get?, List.lookup_eq_none_iff, names, List.mem_map]
  constructor
  · rintro h ⟨a, ha, rfl⟩
    simpa using h a ha
  · intro h a ha
    rw [bne_iff_ne]
    rintro rfl
    exact h ⟨a, ha, rfl⟩

theorem get?_eq_some (h : as.names.Nodup) : as.get? name = some value ↔ (name, value) ∈ as := by
  induction as with
  | nil => simp [get?]
  | cons a as ih =>
    obtain ⟨k, v⟩ := a
    obtain ⟨hk, has⟩ := List.nodup_cons.1 h
    have ih := ih has
    rw [get?] at ih ⊢
    rw [List.lookup_cons, List.mem_cons]
    by_cases hname : name = k
    · subst hname
      have hnot : (name, value) ∉ as := fun hmem => hk (List.mem_map.2 ⟨_, hmem, rfl⟩)
      simp [hnot, eq_comm]
    · simp [beq_eq_false_iff_ne.2 hname, hname, ih]

theorem contains_eq_false : as.contains name = false ↔ name ∉ as.names := by
  rw [contains, Option.isSome_eq_false_iff, Option.isNone_iff_eq_none, get?_eq_none]

theorem nodup_addNew (h : as.names.Nodup) (name value : String) :
    (as.addNew name value).names.Nodup := by
  unfold addNew
  split
  · exact h
  · next hnot =>
    have hnot := contains_eq_false.1 (Bool.eq_false_iff.2 hnot)
    rw [names, List.map_append]
    exact List.nodup_append.2 ⟨h, List.nodup_singleton _, by
      rintro a ha b hb rfl
      rw [List.mem_singleton.1 hb] at ha
      exact hnot ha⟩

/-- A name that is there keeps its value. -/
theorem get?_addNew (as : Attributes) (name value key : String) :
    (as.addNew name value).get? key =
      (as.get? key).or (if name = key then some value else none) := by
  unfold addNew
  split
  · next h =>
    obtain ⟨old, hold⟩ := Option.isSome_iff_exists.1 h
    split
    · next hkey => rw [← hkey, hold]; rfl
    · rw [Option.or_none]
  · rw [get?, get?, List.lookup_append, List.lookup_cons, List.lookup_nil]
    by_cases hkey : name = key
    · simp [hkey]
    · simp [beq_eq_false_iff_ne.2 (Ne.symm hkey), hkey]

theorem get?_append_of_some {as added : Attributes} {name value : String}
    (h : as.get? name = some value) : Attributes.get? (as ++ added) name = some value := by
  rw [Attributes.get?] at h
  rw [Attributes.get?, List.lookup_append, h]
  rfl

theorem exists_addNew (as : Attributes) (name value : String) : ∃ added : Attributes,
    as.addNew name value = as ++ added ∧ ∀ a ∈ added, as.get? a.1 = none := by
  unfold addNew
  split
  · exact ⟨[], (List.append_nil as).symm, List.forall_mem_nil _⟩
  · next hnot =>
    refine ⟨[(name, value)], rfl, List.forall_mem_singleton.2 ?_⟩
    exact get?_eq_none.2 (contains_eq_false.1 (Bool.eq_false_iff.2 hnot))

/-- What is added later is new to what was there first, too. -/
theorem get?_eq_none_of_append {as added : Attributes} {name : String}
    (h : Attributes.get? (as ++ added) name = none) : as.get? name = none := by
  by_contra hsome
  obtain ⟨value, hvalue⟩ := Option.ne_none_iff_exists'.1 hsome
  rw [get?_append_of_some hvalue] at h
  cases h

theorem exists_merge (as : Attributes) (attributes : List Attribute) : ∃ added : Attributes,
    attributes.foldl (fun as a => as.addNew a.name a.value) as = as ++ added ∧
      ∀ a ∈ added, as.get? a.1 = none := by
  induction attributes generalizing as with
  | nil => exact ⟨[], (List.append_nil as).symm, List.forall_mem_nil _⟩
  | cons a attributes ih =>
    obtain ⟨first, hfirst, hnew⟩ := as.exists_addNew a.name a.value
    obtain ⟨later, hlater, hnew'⟩ := ih (as.addNew a.name a.value)
    refine ⟨first ++ later, ?_, List.forall_mem_append.2 ⟨hnew, fun a ha => ?_⟩⟩
    · rw [List.foldl_cons, hlater, hfirst, List.append_assoc]
    · exact get?_eq_none_of_append (hfirst ▸ hnew' a ha)

theorem merge_of_nodup {attributes : List Attribute}
    (h : (as.names ++ attributes.map (·.name)).Nodup) :
    attributes.foldl (fun as a => as.addNew a.name a.value) as = as ++ attributes.map fun a =>
      (a.name, a.value) := by
  induction attributes generalizing as with
  | nil => simp
  | cons a attributes ih =>
    have hnew : as.contains a.name = false := by
      apply contains_eq_false.2
      exact fun hmem => (List.nodup_append'.1 h).2.2 hmem (by simp)
    have hshift : ((as ++ [(a.name, a.value)] : Attributes).names ++
        attributes.map (·.name)).Nodup := by
      simpa [names] using h
    rw [List.foldl_cons, addNew, if_neg (by simp [hnew]), ih hshift]
    simp

theorem sameAs_iff (has : as.names.Nodup) (hbs : bs.names.Nodup) :
    as.sameAs bs = true ↔ ∀ name, as.get? name = bs.get? name := by
  have hsub : (as.all fun a => bs.get? a.1 == some a.2) = true ↔ as ⊆ bs := by
    rw [List.all_eq_true]
    refine forall₂_congr fun a _ => ?_
    rw [beq_iff_eq, get?_eq_some hbs]
  have hnodup {l : Attributes} (h : l.names.Nodup) : l.Nodup := h.of_map _
  rw [sameAs, Bool.and_eq_true, beq_iff_eq, hsub]
  constructor
  · rintro ⟨hlength, hsub⟩ name
    have hperm : as.Perm bs :=
      (List.subperm_of_subset (hnodup has) hsub).perm_of_length_le (Nat.le_of_eq hlength.symm)
    refine Option.ext fun value => ?_
    rw [get?_eq_some has, get?_eq_some hbs, hperm.mem_iff]
  · intro h
    have hmem : ∀ a, a ∈ as ↔ a ∈ bs := fun a => by
      rw [← get?_eq_some has, ← get?_eq_some hbs, h]
    exact ⟨((List.perm_ext_iff_of_nodup (hnodup has) (hnodup hbs)).2 hmem).length_eq,
      fun a => (hmem a).1⟩

end Attributes

namespace TreeBuilder

theorem nodup_attributesOf (attributes : List Attribute) :
    (attributesOf attributes).names.Nodup := by
  have hfold (as : Attributes) (h : as.names.Nodup) :
      (attributes.foldl (fun as a => as.addNew a.name a.value) as).names.Nodup := by
    induction attributes generalizing as with
    | nil => exact h
    | cons a attributes ih => exact ih _ (Attributes.nodup_addNew h a.name a.value)
  exact hfold [] List.nodup_nil

/-- Different names all get in. -/
theorem attributesOf_of_nodup {attributes : List Attribute} (h : (attributes.map (·.name)).Nodup) :
    attributesOf attributes = attributes.map fun a => (a.name, a.value) := by
  have hnone : (Attributes.names [] ++ attributes.map (·.name)).Nodup := h
  exact Attributes.merge_of_nodup hnone

/-- The first value of a name wins. -/
theorem get?_attributesOf (tag : Tag) (name : String) :
    (attributesOf tag.attributes).get? name = tag.attribute? name := by
  have hfold (attributes : List Attribute) (as : Attributes) :
      (attributes.foldl (fun as a => as.addNew a.name a.value) as).get? name =
        (as.get? name).or ((attributes.find? fun a => a.name == name).map (·.value)) := by
    induction attributes generalizing as with
    | nil => simp
    | cons a attributes ih =>
      rw [List.foldl_cons, ih, Attributes.get?_addNew, List.find?_cons, Option.or_assoc]
      by_cases ha : a.name = name
      · simp [ha]
      · simp [ha, beq_eq_false_iff_ne.2 ha]
  exact hfold tag.attributes []

end TreeBuilder

end Hypertext
