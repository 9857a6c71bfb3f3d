import Hypertext.Foreign

/-!
# Adjusted names

Names in SVG and MathML get their capitals back. The tables only change the case of letters, so a
name stays as it is or, read without regard to case, is what it was.
-/

namespace Hypertext

/-- The letters of a literal are at hand without the bytes that it is stored in. -/
theorem toLower_ofList {name lower : String} {text : List Char} (hname : name = String.ofList text)
    (hlower : lower = String.ofList (text.map Char.toLower)) : name.toLower = lower := by
  subst hname hlower
  rw [← String.toList_inj]
  show ((String.ofList text).map Char.toLower).toList = _
  rw [String.toList_map, String.toList_ofList, String.toList_ofList]

namespace Foreign

/-- A name that is not in the table stays as it is. -/
theorem lookup_cases (table : List (String × String)) (name : String) :
    (table.lookup name).getD name = name ∨ (name, (table.lookup name).getD name) ∈ table := by
  cases hl : table.lookup name with
  | none => exact Or.inl rfl
  | some s =>
    obtain ⟨before, after, rfl, -⟩ := List.lookup_eq_some_iff.1 hl
    exact Or.inr (by simp)

theorem toLower_svgTagNames : ∀ p ∈ svgTagNames, p.2.toLower = p.1 := by
  unfold svgTagNames
  repeat' first
    | exact List.forall_mem_nil _
    | refine List.forall_mem_cons.2 ⟨toLower_ofList rfl rfl, ?_⟩

theorem toLower_svgAttributeNames : ∀ p ∈ svgAttributeNames, p.2.toLower = p.1 := by
  unfold svgAttributeNames
  repeat' first
    | exact List.forall_mem_nil _
    | refine List.forall_mem_cons.2 ⟨toLower_ofList rfl rfl, ?_⟩

theorem adjustTagName_cases (ns : Namespace) (name : String) :
    adjustTagName ns name = name ∨ (adjustTagName ns name).toLower = name := by
  cases ns with
  | svg => exact (lookup_cases svgTagNames name).imp_right (toLower_svgTagNames _)
  | html | mathml => exact Or.inl rfl

/-- The name of an attribute with a prefix is put together again as it was. -/
theorem adjustQualifiedName_eq (name : String) : adjustQualifiedName name = name := by
  unfold adjustQualifiedName
  split
  · next start rest hl =>
    obtain ⟨before, after, heq, -⟩ := List.lookup_eq_some_iff.1 hl
    have hall : ∀ p ∈ qualifiedNames, (if p.2.1.isEmpty then p.2.2 else p.2.1 ++ ":" ++ p.2.2) =
        p.1 := by decide
    exact hall (name, start, rest) (by rw [heq]; simp)
  · rfl

theorem adjustAttributeName_cases (ns : Namespace) (name : String) :
    adjustAttributeName ns name = name ∨ (adjustAttributeName ns name).toLower = name := by
  unfold adjustAttributeName
  cases ns with
  | html => exact Or.inl (adjustQualifiedName_eq name)
  | svg =>
    simp only [adjustQualifiedName_eq]
    exact (lookup_cases svgAttributeNames name).imp_right (toLower_svgAttributeNames _)
  | mathml =>
    simp only [adjustQualifiedName_eq, adjustMathmlAttributeName]
    split
    · next hname =>
      rw [hname]
      exact Or.inr (toLower_ofList rfl rfl)
    · exact Or.inl rfl

end Foreign

end Hypertext
