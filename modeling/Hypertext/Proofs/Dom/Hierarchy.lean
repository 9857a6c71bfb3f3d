import Mathlib.Data.Fintype.Card
import Mathlib.Logic.Relation

/-!
# Hierarchies

A hierarchy says what is directly above what: nothing is above itself, however long the way down is,
and at most one thing is directly above another. Going down from two siblings leads to different
places, and something that is hung up elsewhere leaves a hierarchy if its new place is not below it.
-/

namespace Hypertext

open Relation

/-- What `R` puts directly above what: nothing is above itself, and there is one way up. -/
structure Hierarchy {α : Type} (R : α → α → Prop) : Prop where
  acyclic : ∀ x, ¬ TransGen R x x
  unique : ∀ a b c, R a c → R b c → a = b

namespace Hierarchy

/-! ## 1. Above and below -/

section

variable {α : Type} {R : α → α → Prop} (h : Hierarchy R) {a b p x y z : α}
include h

theorem not_reach (hxy : R x y) : ¬ ReflTransGen R y x := fun hyx => h.acyclic x (.head' hxy hyx)

theorem antisymm (hxy : ReflTransGen R x y) (hyx : ReflTransGen R y x) : x = y := by
  rcases reflTransGen_iff_eq_or_transGen.1 hxy with rfl | hlt
  · rfl
  · exact absurd (hlt.trans_left hyx) (h.acyclic x)

/-- Whoever comes down to `y` from elsewhere passes what is directly above it. -/
theorem reach_of (hzy : R z y) (hxy : ReflTransGen R x y) (hne : x ≠ y) : ReflTransGen R x z := by
  rcases ReflTransGen.cases_tail hxy with heq | ⟨w, hxw, hwy⟩
  · exact absurd heq.symm hne
  · rwa [h.unique z w y hzy hwy]

/-- Of two that are above a third one, one is above the other. -/
theorem comparable (hxz : ReflTransGen R x z) (hyz : ReflTransGen R y z) :
    ReflTransGen R x y ∨ ReflTransGen R y x := by
  induction hyz with
  | refl => exact Or.inl hxz
  | @tail w z hyw hwz ih =>
    by_cases hx : x = z
    · exact Or.inr (hx ▸ hyw.tail hwz)
    · exact ih (h.reach_of hwz hxz hx)

theorem not_reach_sibling (hx : R p x) (hy : R p y) (hne : x ≠ y) : ¬ ReflTransGen R x y :=
  fun hxy =>
  h.not_reach hx (h.reach_of hy hxy hne)

/-- Nothing is below two siblings. -/
theorem siblings_disjoint (hx : R p x) (hy : R p y) (hne : x ≠ y) (hxz : ReflTransGen R x z) :
    ¬ ReflTransGen R y z := fun hyz => by
  rcases h.comparable hxz hyz with hxy | hyx
  · exact h.not_reach_sibling hx hy hne hxy
  · exact h.not_reach_sibling hy hx hne.symm hyx

end

/-! ## 2. Something is hung up elsewhere -/

section

variable {α : Type} {R R' : α → α → Prop} {c x y : α} {q : Option α}

/-- `c` is taken from where it hangs in `R`, and hung up below `q`, if that is given. -/
def Rehung (R R' : α → α → Prop) (c : α) (q : Option α) : Prop :=
  ∀ a b, R' a b ↔ (b ≠ c ∧ R a b) ∨ (b = c ∧ q = some a)

/-- A way down is one from before, or it passes what was moved. -/
theorem Rehung.reach_of (m : Rehung R R' c q) (hxy : ReflTransGen R' x y) :
    ReflTransGen R x y ∨ ∃ p, q = some p ∧ ReflTransGen R x p ∧ ReflTransGen R c y := by
  induction hxy with
  | refl => exact Or.inl .refl
  | @tail a b _ hab ih =>
    rcases (m a b).1 hab with ⟨-, hab⟩ | ⟨rfl, hq⟩
    · rcases ih with ih | ⟨p, hq, hp, ih⟩
      · exact Or.inl (ih.tail hab)
      · exact Or.inr ⟨p, hq, hp, ih.tail hab⟩
    · refine Or.inr ⟨a, hq, ?_, .refl⟩
      rcases ih with ih | ⟨p, hq', hp, -⟩
      · exact ih
      · cases hq.symm.trans hq'
        exact hp

/-- What is not below what was moved is found as before. -/
theorem Rehung.reach_of_not (m : Rehung R R' c q) (hxy : ReflTransGen R x y)
    (hcy : ¬ ReflTransGen R c y) : ReflTransGen R' x y := by
  induction hxy with
  | refl => exact .refl
  | @tail a b hxa hab ih =>
    have hb : b ≠ c := by
      rintro rfl
      exact hcy .refl
    have hca : ¬ ReflTransGen R c a := fun hca => hcy (hca.tail hab)
    exact (ih hca).tail ((m a b).2 (Or.inl ⟨hb, hab⟩))

/-- What is below moves along. -/
theorem reach_below (h : Hierarchy R) (m : Rehung R R' c q) (hcy : ReflTransGen R c y) :
    ReflTransGen R' c y := by
  induction hcy with
  | refl => exact .refl
  | @tail a b hca hab ih =>
    have hb : b ≠ c := by
      rintro rfl
      exact h.not_reach hab hca
    exact ih.tail ((m a b).2 (Or.inl ⟨hb, hab⟩))

/-- If the new place is not below what is moved there, there is a hierarchy again. -/
theorem rehung (h : Hierarchy R) (m : Rehung R R' c q)
    (hq : ∀ p, q = some p → ¬ ReflTransGen R c p) : Hierarchy R' where
  acyclic x hx := by
    obtain ⟨z, hxz, hzx⟩ := TransGen.head'_iff.1 hx
    rcases (m x z).1 hxz with ⟨-, hxz⟩ | ⟨rfl, hqx⟩
    · rcases m.reach_of hzx with hzx | ⟨p, hp, hzp, hcx⟩
      · exact h.not_reach hxz hzx
      · exact hq p hp ((hcx.tail hxz).trans hzp)
    · rcases m.reach_of hzx with hzx | ⟨p, hp, hzp, -⟩
      · exact hq x hqx hzx
      · exact hq p hp hzp
  unique a b d ha hb := by
    rcases (m a d).1 ha with ⟨hd, ha⟩ | ⟨rfl, ha⟩
    · rcases (m b d).1 hb with ⟨-, hb⟩ | ⟨heq, -⟩
      · exact h.unique a b d ha hb
      · exact absurd heq hd
    · rcases (m b d).1 hb with ⟨hd, -⟩ | ⟨-, hb⟩
      · exact absurd rfl hd
      · exact Option.some.inj (ha.symm.trans hb)

end

/-! ## 3. Going down and going up -/

section

variable {R : Nat → Nat → Prop} {n : Nat}

/-- Each number has the number of those before it as its rank: fewer come before an earlier one,
since itself is one of those that come before a later one. -/
theorem exists_rank (hirrefl : ∀ a, ¬ R a a) (htrans : ∀ a b c, R a b → R b c → R a c)
    (hlt : ∀ a b, R a b → a < n) :
    ∃ rank : Nat → Nat, (∀ a, rank a ≤ n) ∧ ∀ a b, R a b → rank a < rank b := by
  classical
  refine ⟨fun x => ((Finset.range n).filter (R · x)).card, fun a => ?_, fun a b hab => ?_⟩
  · exact (Finset.card_filter_le _ _).trans (Finset.card_range n).le
  · apply Finset.card_lt_card
    apply (Finset.ssubset_iff_of_subset ?_).2
    · refine ⟨a, Finset.mem_filter.2 ⟨Finset.mem_range.2 (hlt a b hab), hab⟩, fun ha => ?_⟩
      exact hirrefl a (Finset.mem_filter.1 ha).2
    · exact Finset.monotone_filter_right _ fun y _ hy => htrans y a b hy hab

theorem wellFounded_of_lt (hirrefl : ∀ a, ¬ R a a) (htrans : ∀ a b c, R a b → R b c → R a c)
    (hlt : ∀ a b, R a b → a < n) : WellFounded R := by
  obtain ⟨rank, -, hrank⟩ := exists_rank hirrefl htrans hlt
  exact Subrelation.wf (hrank _ _) (measure rank).wf

variable (h : Hierarchy R)
include h

/-- The way up comes to an end. -/
theorem wellFounded_up (hlt : ∀ a b, R a b → a < n) : WellFounded R := by
  have hwf : WellFounded (TransGen R) := by
    refine wellFounded_of_lt (n := n) h.acyclic (fun _ _ _ => TransGen.trans) fun a b hab => ?_
    obtain ⟨c, hac, -⟩ := TransGen.head'_iff.1 hab
    exact hlt a c hac
  exact Subrelation.wf .single hwf

/-- Every way down comes to an end. -/
theorem wellFounded_down (hlt : ∀ a b, R a b → b < n) : WellFounded fun b a => R a b := by
  have hwf : WellFounded fun b a => TransGen R a b := by
    refine wellFounded_of_lt (n := n) h.acyclic (fun _ _ _ hba hcb => hcb.trans hba) fun b a hab =>
      ?_
    obtain ⟨c, -, hcb⟩ := TransGen.tail'_iff.1 hab
    exact hlt c b hcb
  exact Subrelation.wf .single hwf

end

end Hierarchy

end Hypertext
