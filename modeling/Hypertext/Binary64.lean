/-!
# Floats of 64 bits

Every finite float of the 64-bit binary format is a whole number of units of `2 ^ -1074`, the least
positive float, and has at most 53 significant bits. A float is kept as its number of units, so that
an operation is exact arithmetic and one rounding: to the nearest float, and of two that are equally
near to the one with an even significand. Signs are left to the number types that hold a float.
-/

namespace Hypertext

/-- A finite float that is not negative, as a multiple of `2 ^ -1074`. -/
structure Binary64 where
  units : Nat
deriving DecidableEq

namespace Binary64

def unitsPerOne : Nat := Nat.pow 2 1074

/-- The units of `2 ^ 1024`, the first value beyond the largest float. -/
def limit : Nat := Nat.pow 2 2098

/-- The whole number nearest to a quotient; a half goes to the even neighbour. -/
def nearest (num den : Nat) : Nat :=
  let below := num / den
  let twice := 2 * (num % den)
  if twice < den ∨ (twice = den ∧ below % 2 = 0) then below else below + 1

/-- The distance of neighbouring floats from a number of units on, up to the next power of two. -/
def spacing (units : Nat) : Nat := Nat.pow 2 (units.log2 - 52)

/-- The float nearest to `num / den` units, if it is not beyond the largest one. -/
def round? (num den : Nat) : Option Binary64 :=
  let step := spacing (num / den)
  let units := nearest num (den * step) * step
  if units < limit then some ⟨units⟩ else none

def ofNat? (n : Nat) : Option Binary64 := round? (n * unitsPerOne) 1

def mul? (x y : Binary64) : Option Binary64 := round? (x.units * y.units) unitsPerOne

def div? (x y : Binary64) : Option Binary64 := round? (x.units * unitsPerOne) y.units

/-! ## Powers of ten -/

/-- The largest power of ten among the floats. -/
def largestTen : Nat := 308

/-- The float nearest to a power of ten. -/
def tenTo? (n : Nat) : Option Binary64 := ofNat? (Nat.pow 10 n)

/-- Multiplies by `10 ^ n`. -/
def mulTen? (x : Binary64) (n : Nat) : Option Binary64 :=
  if x.units = 0 then some x
  else if n ≤ largestTen then (tenTo? n).bind x.mul?
  else none

/-- Divides by `10 ^ n`, in several steps if that power is no float. Each step rounds. -/
def divTen? (x : Binary64) (n : Nat) : Option Binary64 :=
  if x.units = 0 then some x
  else if n ≤ largestTen then (tenTo? n).bind x.div?
  else ((tenTo? largestTen).bind x.div?).bind (·.divTen? (n - largestTen))
termination_by n
decreasing_by simp_all only [largestTen]; omega

/-- Multiplies by a power of ten. -/
def scaleTen? (x : Binary64) : (power : Int) → Option Binary64
  | .ofNat n => x.mulTen? n
  | .negSucc n => x.divTen? (n + 1)

end Binary64

end Hypertext
