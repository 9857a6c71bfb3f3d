import Hypertext.Binary64

/-!
# The shortest decimal of a float

Of the decimals that read back as a float, the one with the fewest digits, and of several such the
nearest to the float. If a point of a decimal grid reads back, so does one of the float's two
neighbours on that grid, so it is enough to try these two, from the coarsest grid to the finest.
-/

namespace Hypertext

/-- The decimal number `digits * 10 ^ place`. -/
structure Decimal where
  digits : Nat
  place : Int
deriving DecidableEq

namespace Decimal

/-- The float that a decimal reads as. -/
def float? (d : Decimal) : Option Binary64 :=
  match d.place with
  | .ofNat p => Binary64.round? (d.digits * Nat.pow 10 p * Binary64.unitsPerOne) 1
  | .negSucc p => Binary64.round? (d.digits * Binary64.unitsPerOne) (Nat.pow 10 (p + 1))

end Decimal

namespace Binary64

/-- The neighbours of a float on the grid of the multiples of `10 ^ place`, the nearer first. -/
def neighbours (x : Binary64) (place : Int) : List Decimal :=
  let (num, den) := match place with
    | .ofNat p => (x.units, unitsPerOne * Nat.pow 10 p)
    | .negSucc p => (x.units * Nat.pow 10 (p + 1), unitsPerOne)
  let near := nearest num den
  let far := if near = num / den then near + 1 else num / den
  [⟨near, place⟩, ⟨far, place⟩]

/-- The neighbour on a grid that reads back, the nearer of two. -/
def onGrid? (x : Binary64) (place : Int) : Option Decimal :=
  (x.neighbours place).find? fun d => d.float? = some x

/-- The shortest decimal. A float with `n` digits before its point is below `10 ^ n`, so no coarser
grid is needed; and neighbouring floats are more than `10 ^ -324` apart, so no finer one. -/
def shortest (x : Binary64) : Decimal :=
  if x.units = 0 then ⟨0, 0⟩
  else
    let coarsest : Int := (Nat.toDigits 10 (x.units / unitsPerOne)).length
    ((List.range (coarsest + 325).toNat).findSome?
      fun (i : Nat) => x.onGrid? (coarsest - i)).getD ⟨0, 0⟩

end Binary64

end Hypertext
