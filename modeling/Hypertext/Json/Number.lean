import Hypertext.Binary64.Shortest

/-!
# JSON numbers

A numeral is a number as it is written. Its digits are gathered in a word of 64 bits, and those that
do not fit any more only move the point. A numeral without point and power whose digits all fit is a
whole number; any other is that word as a float, times a power of ten.
-/

namespace Hypertext

/-- A whole number in the 64-bit range, or a float. -/
inductive JsonNumber where
  | whole (value : Int)
  | float (negative : Bool) (magnitude : Binary64)
deriving DecidableEq

/-- The parts of a written number. -/
structure Numeral where
  negative : Bool := false
  /-- The digits before the point. -/
  whole : List Nat
  /-- The digits after the point, none without a point. -/
  fraction : List Nat := []
  /-- The written power of ten. -/
  exponent : Option Int := none
deriving DecidableEq

namespace Numeral

/-- Appends digits to a word as long as 64 bits hold it, and gives the word and the
digits left over. -/
def gather (word : Nat) : List Nat → Nat × List Nat
  | [] => (word, [])
  | d :: rest =>
    if word * 10 + d < Nat.pow 2 64 then gather (word * 10 + d) rest else (word, d :: rest)

/-- The number with this word of digits and no point. A negative zero is a float, as is a negative
number beyond the 64-bit range. -/
def integer? (negative : Bool) (word : Nat) : Option JsonNumber :=
  if !negative then some (.whole word)
  else if 0 < word ∧ word ≤ Nat.pow 2 63 then some (.whole (-(word : Int)))
  else (Binary64.ofNat? word).map (.float true)

/-- The value of a numeral, if it is not beyond the largest float. -/
def value? (n : Numeral) : Option JsonNumber :=
  let (high, left) := gather 0 n.whole
  if left.isEmpty && n.fraction.isEmpty && n.exponent.isNone then integer? n.negative high
  else
    let (word, dropped) := gather high n.fraction
    let power : Int := left.length + dropped.length - n.fraction.length + n.exponent.getD 0
    ((Binary64.ofNat? word).bind (·.scaleTen? power)).map (.float n.negative)

end Numeral

/-! ## Printing -/

namespace Decimal

def zeros (n : Nat) : List Char := List.replicate n '0'

/-- The text of a decimal. Up to sixteen digits before the point and four zeros after it are
written out, and there is always a digit after the point; any other number is written with a
power of ten. -/
def print (d : Decimal) : String :=
  let digits := (toString d.digits).toList
  let point : Int := digits.length + d.place
  if 0 ≤ d.place ∧ point ≤ 16 then String.ofList (digits ++ zeros d.place.toNat ++ ['.', '0'])
  else if 0 < point ∧ point ≤ 16 then
    String.ofList (digits.take point.toNat ++ '.' :: digits.drop point.toNat)
  else if -5 < point ∧ point ≤ 0 then
    String.ofList ('0' :: '.' :: zeros (-point).toNat ++ digits)
  else
    let mantissa := digits.take 1 ++ (if 1 < digits.length then '.' :: digits.drop 1 else [])
    String.ofList mantissa ++ "e" ++ toString (point - 1)

end Decimal

/-- The text of a number, the shortest one for a float. -/
def JsonNumber.print : JsonNumber → String
  | .whole value => toString value
  | .float negative magnitude => (if negative then "-" else "") ++ magnitude.shortest.print

end Hypertext
