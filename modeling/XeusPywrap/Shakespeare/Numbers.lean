import Mathlib.Algebra.Ring.Int.Defs
import Mathlib.Algebra.Ring.Nat
import Mathlib.Data.Nat.Factorial.Basic
import XeusPywrap.Shakespeare.Input

/-!
# XeusPywrap.Shakespeare.Numbers

Python's numbers and characters, as far as plays compute with them: integers of any
size, their numerals, and the three operations that go
through binary64 numbers (`/`, `math.fmod` and `math.sqrt`), whose results plays
truncate to integers.
-/

namespace XeusPywrap

/-! ### Binary64 -/

def overflowError (message : String) : PyExc := ⟨.exception, "OverflowError", message⟩

namespace Binary64

/-- The integer nearest to `p / q`, the even one of two. -/
def nearest (p q : Nat) : Nat :=
  if 2 * (p % q) < q then p / q
  else if q < 2 * (p % q) then p / q + 1
  else p / q + (p / q) % 2

/-- The exponent `e` for which `p / q / 2 ^ e` lies between `2 ^ 52` and `2 ^ 53`. -/
def exponent (p q : Nat) : Int :=
  let e : Int := (p.log2 : Int) - q.log2 - 53
  if 2 ^ 53 * (q * 2 ^ e.toNat) ≤ p * 2 ^ (-e).toNat then e + 1 else e

/-- The integer part of `m * 2 ^ e`. -/
def integerPart (m : Nat) (e : Int) : Nat := m * 2 ^ e.toNat / 2 ^ (-e).toNat

/-- The integer part of the binary64 number nearest to `p / q`. -/
def truncQuotient (p q : Nat) : Nat :=
  if p = 0 then 0
  else
    let e := exponent p q
    integerPart (nearest (p * 2 ^ (-e).toNat) (q * 2 ^ e.toNat)) e

/-- The integer part of the binary64 number nearest to the square root of `d`. -/
def truncSqrt (d : Nat) : Nat :=
  if d = 0 then 0
  else
    let e : Int := ((d.log2 : Int) - 104) / 2
    let num := d * 4 ^ (-e).toNat
    let den := 4 ^ e.toNat
    let m := Nat.sqrt (num / den)
    let m :=
      if 4 * num < (2 * m + 1) ^ 2 * den then m
      else if (2 * m + 1) ^ 2 * den < 4 * num then m + 1
      else m + m % 2
    integerPart m e

/-- What exceeds the largest binary64 number. -/
def tooLarge : Nat := 2 ^ 1024

end Binary64

/-- `float(n)`, whose value is an integer again. -/
def pyFloat (n : Int) : Except PyExc Int :=
  let m := Binary64.truncQuotient n.natAbs 1
  if Binary64.tooLarge ≤ m then .error (overflowError "int too large to convert to float")
  else .ok (n.sign * m)

/-- `int(a / b)`. -/
def intOfTrueDivision (a b : Int) : Except PyExc Int :=
  let m := Binary64.truncQuotient a.natAbs b.natAbs
  if Binary64.tooLarge ≤ m then
    .error (overflowError "integer division result too large for a float")
  else .ok (a.sign * b.sign * m)

/-- `int(math.fmod(a, b))`. -/
def intOfFmod (a b : Int) : Except PyExc Int := do
  let x ← pyFloat a
  let y ← pyFloat b
  pure (x.tmod y)

/-- `int(math.sqrt(n))`, for `n` not negative. -/
def intOfSqrt (n : Int) : Except PyExc Int := do
  let x ← pyFloat n
  pure (Binary64.truncSqrt x.natAbs)

/-- `math.factorial(n)`, for `n` not negative. -/
def pyFactorial (n : Int) : Except PyExc Int :=
  if 2 ^ 63 ≤ n then
    .error (overflowError "factorial() argument should not exceed 9223372036854775807")
  else .ok (n.toNat.factorial : Nat)

end XeusPywrap
