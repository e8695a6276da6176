/-!
Numbers of fifty-three binary digits and the rounding that brings others to them: to the nearest,
a half to the even one. Exponents are not bounded.
-/

namespace Taproom

structure Binary where
  mantissa : Nat
  exponent : Int
  deriving DecidableEq, Repr

namespace Binary

/-- Rounds `num / den` to the nearest integer, a half to the even one. -/
def roundHalfEven (num den : Nat) : Nat :=
  let q := num / den
  let r := num % den
  if 2 * r < den then q
  else if den < 2 * r then q + 1
  else if q % 2 = 0 then q else q + 1

def shifted (num den : Nat) (exponent : Int) : Nat × Nat :=
  if exponent < 0 then (num * Nat.pow 2 (-exponent).toNat, den)
  else (num, den * Nat.pow 2 exponent.toNat)

def nearest (num den : Nat) : Binary :=
  if num = 0 then ⟨0, 0⟩
  else
    let e : Int := (Nat.log2 num : Int) - (Nat.log2 den : Int) - 52
    let (n, d) := shifted num den e
    let e := if n / d < Nat.pow 2 52 then e - 1 else e
    let (n, d) := shifted num den e
    ⟨roundHalfEven n d, e⟩

def ofNat (n : Nat) : Binary := nearest n 1

def ratio (x : Binary) : Nat × Nat :=
  if x.exponent < 0 then (x.mantissa, Nat.pow 2 (-x.exponent).toNat)
  else (x.mantissa * Nat.pow 2 x.exponent.toNat, 1)

def mul (x y : Binary) : Binary :=
  nearest (x.ratio.1 * y.ratio.1) (x.ratio.2 * y.ratio.2)

def div (x y : Binary) : Binary :=
  nearest (x.ratio.1 * y.ratio.2) (x.ratio.2 * y.ratio.1)

def floor (x : Binary) : Nat := x.ratio.1 / x.ratio.2

end Binary

end Taproom
