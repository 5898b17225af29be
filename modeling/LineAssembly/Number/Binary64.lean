/-! Binary floating point numbers of 64 bits, as exact values. -/
namespace LineAssembly

/-- A finite number is `mantissa * 2 ^ exponent` with a sign of its own, so that zero has two. -/
inductive Binary64 where
  | finite (negative : Bool) (mantissa : Nat) (exponent : Int)
  | infinite (negative : Bool)
  | nan
  deriving Repr, DecidableEq

namespace Binary64

/-- The quotient nearest to `n / d`; a tie goes to the even neighbour. -/
def roundDiv (n d : Nat) : Nat :=
  let q := n / d
  let r := n % d
  if 2 * r < d then q else if d < 2 * r then q + 1 else if q % 2 = 0 then q else q + 1

/-- The greatest `k` with `2 ^ k ≤ n / d`, for positive `n` and `d`. -/
def log2Div (n d : Nat) : Int :=
  let k : Int := (n.log2 : Int) - d.log2
  let reached := if 0 ≤ k then d * Nat.pow 2 k.toNat ≤ n else d ≤ n * Nat.pow 2 (-k).toNat
  if reached then k else k - 1

def leastExponent : Int := -1074

def greatestExponent : Int := 971

def ofQuotient (negative : Bool) (n d : Nat) : Binary64 :=
  if n = 0 then .finite negative 0 0
  else
    let e := max (log2Div n d - 52) leastExponent
    let m := if 0 ≤ e then roundDiv n (d * Nat.pow 2 e.toNat)
      else roundDiv (n * Nat.pow 2 (-e).toNat) d
    let (m, e) := if m = Nat.pow 2 53 then (Nat.pow 2 52, e + 1) else (m, e)
    if greatestExponent < e then .infinite negative else .finite negative m e

/-- The number nearest to `m * 10 ^ e`. Far outside the range of the format the answer does not
hang on the digits. -/
def ofDecimal (negative : Bool) (m : Nat) (e : Int) : Binary64 :=
  let size : Int := (Nat.toDigits 10 m).length + e
  if m = 0 then .finite negative 0 0
  else if 320 < size then .infinite negative
  else if size < -340 then .finite negative 0 0
  else if 0 ≤ e then ofQuotient negative (m * Nat.pow 10 e.toNat) 1
  else ofQuotient negative m (Nat.pow 10 (-e).toNat)

/-- The integer part, toward zero; there is none for the infinite and for what is no number. -/
def truncate? : Binary64 → Option Int
  | .finite negative m e =>
    let n : Nat := if 0 ≤ e then m * Nat.pow 2 e.toNat else m / Nat.pow 2 (-e).toNat
    some (if negative then -n else n)
  | _ => none

end Binary64
end LineAssembly
