import LineAssembly.Number.Binary64
import LineAssembly.Number.Decimal

/-! The shortest decimal text that reads back as a given binary64 number. -/
namespace LineAssembly
namespace Shortest

/-- The numbers that round to a given one: the ends are `low * unit` and `high * unit` and count if
`closed`, and the number itself is `value * unit` with `unit = num / den`. -/
structure Interval where
  low : Nat
  value : Nat
  high : Nat
  num : Nat
  den : Nat
  closed : Bool
  deriving Repr, DecidableEq

/-- Half way to the neighbours, in quarters of the last place. Below a power of two the places are
half as wide. -/
def Interval.of (m : Nat) (e : Int) : Interval :=
  let narrow := m = Nat.pow 2 52 && Binary64.leastExponent < e
  let e' := e - 2
  { low := if narrow then 4 * m - 1 else 4 * m - 2
    value := 4 * m
    high := 4 * m + 2
    num := if 0 ≤ e' then Nat.pow 2 e'.toNat else 1
    den := if 0 ≤ e' then 1 else Nat.pow 2 (-e').toNat
    closed := m % 2 = 0 }

structure Decimal10 where
  digits : Nat
  exponent : Int
  deriving Repr, DecidableEq

/-- `(a, b)` with `a / b = x * 10 ^ exponent / unit`. -/
def Interval.scale (i : Interval) (x : Nat) (exponent : Int) : Nat × Nat :=
  if 0 ≤ exponent then (x * Nat.pow 10 exponent.toNat * i.den, i.num)
  else (x * i.den, i.num * Nat.pow 10 (-exponent).toNat)

def Interval.has (i : Interval) (x : Nat) (exponent : Int) : Bool :=
  let (a, b) := i.scale x exponent
  if i.closed then i.low * b ≤ a && a ≤ i.high * b else i.low * b < a && a < i.high * b

def Interval.distance (i : Interval) (x : Nat) (exponent : Int) : Nat :=
  let (a, b) := i.scale x exponent
  let v := i.value * b
  if a ≤ v then v - a else a - v

def Interval.below (i : Interval) (exponent : Int) : Nat :=
  if 0 ≤ exponent then i.value * i.num / (i.den * Nat.pow 10 exponent.toNat)
  else i.value * i.num * Nat.pow 10 (-exponent).toNat / i.den

def Interval.onGrid (i : Interval) (exponent : Int) : Option Nat :=
  let x := i.below exponent
  match i.has x exponent, i.has (x + 1) exponent with
  | true, true =>
    let dx := i.distance x exponent
    let dy := i.distance (x + 1) exponent
    if dx < dy then some x else if dy < dx then some (x + 1)
    else if x % 2 = 0 then some x else some (x + 1)
  | true, false => some x
  | false, true => some (x + 1)
  | false, false => none

def Interval.search (i : Interval) : Nat → Int → Decimal10
  | 0, exponent => ⟨i.below exponent, exponent⟩
  | fuel + 1, exponent =>
    match i.onGrid exponent with
    | some x => ⟨x, exponent⟩
    | none => i.search fuel (exponent - 1)

def topExponent : Int := 309

/-- The shortest decimal of a positive number. The finest grid that is tried has every number of
the format on it. -/
def ofFinite (m : Nat) (e : Int) : Decimal10 := (Interval.of m e).search 1400 topExponent

def normal (d : Decimal10) : List Char × Int :=
  let digits := Decimal.digits d.digits
  (((digits.reverse.dropWhile (· = '0')).reverse), digits.length + d.exponent)

/-- An exponent has a sign and at least two digits. -/
def exponentText (e : Int) : List Char :=
  let digits := Decimal.digits e.natAbs
  'e' :: (if e < 0 then '-' else '+') :: (if digits.length < 2 then '0' :: digits else digits)

/-- Positional from `0.0001` up to sixteen places before the point, else with an exponent. -/
def layout (digits : List Char) (point : Int) : List Char :=
  if -4 < point && point ≤ 16 then
    if point ≤ 0 then '0' :: '.' :: (List.replicate (-point).toNat '0' ++ digits)
    else
      let whole := digits.take point.toNat
      let rest := digits.drop point.toNat
      whole ++ List.replicate (point.toNat - whole.length) '0' ++ '.' ::
        (if rest.isEmpty then ['0'] else rest)
  else
    let rest := digits.drop 1
    digits.take 1 ++ (if rest.isEmpty then [] else '.' :: rest) ++ exponentText (point - 1)

def ofBinary64 : Binary64 → List Char
  | .finite negative m e =>
    let body := if m = 0 then ['0', '.', '0'] else
      let (digits, point) := normal (ofFinite m e)
      layout digits point
    if negative then '-' :: body else body
  | .infinite negative => if negative then ['-', 'i', 'n', 'f'] else ['i', 'n', 'f']
  | .nan => ['n', 'a', 'n']

end Shortest
end LineAssembly
