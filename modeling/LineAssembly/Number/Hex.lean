/-! Hexadecimal text, in lower case. -/
namespace LineAssembly
namespace Hex

def digits (n : Nat) : List Char := Nat.toDigits 16 n

def padded (width n : Nat) : List Char :=
  List.replicate (width - (digits n).length) '0' ++ digits n

/-- A signed integer with the mark `0x`. -/
def ofInt (n : Int) : List Char :=
  (if n < 0 then ['-'] else []) ++ '0' :: 'x' :: digits n.natAbs

def text (n : Int) : String := String.ofList (ofInt n)

def digit? (c : Char) : Option Nat :=
  if '0' ≤ c && c ≤ '9' then some (c.toNat - '0'.toNat)
  else if 'a' ≤ c && c ≤ 'f' then some (c.toNat - 'a'.toNat + 10)
  else if 'A' ≤ c && c ≤ 'F' then some (c.toNat - 'A'.toNat + 10)
  else none

def value? (cs : List Char) : Option Nat :=
  cs.foldlM (fun v c => (digit? c).map (16 * v + ·)) 0

end Hex
end LineAssembly
