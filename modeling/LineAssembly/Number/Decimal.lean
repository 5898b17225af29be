/-! Decimal text of integers, and the limit on its length. -/
namespace LineAssembly
namespace Decimal

/-- No decimal text of more digits than this is read or written. -/
def limit : Nat := 4300

/-- A decimal text over the limit: one to be read, with its digits, or one to be written. -/
inductive TooLong where
  | reading (digits : Nat)
  | writing
  deriving Repr, DecidableEq

def isDigit (c : Char) : Bool := '0' ≤ c && c ≤ '9'

def isNumeral (cs : List Char) : Bool := !cs.isEmpty && cs.all isDigit

def digits (n : Nat) : List Char := Nat.toDigits 10 n

def value (cs : List Char) : Nat := cs.foldl (fun v c => 10 * v + (c.toNat - '0'.toNat)) 0

@[simp] theorem value_nil : value [] = 0 := rfl

theorem value_append_singleton (cs : List Char) (c : Char) :
    value (cs ++ [c]) = 10 * value cs + (c.toNat - '0'.toNat) := by
  simp [value, List.foldl_append]

def ofInt (n : Int) : List Char :=
  if n < 0 then '-' :: digits n.natAbs else digits n.natAbs

def text (n : Int) : String := String.ofList (ofInt n)

@[simp] theorem toList_text (n : Int) : (text n).toList = ofInt n := by simp [text]

/-- Whether the decimal text of an integer keeps the limit; the sign is not counted. -/
def fits (n : Int) : Bool := (digits n.natAbs).length ≤ limit

def write (n : Int) : Except TooLong String :=
  if fits n then .ok (text n) else .error .writing

def read (cs : List Char) : Except TooLong Nat :=
  if cs.length ≤ limit then .ok (value cs) else .error (.reading cs.length)

def TooLong.message : TooLong → String
  | .reading n =>
    "Exceeds the limit (" ++ text limit ++ " digits) for integer string conversion: value has " ++
      text n ++ " digits; use sys.set_int_max_str_digits() to increase the limit"
  | .writing =>
    "Exceeds the limit (" ++ text limit ++ " digits) for integer string conversion; " ++
      "use sys.set_int_max_str_digits() to increase the limit"

def listText (ns : List Int) : String := "[" ++ ", ".intercalate (ns.map text) ++ "]"

def writeList (ns : List Int) : Except TooLong String :=
  if ns.all fits then .ok (listText ns) else .error .writing

end Decimal
end LineAssembly
