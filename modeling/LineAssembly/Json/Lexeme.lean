import LineAssembly.Json.Basic
import LineAssembly.Number.Decimal
import LineAssembly.Number.Hex

/-! Lexemes of JSON text, read character by character by a machine with a few modes. -/
namespace LineAssembly
namespace Json

inductive Lexeme where
  | openArray | closeArray | openObject | closeObject | comma | colon
  | string (s : String)
  /-- A value without parts that is no string. -/
  | scalar (v : Json)
  deriving Repr, BEq

def readExponent (cs : List Char) : Option Int :=
  let (negative, digits) := match cs with
    | '-' :: ds => (true, ds)
    | '+' :: ds => (false, ds)
    | ds => (false, ds)
  if Decimal.isNumeral digits then
    some (if negative then -(Decimal.value digits : Int) else Decimal.value digits)
  else none

def readExponentPart : List Char → Option Int
  | [] => some 0
  | c :: cs => if c = 'e' || c = 'E' then readExponent cs else none

/-- A number with a fraction or an exponent, `rest` being what follows the whole part. -/
def readReal (negative : Bool) (whole rest : List Char) : Option Json :=
  match rest with
  | '.' :: cs =>
    let fraction := cs.takeWhile Decimal.isDigit
    if fraction.isEmpty then none
    else (readExponentPart (cs.dropWhile Decimal.isDigit)).map fun e =>
      .real (Binary64.ofDecimal negative (Decimal.value (whole ++ fraction)) (e - fraction.length))
  | cs =>
    (readExponentPart cs).map fun e => .real (Binary64.ofDecimal negative (Decimal.value whole) e)

/-- A number without its sign. A zero stands in front only alone. -/
def readUnsigned (negative : Bool) (cs : List Char) : Option Json :=
  let whole := cs.takeWhile Decimal.isDigit
  let rest := cs.dropWhile Decimal.isDigit
  if whole.isEmpty || (whole.head? = some '0' && 1 < whole.length) then none
  else if rest.isEmpty then
    some (.int (if negative then -(Decimal.value whole : Int) else Decimal.value whole))
  else readReal negative whole rest

def readNumber : List Char → Option Json
  | '-' :: cs => readUnsigned true cs
  | cs => readUnsigned false cs

def readScalar (cs : List Char) : Option Json :=
  if cs = "null".toList then some .null
  else if cs = "true".toList then some (.bool true)
  else if cs = "false".toList then some (.bool false)
  else if cs = "NaN".toList then some (.real .nan)
  else if cs = "Infinity".toList then some (.real (.infinite false))
  else if cs = "-Infinity".toList then some (.real (.infinite true))
  else readNumber cs

namespace Lexeme

/-- Where the reading stands. The characters of an open string or word are kept last first. -/
inductive Mode where
  | between
  | word (run : List Char)
  | text (run : List Char)
  | escape (run : List Char)
  /-- After `\u`, with the digits so far. -/
  | code (run digits : List Char)
  /-- After the first half of a surrogate pair. -/
  | half (run : List Char) (unit : Nat)
  | halfEscape (run : List Char) (unit : Nat)
  | halfCode (run : List Char) (unit : Nat) (digits : List Char)
  deriving Repr, DecidableEq

def isSpace (c : Char) : Bool := c = ' ' || c = '\t' || c = '\n' || c = '\r'

def mark? (c : Char) : Option Lexeme :=
  if c = '[' then some .openArray
  else if c = ']' then some .closeArray
  else if c = '{' then some .openObject
  else if c = '}' then some .closeObject
  else if c = ',' then some .comma
  else if c = ':' then some .colon
  else none

def betweenStep (c : Char) : List Lexeme × Mode :=
  if isSpace c then ([], .between)
  else if c = '"' then ([], .text [])
  else match mark? c with
    | some m => ([m], .between)
    | none => ([], .word [c])

def endsWord (c : Char) : Bool := isSpace c || c = '"' || (mark? c).isSome

def escaped? (c : Char) : Option Char :=
  if c = '"' || c = '\\' || c = '/' then some c
  else if c = 'n' then some '\n'
  else if c = 'r' then some '\r'
  else if c = 't' then some '\t'
  else if c = 'f' then some (Char.ofNat 0x0C)
  else if c = 'b' then some (Char.ofNat 0x08)
  else none

/-- What four hexadecimal digits stand for: a character, or half of a pair. -/
def codeStep (run : List Char) (digits : List Char) : Option Mode :=
  (Hex.value? digits).bind fun n =>
    if n.isValidChar then some (.text (Char.ofNat n :: run))
    else if n < 0xDC00 then some (.half run n)
    else none

def pairStep (run : List Char) (unit : Nat) (digits : List Char) : Option Mode :=
  (Hex.value? digits).bind fun n =>
    if 0xDC00 ≤ n && n ≤ 0xDFFF then
      some (.text (Char.ofNat (0x10000 + (unit - 0xD800) * 0x400 + (n - 0xDC00)) :: run))
    else none

def step : Mode → Char → Option (List Lexeme × Mode)
  | .between, c => some (betweenStep c)
  | .word run, c =>
    if endsWord c then
      (readScalar run.reverse).map fun v => (.scalar v :: (betweenStep c).1, (betweenStep c).2)
    else some ([], .word (c :: run))
  | .text run, c =>
    if c = '"' then some ([.string (String.ofList run.reverse)], .between)
    else if c = '\\' then some ([], .escape run)
    else if c.toNat < 0x20 then none
    else some ([], .text (c :: run))
  | .escape run, c =>
    if c = 'u' then some ([], .code run []) else (escaped? c).map fun d => ([], .text (d :: run))
  | .code run digits, c =>
    if digits.length < 3 then some ([], .code run (digits ++ [c]))
    else (codeStep run (digits ++ [c])).map fun m => ([], m)
  | .half run unit, c => if c = '\\' then some ([], .halfEscape run unit) else none
  | .halfEscape run unit, c => if c = 'u' then some ([], .halfCode run unit []) else none
  | .halfCode run unit digits, c =>
    if digits.length < 3 then some ([], .halfCode run unit (digits ++ [c]))
    else (pairStep run unit (digits ++ [c])).map fun m => ([], m)

def finish : Mode → Option (List Lexeme)
  | .between => some []
  | .word run => (readScalar run.reverse).map fun v => [.scalar v]
  | _ => none

def scan (mode : Mode) : List Char → Option (List Lexeme)
  | [] => finish mode
  | c :: cs =>
    match step mode c with
    | none => none
    | some (found, mode') => (scan mode' cs).map (found ++ ·)

end Lexeme
end Json
end LineAssembly
