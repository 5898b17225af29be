import LineAssembly.Json.Basic
import LineAssembly.Number.Hex
import LineAssembly.Number.Shortest

/-! JSON text. Characters beyond ASCII stand for themselves. -/
namespace LineAssembly
namespace Json

def escapeChar (c : Char) : List Char :=
  if c = '"' then ['\\', '"']
  else if c = '\\' then ['\\', '\\']
  else if c = '\n' then ['\\', 'n']
  else if c = '\r' then ['\\', 'r']
  else if c = '\t' then ['\\', 't']
  else if c.toNat = 0x0C then ['\\', 'f']
  else if c.toNat = 0x08 then ['\\', 'b']
  else if c.toNat < 0x20 then '\\' :: 'u' :: Hex.padded 4 c.toNat
  else [c]

def quoteString (s : String) : List Char := '"' :: (s.toList.flatMap escapeChar ++ ['"'])

/-- One line without an indent; with one, each item on a line of its own, that many blanks deeper
for each level. -/
structure Layout where
  indent : Option Nat
  deriving Repr, DecidableEq

namespace Layout

def oneLine : Layout := ⟨none⟩

/-- A negative indent is none at all, but lines are still broken. -/
def ofIndent (indent : Option Int) : Layout := ⟨indent.map Int.toNat⟩

def newline (l : Layout) (depth : Nat) : List Char :=
  match l.indent with
  | none => []
  | some n => '\n' :: List.replicate (n * depth) ' '

def separator (l : Layout) (depth : Nat) : List Char :=
  match l.indent with
  | none => [',', ' ']
  | some _ => ',' :: l.newline depth

end Layout

def renderReal : Binary64 → List Char
  | .finite negative m e => Shortest.ofBinary64 (.finite negative m e)
  | .infinite negative => if negative then "-Infinity".toList else "Infinity".toList
  | .nan => "NaN".toList

mutual

/-- The text of a value whose items stand at `depth + 1`. -/
def renderAt (l : Layout) (depth : Nat) : Json → List Char
  | .null => "null".toList
  | .bool b => if b then "true".toList else "false".toList
  | .int n => Decimal.ofInt n
  | .real x => renderReal x
  | .string s => quoteString s
  | .array [] => ['[', ']']
  | .array (v :: vs) =>
    '[' :: (l.newline (depth + 1) ++ renderAt l (depth + 1) v ++ renderItems l (depth + 1) vs ++
      l.newline depth ++ [']'])
  | .object [] => ['{', '}']
  | .object ((k, v) :: fields) =>
    '{' :: (l.newline (depth + 1) ++ quoteString k ++ ':' :: ' ' :: renderAt l (depth + 1) v ++
      renderFields l (depth + 1) fields ++ l.newline depth ++ ['}'])

def renderItems (l : Layout) (depth : Nat) : List Json → List Char
  | [] => []
  | v :: vs => l.separator depth ++ renderAt l depth v ++ renderItems l depth vs

def renderFields (l : Layout) (depth : Nat) : List (String × Json) → List Char
  | [] => []
  | (k, v) :: fields =>
    l.separator depth ++ quoteString k ++ ':' :: ' ' :: renderAt l depth v ++
      renderFields l depth fields

end

def render (l : Layout) (v : Json) : String := String.ofList (renderAt l 0 v)

mutual

def fits : Json → Bool
  | .int n => Decimal.fits n
  | .array vs => fitsItems vs
  | .object fields => fitsFields fields
  | _ => true

def fitsItems : List Json → Bool
  | [] => true
  | v :: vs => fits v && fitsItems vs

def fitsFields : List (String × Json) → Bool
  | [] => true
  | (_, v) :: fields => fits v && fitsFields fields

end

def write (l : Layout) (v : Json) : Except Decimal.TooLong String :=
  if fits v then .ok (render l v) else .error .writing

end Json
end LineAssembly
