import LineAssembly.Json.Basic
import LineAssembly.Text.Quoted

/-! Tokens and the lines that carry them. -/
namespace LineAssembly

/-- A place in the program that a jump may name, with the line it stands on. In a program the name
is a text, in a restored machine it may be any value. -/
structure Label where
  name : Json
  line : Int
  deriving Repr, DecidableEq

/-- What a token is. A number carries its value and a label its place. -/
inductive Token.Kind where
  | opcode | accumulator | port | stack
  | label (place : Label)
  | routineName | variableName | bracket | keyword | string
  | number (value : Int)
  | comment | comma | newline | generic
  deriving Repr, DecidableEq

def Token.Kind.name : Token.Kind → String
  | .opcode => "OpCode"
  | .accumulator => "Accumulator"
  | .port => "Port"
  | .stack => "Stack"
  | .label _ => "JumpLocation"
  | .routineName => "FunctionName"
  | .variableName => "VarName"
  | .bracket => "Bracket"
  | .keyword => "Keyword"
  | .string => "String"
  | .number _ => "Number"
  | .comment => "Comment"
  | .comma => "Comma"
  | .newline => "NewLine"
  | .generic => "Generic"

structure Token where
  kind : Token.Kind
  value : String
  column : Nat
  deriving Repr, DecidableEq

namespace Token

def shown (t : Token) : String :=
  "Token(" ++ t.kind.name ++ ", " ++ Text.quoted t.value ++ ")"

def label? (t : Token) : Option Label :=
  match t.kind with
  | .label place => some place
  | _ => none

def number? (t : Token) : Option Int :=
  match t.kind with
  | .number n => some n
  | _ => none

@[simp] theorem label?_eq_some {t : Token} {l : Label} : t.label? = some l ↔ t.kind = .label l := by
  unfold label?
  cases t.kind <;> simp

@[simp] theorem number?_eq_some {t : Token} {n : Int} :
    t.number? = some n ↔ t.kind = .number n := by
  unfold number?
  cases t.kind <;> simp

end Token

structure Line where
  tokens : List Token
  source : String
  number : Int
  comment : Option String := none
  deriving Repr, DecidableEq

namespace Line

def values (l : Line) : List String := l.tokens.map Token.value

def startsRoutine (l : Line) : Bool := l.tokens.head?.any fun t => t.value = "fn"

def labels (l : Line) : List Label := l.tokens.filterMap Token.label?

end Line
end LineAssembly
