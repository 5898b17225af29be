import LineAssembly.Number.Decimal
import LineAssembly.Source.Token
import LineAssembly.Source.Word

/-! Classification of the words of one line. A machine with a few modes reads the words from left
to right and yields items: tokens, the comment, and what went wrong. -/
namespace LineAssembly

inductive Word.Class where
  | opcode | call | bracket | fn | binding | quote | accumulator | stack | comma | newline
  | port | comment | label | numeral | other
  deriving Repr, DecidableEq

namespace Word

def opcodes : List String :=
  ["push", "pop", "mov", "add", "sub", "mul", "div", "adds", "subs", "muls", "divs",
   "djnz", "djnzs", "jmp", "setb", "end", "prnt"]

def brackets : List String := ["(", ")", "\x7b", "\x7d", "[", "]"]

/-- The first rule that applies decides. -/
def classOf (text : String) : Class :=
  if text ∈ opcodes then .opcode
  else if text = "call" then .call
  else if text ∈ brackets then .bracket
  else if text = "fn" then .fn
  else if text = "let" then .binding
  else if text = "\"" then .quote
  else if text = "A" then .accumulator
  else if text = "Stack" then .stack
  else if text = "," then .comma
  else if text = "nl" then .newline
  else if text.toList.head? = some 'P' then .port
  else if text.toList.head? = some ';' then .comment
  else if text.toList.getLast? = some ':' then .label
  else if Decimal.isNumeral text.toList then .numeral
  else .other

end Word

inductive Item where
  | token (t : Token)
  /-- A word before the first token that opens nothing. -/
  | dropped (w : Word)
  /-- `call` or `fn` without a name. -/
  | nameless
  | unterminated
  | comment (text : String)
  /-- A numeral over the digit limit; the line cannot be read. -/
  | overlong (excess : Decimal.TooLong)
  deriving Repr, DecidableEq

namespace Item

def token? : Item → Option Token
  | .token t => some t
  | _ => none

def comment? : Item → Option String
  | .comment text => some text
  | _ => none

def overlong? : Item → Option Decimal.TooLong
  | .overlong excess => some excess
  | _ => none

def isError : Item → Bool
  | .dropped _ | .nameless | .unterminated => true
  | _ => false

end Item

/-- In a string literal a backslash followed by `n` stands for a line feed. -/
def unescapeNewlines : List Char → List Char
  | [] => []
  | '\\' :: 'n' :: cs => '\n' :: unescapeNewlines cs
  | c :: cs => c :: unescapeNewlines cs

/-- The value of a string literal: its words, one blank apart. -/
def literalValue (parts : List String) : String :=
  String.ofList (unescapeNewlines (" ".intercalate parts).toList)

/-- The text of a comment: its words, one blank apart, without the mark and outer blanks. -/
def commentText (parts : List String) : String :=
  String.ofList (Text.strip ((" ".intercalate parts).toList.drop 1))

inductive Mode where
  /-- Between statements; `started` when the line has a token. -/
  | plain (started : Bool)
  | afterCall
  | afterFn
  | afterLet
  | inString (column : Nat) (parts : List String)
  | inComment (parts : List String)
  deriving Repr, DecidableEq

namespace Mode

def tokenOf (kind : Token.Kind) (w : Word) : Item := .token ⟨kind, w.text, w.column⟩

def plainStep (number : Int) (started : Bool) (w : Word) : List Item × Mode :=
  match Word.classOf w.text with
  | .opcode => ([tokenOf .opcode w], .plain true)
  | .call => ([tokenOf .opcode w], .afterCall)
  | .bracket => ([tokenOf .bracket w], .plain true)
  | .fn => ([tokenOf .keyword w], .afterFn)
  | .binding => ([tokenOf .keyword w], .afterLet)
  | .quote => ([], .inString w.column [])
  | .accumulator => ([tokenOf .accumulator w], .plain true)
  | .stack => ([tokenOf .stack w], .plain true)
  | .comma => ([tokenOf .comma w], .plain true)
  | .newline => ([tokenOf .newline w], .plain true)
  | .port => ([tokenOf .port w], .plain true)
  | .comment => ([], .inComment [w.text])
  | .label =>
    ([tokenOf (.label ⟨.string (String.ofList w.text.toList.dropLast), number⟩) w], .plain true)
  | .numeral =>
    match Decimal.read w.text.toList with
    | .ok n => ([tokenOf (.number n) w], .plain true)
    | .error excess => ([.overlong excess], .plain started)
  | .other =>
    if started then ([tokenOf .generic w], .plain true) else ([.dropped w], .plain false)

def step (number : Int) : Mode → Word → List Item × Mode
  | .plain started, w => plainStep number started w
  | .afterCall, w => ([tokenOf .routineName w], .plain true)
  | .afterFn, w =>
    if w.text = "\x7b" then (.nameless :: (plainStep number true w).1, (plainStep number true w).2)
    else ([tokenOf .routineName w], .plain true)
  | .afterLet, w => ([tokenOf .variableName w], .plain true)
  | .inString column parts, w =>
    if w.text = "\"" then ([.token ⟨.string, literalValue parts, column⟩], .plain true)
    else ([], .inString column (parts ++ [w.text]))
  | .inComment parts, w => ([], .inComment (parts ++ [w.text]))

def finish : Mode → List Item
  | .plain _ | .afterLet => []
  | .afterCall | .afterFn => [.nameless]
  | .inString column parts => [.unterminated, .token ⟨.string, literalValue parts, column⟩]
  | .inComment parts => [.comment (commentText parts)]

end Mode

/-- The items of the words of line `number`, read from `mode` on. -/
def classify (number : Int) (mode : Mode) : List Word → List Item
  | [] => mode.finish
  | w :: ws => (mode.step number w).1 ++ classify number (mode.step number w).2 ws

def Item.ofLine (number : Int) (raw : String) : List Item :=
  classify number (.plain false) (Word.scan raw)

end LineAssembly
