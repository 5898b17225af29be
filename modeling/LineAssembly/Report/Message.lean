import LineAssembly.Report.Caret

/-! Messages: what the program tells its user, by category. -/
namespace LineAssembly

inductive Category where
  | error | info | lexer | cpu | usage
  deriving Repr, DecidableEq

def Category.tag : Category → String
  | .error => "[Error]: "
  | .info => "[Info]: "
  | .lexer => "[Lexer]: "
  | .cpu => "[Cpu]: "
  | .usage => "[Syntax]: "

/-- A plain message, or an error tied to a word of a source line. -/
inductive Message where
  | note (category : Category) (text : String)
  | caret (block : Caret)
  deriving Repr, DecidableEq

namespace Message

def error (text : String) : Message := .note .error text

def category : Message → Category
  | .note c _ => c
  | .caret _ => .error

def isError (m : Message) : Bool := m.category = .error

def body : Message → String
  | .note _ text => text
  | .caret block => block.plain

def text (m : Message) : String := m.category.tag ++ m.body

def console (m : Message) : String := Console.line m.text

def consoleAll (ms : List Message) : String := String.join (ms.map console)

end Message
end LineAssembly
