import LineAssembly.Json.Basic
import LineAssembly.Number.Shortest
import LineAssembly.Text.Quoted

/-! JSON values as text for people. -/
namespace LineAssembly
namespace Json

mutual

def shown : Json → List Char
  | .null => "None".toList
  | .bool b => if b then "True".toList else "False".toList
  | .int n => Decimal.ofInt n
  | .real x => Shortest.ofBinary64 x
  | .string s => Text.quoteChars s.toList
  | .array [] => ['[', ']']
  | .array (v :: vs) => '[' :: (shown v ++ shownItems vs ++ [']'])
  | .object [] => ['{', '}']
  | .object ((k, v) :: fields) =>
    '{' :: (Text.quoteChars k.toList ++ ':' :: ' ' :: shown v ++ shownFields fields ++ ['}'])

def shownItems : List Json → List Char
  | [] => []
  | v :: vs => ',' :: ' ' :: (shown v ++ shownItems vs)

def shownFields : List (String × Json) → List Char
  | [] => []
  | (k, v) :: fields =>
    ',' :: ' ' :: (Text.quoteChars k.toList ++ ':' :: ' ' :: shown v ++ shownFields fields)

end

def quotedText (v : Json) : String := String.ofList (shown v)

/-- A value as text; a string is the text itself. -/
def plainText : Json → String
  | .string s => s
  | v => quotedText v

end Json
end LineAssembly
