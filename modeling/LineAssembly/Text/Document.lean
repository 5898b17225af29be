/-! Documents: bytes read as text. -/
namespace LineAssembly
namespace Text

/-- Carriage returns become line feeds, and one before a line feed is dropped. -/
def plainNewlines : List Char → List Char
  | [] => []
  | '\r' :: '\n' :: cs => '\n' :: plainNewlines cs
  | '\r' :: cs => '\n' :: plainNewlines cs
  | c :: cs => c :: plainNewlines cs

def withPlainNewlines (s : String) : String := String.ofList (plainNewlines s.toList)

def ofBytes? (bytes : ByteArray) : Option String := (String.fromUTF8? bytes).map withPlainNewlines

end Text
end LineAssembly
