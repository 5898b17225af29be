/-! A page that shows the text of the console. -/
namespace LineAssembly
namespace Page

def escapeChar (c : Char) : List Char :=
  if c = '&' then "&amp;".toList
  else if c = '<' then "&lt;".toList
  else if c = '>' then "&gt;".toList
  else if c = '"' then "&quot;".toList
  else if c = '\'' then "&#x27;".toList
  else [c]

def escape (s : String) : String := String.ofList (s.toList.flatMap escapeChar)

def render (console : String) : String :=
  "<!DOCTYPE html>\n<html>\n<head>\n<meta charset=\"UTF-8\">\n</head>\n<body>\n" ++
  "<pre><code>" ++ escape console ++ "</code></pre>\n</body>\n</html>\n"

end Page
end LineAssembly
