import LineAssembly.Json.Lexeme

/-! Reading JSON text. Lexemes are put together by a machine with a stack of open arrays and
objects. Of two fields of one name the last counts. -/
namespace LineAssembly
namespace Json

/-- An open array with its items, last first, or an open object with its fields and the key whose
value comes next. -/
inductive Frame where
  | items (done : List Json)
  | fields (done : List (String × Json)) (key : String)
  deriving Repr, BEq

inductive Parse where
  | value (frames : List Frame)
  | firstItem (frames : List Frame)
  | after (frames : List Frame) (v : Json)
  | firstKey (frames : List Frame)
  | key (frames : List Frame) (done : List (String × Json))
  | colon (frames : List Frame) (done : List (String × Json)) (key : String)
  deriving Repr, BEq

namespace Parse

def valueStep (frames : List Frame) : Lexeme → Option Parse
  | .openArray => some (.firstItem frames)
  | .openObject => some (.firstKey frames)
  | .string s => some (.after frames (.string s))
  | .scalar v => some (.after frames v)
  | _ => none

def afterStep (v : Json) : List Frame → Lexeme → Option Parse
  | .items done :: frames, .comma => some (.value (.items (v :: done) :: frames))
  | .items done :: frames, .closeArray => some (.after frames (.array (v :: done).reverse))
  | .fields done k :: frames, .comma => some (.key frames (setField k v done))
  | .fields done k :: frames, .closeObject => some (.after frames (.object (setField k v done)))
  | _, _ => none

def step : Parse → Lexeme → Option Parse
  | .value frames, x => valueStep frames x
  | .firstItem frames, .closeArray => some (.after frames (.array []))
  | .firstItem frames, x => valueStep (.items [] :: frames) x
  | .after frames v, x => afterStep v frames x
  | .firstKey frames, .closeObject => some (.after frames (.object []))
  | .firstKey frames, .string k => some (.colon frames [] k)
  | .firstKey _, _ => none
  | .key frames done, .string k => some (.colon frames done k)
  | .key _ _, _ => none
  | .colon frames done k, .colon => some (.value (.fields done k :: frames))
  | .colon _ _ _, _ => none

def finish : Parse → Option Json
  | .after [] v => some v
  | _ => none

end Parse

def ofLexemes? (xs : List Lexeme) : Option Json :=
  (xs.foldlM Parse.step (.value [])).bind Parse.finish

def parse? (text : String) : Option Json := (Lexeme.scan .between text.toList).bind ofLexemes?

end Json
end LineAssembly
