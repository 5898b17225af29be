import LineAssembly.Number.Binary64

/-! JSON values. Integers are unbounded and kept apart from other numbers, and an object keeps its
fields in order. -/
namespace LineAssembly

inductive Json where
  | null
  | bool (b : Bool)
  | int (n : Int)
  | real (x : Binary64)
  | string (s : String)
  | array (items : List Json)
  | object (fields : List (String × Json))
  deriving Repr, Inhabited

namespace Json

mutual

def same : Json → Json → Bool
  | .null, .null => true
  | .bool a, .bool b => a = b
  | .int m, .int n => m = n
  | .real x, .real y => x = y
  | .string s, .string t => s = t
  | .array vs, .array ws => sameItems vs ws
  | .object fs, .object gs => sameFields fs gs
  | _, _ => false

def sameItems : List Json → List Json → Bool
  | [], [] => true
  | v :: vs, w :: ws => same v w && sameItems vs ws
  | _, _ => false

def sameFields : List (String × Json) → List (String × Json) → Bool
  | [], [] => true
  | (k, v) :: fs, (l, w) :: gs => k = l && same v w && sameFields fs gs
  | _, _ => false

end

mutual

theorem same_iff (v w : Json) : same v w = true ↔ v = w := by
  cases v <;> cases w <;> simp [same, sameItems_iff, sameFields_iff]

theorem sameItems_iff (vs ws : List Json) : sameItems vs ws = true ↔ vs = ws := by
  cases vs <;> cases ws <;> simp [sameItems, same_iff, sameItems_iff]

theorem sameFields_iff (fs gs : List (String × Json)) : sameFields fs gs = true ↔ fs = gs := by
  cases fs <;> cases gs <;> simp [sameFields, same_iff, sameFields_iff, Prod.ext_iff]

end

instance : DecidableEq Json := fun v w => decidable_of_iff _ (same_iff v w)

/-- Sets a field: a new one comes last, a known one keeps its place. -/
def setField (key : String) (value : Json) : List (String × Json) → List (String × Json)
  | [] => [(key, value)]
  | (k, v) :: fields =>
    if k = key then (k, value) :: fields else (k, v) :: setField key value fields

def field? (key : String) (fields : List (String × Json)) : Option Json :=
  (fields.find? fun f => f.1 = key).map Prod.snd

end Json
end LineAssembly
