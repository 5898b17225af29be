import LineAssembly.Proofs.Run.Failure
import LineAssembly.Proofs.Run.Watching
import Mathlib.Data.List.DropRight

/-! The scope of variables. The table of variables holds what was bound since a routine last
returned, whichever routine that was, and printing a name finds the latest binding of it there. -/
namespace LineAssembly

/-- The text that is printed for a variable. -/
def Variable.printed : Variable → Except Decimal.TooLong String
  | .string _ value => .ok value
  | .number _ value => Decimal.write value

/-- Tokens that a print looks up among the variables. -/
def Token.isName (t : Token) : Bool :=
  match t.kind with
  | .string | .number _ | .accumulator | .stack | .port => false
  | _ => true

namespace Statement

variable {line : Line} {s : Statement} {m : Machine} {v : Variable}

theorem vars_runAlone (line : Line) (s : Statement) (m : Machine) :
    (s.runAlone line m).machine.vars = s.bound?.toList ++ m.vars :=
  (outcome_act line s m).binds.1

theorem fetchText_of_isName {t : Token} (ht : t.isName = true) :
    fetchText m line t =
      match m.lookup (.string t.value) with
      | some v => Fetch.ofWriting v.printed
      | none => .problem (.unknownValue t.value line t.column) := by
  unfold fetchText
  cases hkind : t.kind with
  | string | accumulator | stack | port => simp [Token.isName, hkind] at ht
  | number n => simp [Token.isName, hkind] at ht
  | _ =>
    cases m.lookup (.string t.value) with
    | none => rfl
    | some v => cases v <;> rfl

end Statement

namespace Step

def bound? : Step → Option Variable
  | .statement _ s => s.bound?
  | _ => none

end Step

namespace Program

end Program
end LineAssembly
