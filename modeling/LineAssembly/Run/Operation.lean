import LineAssembly.Source.Token

/-! Operations: what the opcodes stand for. -/
namespace LineAssembly

inductive Arithmetic where
  | adds | subs | muls | divs
  deriving Repr, DecidableEq

namespace Arithmetic

def name : Arithmetic → String
  | .adds => "adds"
  | .subs => "subs"
  | .muls => "muls"
  | .divs => "divs"

/-- The absolute values are divided, and the signs decide the sign of the quotient. -/
def quotient (a b : Int) : Int :=
  let q : Int := (a.natAbs / b.natAbs : Nat)
  if a < 0 ↔ b < 0 then q else -q

/-- The value on top of the stack is the left operand. -/
def apply : Arithmetic → Int → Int → Int
  | .adds, a, b => a + b
  | .subs, a, b => a - b
  | .muls, a, b => a * b
  | .divs, a, b => quotient a b

end Arithmetic

/-- Jumps and some other opcodes are known and do nothing. -/
inductive Operation where
  | push | pop | mov
  | arithmetic (op : Arithmetic)
  | print | call | idle
  deriving Repr, DecidableEq

def Operation.ofOpcode (op : String) : Operation :=
  if op = "push" then .push
  else if op = "pop" then .pop
  else if op = "mov" then .mov
  else if op = "adds" then .arithmetic .adds
  else if op = "subs" then .arithmetic .subs
  else if op = "muls" then .arithmetic .muls
  else if op = "divs" then .arithmetic .divs
  else if op = "prnt" then .print
  else if op = "call" then .call
  else .idle

end LineAssembly
