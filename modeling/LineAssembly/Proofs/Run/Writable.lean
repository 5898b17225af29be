import LineAssembly.Machine.Table
import LineAssembly.Proofs.Machine.Snapshot
import LineAssembly.Proofs.Run.PortCount
import LineAssembly.Proofs.Run.Scope
import LineAssembly.Proofs.Source.Grammar

/-! Machines that runs leave behind. All names are texts and no port is missing, so that nothing but
the length of a number can keep such a machine from being written. -/
namespace LineAssembly

def Variable.number? : Variable → Option Int
  | .string _ _ => none
  | .number _ n => some n

namespace Machine

variable {m : Machine}

end Machine

namespace Statement

variable {line : Line} {s : Statement} {m : Machine}

end Statement

namespace Program

end Program
end LineAssembly
