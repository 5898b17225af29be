import LineAssembly.Command.Execute
import LineAssembly.Proofs.Report.Console
import LineAssembly.Proofs.Report.Ledger
import LineAssembly.Proofs.Run.Writable
import LineAssembly.Run.Session

/-! What a command reports. The text that it prints, the snapshot that it writes and the status that
it ends with all tell of the one machine that the run of its program leaves behind. -/
namespace LineAssembly

namespace Session

end Session

namespace Command

namespace Outcome

end Outcome

variable {options : Options} {directory : Directory} {m : Machine} {o : Outcome} {e : Effect}

end Command
end LineAssembly
