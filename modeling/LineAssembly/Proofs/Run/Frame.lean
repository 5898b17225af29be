import LineAssembly.Proofs.Report.Ledger
import LineAssembly.Proofs.Run.Watching

/-! What a statement leaves alone. A statement that calls no routine changes one part of the machine
or writes, and does neither if it reports a problem, unless it is a move or a binding. -/
namespace LineAssembly
namespace Statement

/-- The one change that a statement may make to a machine, apart from its error count, or the text
that it may write, where it ends with a fault or none. A change of the stack is one at its top, and
a new variable is the newest. -/
inductive Change (s : Statement) (m : Machine) (fault : Option Fault) : Machine → String → Prop where
  | nothing (may : s.idles = true ∨ s.reports = true) : Change s m fault m ""
  | stopped (stops : fault ≠ none) : Change s m fault m ""
  | push {n : Int} (op : s.operation? = some .push)
      (operand : ∃ t, s.operands.head? = some t ∧ t.kind = .number n) :
      Change s m fault (m.push n) ""
  | pop (op : s.operation? = some .pop) : Change s m fault m.pop ""
  | compute {o : Arithmetic} {a b : Int} {below : List Int}
      (op : s.operation? = some (.arithmetic o)) (stack : m.stack = a :: b :: below) :
      Change s m fault { m with stack := o.apply a b :: below } ""
  | setPort {dest : Token} {i : Nat} (op : s.operation? = some .mov)
      (operand : s.operands.head? = some dest) (kind : dest.kind = .port)
      (index : m.portIndex dest.value = .ok (some i)) (n : Int) :
      Change s m fault (m.setPort i n) ""
  | setAccumulator {dest : Token} (op : s.operation? = some .mov)
      (operand : s.operands.head? = some dest) (kind : dest.kind = .accumulator) (n : Int) :
      Change s m fault (m.setAccumulator n) ""
  | define {v : Variable} (bound : s.bound? = some v) : Change s m fault (m.define v) ""
  | print (op : s.operation? = some .print) (text : String) : Change s m fault m text
  | newline (kind : s.head.kind = .newline) : Change s m fault m "\n"

variable {line : Line} {s : Statement} {m n : Machine} {e : Effect} {fault : Option Fault}
  {text : String}

theorem Change.withErrorCount (h : s.Change m fault n text) (count : Int) :
    s.Change { m with errorCount := count } fault { n with errorCount := count } text := by
  cases h with
  | nothing may => exact .nothing may
  | stopped stops => exact .stopped stops
  | push op operand => exact .push op operand
  | pop op => exact .pop op
  | compute op stack => exact .compute (m := { m with errorCount := count }) op stack
  | setPort op operand kind index k =>
    exact .setPort (m := { m with errorCount := count }) op operand kind index k
  | setAccumulator op operand kind k => exact .setAccumulator op operand kind k
  | define bound => exact .define bound
  | print op text => exact .print op text
  | newline kind => exact .newline kind

theorem Change.labels_eq (h : s.Change m fault n text) : n.labels = m.labels := by
  cases h <;> rfl

theorem portIndex_of_fetchPort {t : Token} {i : Nat} (h : fetchPort m line t = .value i) :
    m.portIndex t.value = .ok (some i) := by
  unfold fetchPort at h
  split at h
  · cases h
  · cases h
  · rename_i hindex
    cases h
    exact hindex

theorem reports_of_callee? {name : String} (h : s.callee? = some name) : s.reports = true := by
  obtain ⟨hkind, hop⟩ := operation?_eq_some.mp (callee?_eq_some.mp h).1
  simp [reports, hkind, hop, Operation.operandCount]

theorem Outcome.change (h : Outcome line s m e) :
    s.Change m e.fault { e.machine with errorCount := m.errorCount } e.output := by
  induction h with
  | idle idles => exact .nothing (.inl idles)
  | call callee => exact .nothing (.inr (reports_of_callee? callee))
  | newline kind => exact .newline kind
  | report p reports => exact .nothing (.inr reports)
  | @noComma m e _ rest ih =>
    have hchange : s.Change m e.fault { e.machine with errorCount := m.errorCount } e.output :=
      ih.withErrorCount m.errorCount
    rw [Effect.andThen_of_fault_eq_none rfl]
    simpa [Effect.report] using hchange
  | push op operands number => exact .push op ⟨_, by rw [operands]; rfl, number⟩
  | pop op => exact .pop op
  | compute op stack => exact .compute op stack
  | underflow | zeroDivisor | moveFault | printFault => exact .stopped (Option.some_ne_none _)
  | setPort op operands kind index =>
    exact .setPort op (by rw [operands]; rfl) kind (portIndex_of_fetchPort index) _
  | setAccumulator op operands kind =>
    exact .setAccumulator op (by rw [operands]; rfl) kind _
  | print op => exact .print op _
  | bind bound => exact .define bound

/-- Arithmetic that returns has put the result in the place of the two values on top. -/
theorem Outcome.computes (h : Outcome line s m e) {o : Arithmetic}
    (op : s.operation? = some (.arithmetic o)) (hreturns : e.fault = none) :
    ∃ a b below, m.stack = a :: b :: below ∧
      e = .none { m with stack := o.apply a b :: below } := by
  have hother {op' : Operation} (h : s.operation? = some op') : Operation.arithmetic o = op' :=
    Option.some.inj (op.symm.trans h)
  obtain ⟨hkind, hop⟩ := operation?_eq_some.mp op
  cases h with
  | compute op' stack =>
    cases hother op'
    exact ⟨_, _, _, stack, rfl⟩
  | idle idles => simp [Statement.idles, hkind, hop] at idles
  | call callee => cases hother (callee?_eq_some.mp callee).1
  | newline kind => rw [hkind] at kind; cases kind
  | report p reports => simp [Statement.reports, hkind, hop, Operation.operandCount] at reports
  | noComma takes =>
    rcases takes with hmov | hbinding
    · cases hother hmov
    · rw [hbinding.1] at hkind; cases hkind
  | push op' | pop op' | setPort op' | setAccumulator op' | print op' => cases hother op'
  | underflow | zeroDivisor | moveFault | printFault => cases hreturns
  | bind bound => rw [bound?_of_operation? op] at bound; cases bound

/-- However a run got to a statement that calls no routine, wherever on its line that stands and at
whatever level, the statement changes one part of the machine or writes, and leaves all other parts
as they were. Arithmetic that returns puts one value in the place of two. The labels always stay,
what was written before is only added to, and no error is taken back. If the statement is no move
and no binding, returns and has counted an error, then it has done nothing else. -/
theorem dispatch_changes_one_part (level : Nat) (call : Caller) (line : Line) (head : Token)
    (tokens : List Token) (before : Effect) (hs : (first head tokens).callee? = none)
    (hbefore : before.fault = none) :
    let s := first head tokens
    let after := before.andThen fun m => (dispatch level call line head tokens m).effect
    (∃ text, s.Change before.machine after.fault
        { after.machine with errorCount := before.machine.errorCount } text ∧
      after.output = before.output ++ text) ∧
    (∀ o, s.operation? = some (.arithmetic o) → after.fault = none →
      ∃ a b below, before.machine.stack = a :: b :: below ∧
        after.machine = { before.machine with stack := o.apply a b :: below }) ∧
    after.machine.labels = before.machine.labels ∧
    before.machine.errorCount ≤ after.machine.errorCount ∧
    (s.operation? ≠ some .mov → ¬s.IsBinding → after.fault = none →
      before.machine.errorCount < after.machine.errorCount →
      after.machine = { before.machine with errorCount := after.machine.errorCount } ∧
        after.output = before.output) := by
  intro s after
  let e := s.act (fun _ => Effect.none) line before.machine
  have houtcome : Outcome line s before.machine e := outcome_act line s before.machine
  have hrun : (first head tokens).run call line before.machine = e.traced (s.opening line) :=
    run_of_callee?_eq_none hs call line before.machine
  obtain ⟨ts, hdispatch⟩ := exists_trace_dispatch level call line head tokens before.machine
  have hafter := Effect.andThen_of_fault_eq_none hbefore
    fun m => (dispatch level call line head tokens m).effect
  simp only [hdispatch, hrun] at hafter
  have hmachine : after.machine = e.machine := (congrArg Effect.machine hafter).trans rfl
  have houtput : after.output = before.output ++ e.output :=
    (congrArg Effect.output hafter).trans rfl
  have hfault : after.fault = e.fault := (congrArg Effect.fault hafter).trans rfl
  have hchange := houtcome.change
  have hbalanced : e.machine.errorCount = before.machine.errorCount + e.problems.length +
      if e.halted then 1 else 0 := houtcome.balanced
  rw [hmachine, houtput, hfault]
  refine ⟨⟨e.output, hchange, rfl⟩, ?_, hchange.labels_eq, ?_, ?_⟩
  · intro o op hreturns
    obtain ⟨a, b, below, hstack, he⟩ := houtcome.computes op hreturns
    exact ⟨a, b, below, hstack, congrArg Effect.machine he⟩
  · rw [hbalanced]
    split <;> omega
  · intro hmov hbinding hreturns hcount
    have hhalted : e.halted = false := by simp [Effect.halted, hreturns]
    have hproblems : e.problems ≠ [] := by
      intro hnone
      simp [hbalanced, hnone, hhalted] at hcount
    obtain ⟨p, hp⟩ := houtcome.reportsAlone hmov hbinding hproblems
    rw [hp]
    exact ⟨rfl, by simp [Effect.report]⟩

/-- A move without its comma counts an error and still sets the port that it names, and no other
part of the machine. Printing an unknown name counts an error and does nothing else. Subtraction
takes the value on top as its left operand. -/
theorem dispatch_changes_one_part_of_faulty :
    let line : Line := ⟨[], "mov P1 = 7 prnt y subs", 2, none⟩
    let subtraction : Token := ⟨.opcode, "subs", 18⟩
    let print : Token := ⟨.opcode, "prnt", 11⟩
    let move : Token := ⟨.opcode, "mov", 0⟩
    let behindPrint : List Token := [⟨.generic, "y", 16⟩, subtraction]
    let behindMove : List Token :=
      ⟨.port, "P1", 4⟩ :: ⟨.generic, "=", 7⟩ :: ⟨.number 7, "7", 9⟩ :: print :: behindPrint
    let before : Effect := { machine := { stack := [3, 5], accumulator := 2 }, output := "a" }
    let after (head : Token) (tokens : List Token) :=
      before.andThen fun m => (dispatch 1 (fun _ => Effect.none) line head tokens m).effect
    let moved := after move behindMove
    let printed := after print behindPrint
    (∃ text, (first move behindMove).Change before.machine moved.fault
        { moved.machine with errorCount := 0 } text ∧ moved.output = "a" ++ text) ∧
    moved.machine.ports = [0, 7, 0, 0, 0, 0, 0, 0] ∧ moved.machine.errorCount = 1 ∧
    printed.machine = { before.machine with errorCount := 1 } ∧ printed.output = "a" ∧
    (∃ a b below, before.machine.stack = a :: b :: below ∧
      (after subtraction []).machine = { before.machine with stack := (a - b) :: below }) ∧
    (after subtraction []).machine.stack = [-2] := by
  intro line subtraction print move behindPrint behindMove before after moved printed
  have hmoved := dispatch_changes_one_part 1 (fun _ => Effect.none) line move behindMove before
    (by decide) rfl
  have hprinted := dispatch_changes_one_part 1 (fun _ => Effect.none) line print behindPrint before
    (by decide) rfl
  have hsubtracted := dispatch_changes_one_part 1 (fun _ => Effect.none) line subtraction [] before
    (by decide) rfl
  obtain ⟨hmachine, houtput⟩ :=
    hprinted.2.2.2.2 (by decide) (by decide) (by decide) (by decide)
  exact ⟨hmoved.1, by decide +kernel, by decide +kernel, hmachine, houtput,
    hsubtracted.2.1 .subs (by decide) (by decide), by decide +kernel⟩

end Statement
end LineAssembly
