import LineAssembly.Proofs.Run.Failure

/-! Fatal stops. A statement that halts a run counts one error and changes nothing else, and the run
is over with it however deep it stands: no caller goes on, and none leaves its routine. -/
namespace LineAssembly
namespace Statement

variable {line : Line} {s : Statement} {m : Machine} {h : Halt}

theorem runAlone_of_arithmetic {o : Arithmetic} (op : s.operation? = some (.arithmetic o))
    (line : Line) (m : Machine) :
    s.runAlone line m = (runArithmetic line o m).traced (s.opening line) := by
  rw [runAlone, run, act_of_operation? op, runOperation, (operation?_eq_some.mp op).2]

theorem runArithmetic_of_length_lt (hstack : m.stack.length < 2) (line : Line) (o : Arithmetic) :
    runArithmetic line o m = .halt m (.stackUnderflow o.name line.number) := by
  match hm : m.stack with
  | [] | [_] => simp only [runArithmetic_eq, hm]
  | _ :: _ :: _ =>
    rw [hm, List.length_cons, List.length_cons] at hstack
    omega

theorem runArithmetic_of_zero {a : Int} {below : List Int} (hstack : m.stack = a :: 0 :: below)
    (line : Line) : runArithmetic line .divs m = .halt m (.divisionByZero line.number) := by
  simp [runArithmetic_eq, hstack]

/-- A statement that halts is an arithmetic one. It leaves the machine as it was, but for the error
that it counts. -/
theorem Stops.runAlone_eq (hs : s.Stops line m (.halt h)) :
    (∃ o, s.operation? = some (.arithmetic o)) ∧ h.line = some line.number ∧
      s.runAlone line m = (Effect.halt m h).traced (s.opening line) := by
  cases hs with
  | underflow op stack =>
    rw [runAlone_of_arithmetic op, runArithmetic_of_length_lt stack]
    exact ⟨⟨_, op⟩, rfl, rfl⟩
  | zeroDivisor op stack =>
    rw [runAlone_of_arithmetic op, runArithmetic_of_zero stack]
    exact ⟨⟨_, op⟩, rfl, rfl⟩

end Statement

namespace Program

variable {p : Program} {limit : Nat} {entry : String} {h : Halt}

/-- A run ends in a fatal condition at a statement on a line that it comes to with the machine `m`,
after it has performed `before`. -/
structure HaltsAt (p : Program) (limit : Nat) (entry : String) (h : Halt) (before : List Step)
    (line : Line) (s : Statement) (m : Machine) : Prop where
  dispatches : p.Dispatches limit entry before line s m
  holds : ∃ r ∈ p.routines, line ∈ r.lines ∧ s ∈ Statement.split line.tokens
  arithmetic : ∃ o, s.operation? = some (.arithmetic o)
  stops : s.Stops line m (.halt h)
  number : h.line = some line.number
  /-- All that the run leaves: what it had left before, the machine with one error more, and of the
  statement no event but that it was dispatched. -/
  effect : p.runWithin limit entry =
    { machine := m.countError
      output := (Step.perform before p.freshMachine).output
      problems := (Step.perform before p.freshMachine).problems
      trace := (Step.perform before p.freshMachine).trace ++ s.opening line
      fault := some (.halt h) }

/-- But for the depth of calls, a run that halts ends just as its entry does. -/
theorem runWithin_eq_runRoutine (hfault : (p.runWithin limit entry).fault = some (.halt h))
    (hkind : h.kind ≠ .callDepth) :
    p.runWithin limit entry = p.runRoutine limit entry p.freshMachine := by
  apply closeRun_of_fault_ne
  intro hnesting
  rw [runWithin, fault_closeRun_of_nesting hnesting] at hfault
  cases hfault
  exact hkind rfl

theorem exists_haltsAt (hfault : (p.runWithin limit entry).fault = some (.halt h))
    (hkind : h.kind ≠ .callDepth) : ∃ before line s m, p.HaltsAt limit entry h before line s m := by
  have hrun := runWithin_eq_runRoutine hfault hkind
  rw [hrun, runRoutine_eq_perform] at hfault
  obtain ⟨before, step, m, hreach, hstep, heq⟩ := Step.exists_perform_of_fault hfault
  cases step with
  | statement line s =>
    have hstops : s.Stops line m (.halt h) := Statement.stops_of_fault hstep
    obtain ⟨harithmetic, hline, hhalt⟩ := hstops.runAlone_eq
    refine ⟨before, line, s, m, hreach, mem_routines_of_mem_script hreach.mem, harithmetic, hstops,
      hline, ?_⟩
    rw [hrun, runRoutine_eq_perform, heq, Effect.andThen_of_fault_eq_none hreach.fault, Step.run,
      hhalt]
    simp [Effect.halt, Effect.fail, Effect.traced]
  | enter routine lines => cases hstep
  | leave routine => cases hstep
  | unknown routine => cases hstep
  | tooDeep routine => cases hstep

/-- A run that ends for a short stack or a division by zero ends at an arithmetic statement that it
comes to. What it leaves is what was there just before the statement, with one error more, and the
fatal condition names the line of the statement. -/
theorem halt_is_atomic (hfault : (p.runWithin limit entry).fault = some (.halt h))
    (hkind : h.kind = .stackUnderflow ∨ h.kind = .divisionByZero) :
    ∃ before line s m, p.HaltsAt limit entry h before line s m ∧
      (p.runWithin limit entry).machine = { m with errorCount := m.errorCount + 1 } ∧
      (p.runWithin limit entry).output = (Step.perform before p.freshMachine).output ∧
      h.line = some line.number := by
  have hdepth : h.kind ≠ .callDepth := by
    rcases hkind with hkind | hkind <;> simp [hkind]
  obtain ⟨before, line, s, m, hhalts⟩ := exists_haltsAt hfault hdepth
  refine ⟨before, line, s, m, hhalts, ?_, ?_, hhalts.number⟩
  · rw [hhalts.effect]
    rfl
  · rw [hhalts.effect]

/-- The division stands in a routine that was called. Its operands are still on the stack, in their
order, and the variable of the caller is still bound, though a routine that returns leaves none. -/
theorem halt_in_called_routine :
    let line (number : Int) (tokens : List Token) : Line := ⟨tokens, "", number, none⟩
    let binding := line 2
      [⟨.keyword, "let", 0⟩, ⟨.variableName, "x", 4⟩, ⟨.comma, ",", 6⟩, ⟨.number 1, "1", 8⟩]
    let pushes := line 3
      [⟨.opcode, "push", 0⟩, ⟨.number 0, "0", 5⟩, ⟨.opcode, "push", 7⟩, ⟨.number 7, "7", 12⟩]
    let call := line 4 [⟨.opcode, "call", 0⟩, ⟨.routineName, "f", 5⟩]
    let divide := line 6 [⟨.opcode, "prnt", 0⟩, ⟨.generic, "x", 5⟩, ⟨.opcode, "divs", 7⟩]
    let p : Program :=
      { routines := [⟨"main", [], [binding, pushes, call]⟩, ⟨"f", [], [divide]⟩] }
    let e := p.runWithin 2 "main"
    e.fault = some (.halt (.divisionByZero 6)) ∧ e.machine.stack = [7, 0] ∧ e.output = "1" ∧
      ∃ before line s m, p.HaltsAt 2 "main" (.divisionByZero 6) before line s m ∧
        m.vars = [.number (.string "x") 1] ∧
        e.machine = { m with errorCount := m.errorCount + 1 } := by
  intro line binding pushes call divide p e
  have hfault : e.fault = some (.halt (.divisionByZero 6)) := by decide +kernel
  have hvars : e.machine.vars = [.number (.string "x") 1] := by decide +kernel
  obtain ⟨before, l, s, m, hhalts, hmachine, -, -⟩ := halt_is_atomic hfault (Or.inr rfl)
  refine ⟨hfault, by decide +kernel, by decide +kernel, before, l, s, m, hhalts, ?_, hmachine⟩
  rw [hmachine] at hvars
  exact hvars

end Program
end LineAssembly
