import LineAssembly.Proofs.Run.Watching
import LineAssembly.Run.Session

/-! The number of ports. No statement adds or removes a port, a run begins with eight of them, and a
snapshot is restored only if it has eight. So a machine has eight ports at every point of a session,
and what names a port is the same for all machines of sessions. -/
namespace LineAssembly

theorem exists_of_bind_eq_ok {ε α β : Type} {x : Except ε α} {f : α → Except ε β} {b : β}
    (h : (x >>= f) = .ok b) : ∃ a, x = .ok a ∧ f a = .ok b := by
  cases x with
  | error e => cases h
  | ok a => exact ⟨a, rfl, h⟩

theorem length_of_mapM_eq_ok {ε α β : Type} {f : α → Except ε β} {xs : List α} {ys : List β}
    (h : xs.mapM f = .ok ys) : ys.length = xs.length := by
  induction xs generalizing ys with
  | nil =>
    cases h
    rfl
  | cons x xs ih =>
    rw [List.mapM_cons] at h
    obtain ⟨y, -, h⟩ := exists_of_bind_eq_ok h
    obtain ⟨zs, hzs, h⟩ := exists_of_bind_eq_ok h
    cases h
    rw [List.length_cons, List.length_cons, ih hzs]

namespace Statement

theorem Outcome.length_ports {line : Line} {s : Statement} {m : Machine} {e : Effect}
    (h : Outcome line s m e) : e.machine.ports.length = m.ports.length := by
  induction h with
  | noComma _ _ ih => exact ih
  | setPort => exact Machine.length_ports_setPort _ _ _
  | _ => rfl

theorem length_ports_runAlone (line : Line) (s : Statement) (m : Machine) :
    (s.runAlone line m).machine.ports.length = m.ports.length :=
  (outcome_act line s m).length_ports

def Caller.KeepsPorts (call : Caller) : Prop :=
  ∀ name m, (call name m).machine.ports.length = m.ports.length

theorem length_ports_run {call : Caller} (hcall : call.KeepsPorts) (line : Line) (s : Statement)
    (m : Machine) : (s.run call line m).machine.ports.length = m.ports.length := by
  cases hcallee : s.callee? with
  | none =>
    rw [run_of_callee?_eq_none hcallee]
    exact length_ports_runAlone line s m
  | some name =>
    rw [run_of_callee?_eq_some hcallee]
    exact hcall name m

end Statement

theorem length_ports_runLines {call : Statement.Caller} (hcall : call.KeepsPorts) (ls : List Line)
    (m : Machine) : (runLines Trace.top call ls m).machine.ports.length = m.ports.length := by
  rw [runLines_eq_runBody, runBody]
  refine Effect.machine_sequence (P := fun n => n.ports.length = m.ports.length) rfl ?_
  intro x _ n hn
  exact (Statement.length_ports_run hcall x.1 x.2 n).trans hn

theorem Step.length_ports_run (step : Step) (m : Machine) :
    (step.run m).machine.ports.length = m.ports.length := by
  cases step with
  | statement line s => exact Statement.length_ports_runAlone line s m
  | _ => rfl

namespace Program

theorem keepsPorts_runRoutine (p : Program) (depth : Nat) :
    Statement.Caller.KeepsPorts (p.runRoutine depth) := by
  intro name m
  rw [runRoutine_eq_perform, Step.perform]
  refine Effect.machine_sequence (P := fun n => n.ports.length = m.ports.length) rfl ?_
  intro step _ n hn
  exact (step.length_ports_run n).trans hn

theorem length_ports_runAt (p : Program) (level : Nat) (entry : String) :
    (p.runAt level entry).machine.ports.length = portCount := by
  have hroutine := p.keepsPorts_runRoutine callLimit entry p.freshMachine
  rw [runAt_eq_watched, run_eq_runWithin, runWithin, closeRun]
  split
  · exact hroutine
  · exact hroutine

end Program

namespace Json

theorem length_of_readPorts {fields : List (String × Json)} {ports : List Int}
    (h : readPorts fields = .ok ports) : ports.length = portCount := by
  unfold readPorts at h
  split at h
  · cases h
    exact List.length_replicate
  · cases h
    exact List.length_replicate
  · obtain ⟨items, -, h⟩ := exists_of_bind_eq_ok h
    split at h
    · rename_i hlength
      exact (length_of_mapM_eq_ok h).trans hlength
    · cases h

theorem length_ports_of_toMachine {snapshot : Json} {m : Machine}
    (h : snapshot.toMachine = .ok m) : m.ports.length = portCount := by
  unfold toMachine at h
  split at h
  · obtain ⟨stack, -, h⟩ := exists_of_bind_eq_ok h
    obtain ⟨accumulator, -, h⟩ := exists_of_bind_eq_ok h
    obtain ⟨vars, -, h⟩ := exists_of_bind_eq_ok h
    obtain ⟨labels, -, h⟩ := exists_of_bind_eq_ok h
    obtain ⟨errorCount, -, h⟩ := exists_of_bind_eq_ok h
    obtain ⟨ports, hports, h⟩ := exists_of_bind_eq_ok h
    cases h
    exact length_of_readPorts hports
  · cases h

end Json

namespace Session

/-- The session after some commands, whether or not they succeeded. -/
def after (s : Session) (commands : List Command) : Session :=
  commands.foldl (fun s command => (s.step command).1) s

theorem machine_load (s : Session) (source : String) (tilde : Bool) :
    (s.load source tilde).1.machine = s.machine := by
  unfold load
  simp only
  split
  · rfl
  · rfl

theorem length_ports_runGiven (s : Session) (lines : List Line) :
    (s.runGiven lines).1.machine.ports.length = s.machine.ports.length := by
  rw [runGiven, s.program.runLines_eq_watched]
  exact length_ports_runLines (s.program.keepsPorts_runRoutine callLimit) lines s.machine

theorem length_ports_step {s : Session} (h : s.machine.ports.length = portCount)
    (command : Command) : (s.step command).1.machine.ports.length = portCount := by
  cases command with
  | load source tilde => rw [step, machine_load, h]
  | run entry => exact s.program.length_ports_runAt s.level entry
  | runRoutine name =>
    have hroutine := s.program.keepsPorts_runRoutine callLimit name s.machine
    rw [step, s.program.runRoutineAt_eq_watched]
    exact hroutine.trans h
  | runLines which =>
    simp only [step]
    split
    · rename_i lines _
      exact (s.length_ports_runGiven lines).trans h
    · exact h
  | runGiven lines => exact (s.length_ports_runGiven lines).trans h
  | restore snapshot =>
    simp only [step]
    split
    · rename_i m hm
      exact Json.length_ports_of_toMachine hm
    · exact h
  | runApart | write | clearVariables | remark | table | dump => exact h

theorem length_ports_after {s : Session} (h : s.machine.ports.length = portCount)
    (commands : List Command) : (s.after commands).machine.ports.length = portCount := by
  induction commands generalizing s with
  | nil => exact h
  | cons command commands ih => exact ih (length_ports_step h command)

end Session

/-- A reference names a port if a numeral within the digit limit follows its first character, and
its value is below the number of ports. -/
theorem Machine.portIndex_eq_some {m : Machine} {reference : String} {i : Nat} :
    m.portIndex reference = .ok (some i) ↔
      Decimal.isNumeral (reference.toList.drop 1) = true ∧
        (reference.toList.drop 1).length ≤ Decimal.limit ∧
        Decimal.value (reference.toList.drop 1) = i ∧ i < m.ports.length := by
  unfold portIndex
  generalize reference.toList.drop 1 = digits
  by_cases hnumeral : Decimal.isNumeral digits = true
  · by_cases hlength : digits.length ≤ Decimal.limit
    · simp only [hnumeral, Decimal.read, hlength, Bool.not_true, Bool.false_eq_true, if_false,
        if_true, Except.ok.injEq, Option.ite_none_right_eq_some, Option.some.injEq, true_and]
      constructor
      · rintro ⟨hlt, rfl⟩
        exact ⟨rfl, hlt⟩
      · rintro ⟨rfl, hlt⟩
        exact ⟨hlt, rfl⟩
    · simp [hnumeral, Decimal.read, hlength]
  · simp [hnumeral]

/-- At every point of a session the machine has eight ports. So an index that a reference resolves
to is that of a port, and a reference resolves to an index just if a numeral within the digit limit
follows its first character and the value of the numeral, which is the index, is below eight. It is
refused for the digit limit just if the numeral is longer than that. -/
theorem Session.eight_ports (level : Nat) (commands : List Session.Command) :
    let m := (Session.after { level := level } commands).machine
    m.ports.length = 8 ∧ ∀ reference : String,
      let digits := reference.toList.drop 1
      (∀ i, m.portIndex reference = .ok (some i) → i < m.ports.length) ∧
      (∀ i, m.portIndex reference = .ok (some i) ↔
        Decimal.isNumeral digits = true ∧ digits.length ≤ Decimal.limit ∧
          Decimal.value digits = i ∧ i < 8) ∧
      ∀ excess, m.portIndex reference = .error excess ↔
        Decimal.isNumeral digits = true ∧ Decimal.limit < digits.length ∧
          excess = .reading digits.length := by
  intro m
  have hports : m.ports.length = 8 := Session.length_ports_after rfl commands
  refine ⟨hports, fun reference => ⟨fun i => Machine.portIndex_lt, fun i => ?_, fun excess => ?_⟩⟩
  · rw [Machine.portIndex_eq_some, hports]
  · exact Machine.portIndex_eq_error

end LineAssembly
