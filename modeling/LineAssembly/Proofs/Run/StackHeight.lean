import LineAssembly.Proofs.Run.Outcome

/-! The height of the stack. Each step raises or lowers it by what its tokens say, whatever the
values are, so that the height alone tells where a stack is too low. A run that stops for no value
ends at the height, and with the fault, that the steps of its script give to the height. -/
namespace LineAssembly

/-- A value stops a run as a divisor that is zero or as a number that is too long. -/
def Fault.isOfValue : Fault → Bool
  | .halt h => h.kind = .divisionByZero
  | .nesting => false
  | .digits _ => true

/-- How high the stack is in the end, and what fault there was. -/
structure Level where
  height : Nat
  fault : Option Fault := none
  deriving Repr, DecidableEq

def Effect.level (e : Effect) : Level := ⟨e.machine.stack.length, e.fault⟩

/-- An effect comes out at a level unless it faults for a value. -/
def Effect.Keeps (e : Effect) (level : Level) : Prop :=
  (∃ x, e.fault = some x ∧ x.isOfValue = true) ∨ e.level = level

namespace Statement

/-- What a statement makes of the height of the stack. -/
def level (line : Line) (s : Statement) (height : Nat) : Level :=
  match s.operation? with
  | some .push =>
    { height := if s.operands.head?.any (·.number?.isSome) then height + 1 else height }
  | some .pop => { height := height - 1 }
  | some (.arithmetic op) =>
    if height < 2 then ⟨height, some (.halt (.stackUnderflow op.name line.number))⟩
    else { height := height - 1 }
  | _ => { height }

variable {line : Line} {s : Statement} {m : Machine} {e : Effect}

theorem fault_level {height : Nat} {x : Fault} (h : (s.level line height).fault = some x) :
    ∃ op : Arithmetic, x = .halt (.stackUnderflow op.name line.number) ∧ height < 2 := by
  unfold level at h
  split at h
  · cases h
  · cases h
  · rename_i op _
    split at h
    · rename_i hlow
      cases h
      exact ⟨op, rfl, hlow⟩
    · cases h
  · cases h

theorem keeps_of_outcome (h : Outcome line s m e) (hpush : s.operation? ≠ some .push)
    (hpop : s.operation? ≠ some .pop) (harithmetic : ∀ o, s.operation? ≠ some (.arithmetic o)) :
    e.Keeps { height := m.stack.length } := by
  induction h with
  | idle | call | newline | report | setPort | setAccumulator | print | bind => exact .inr rfl
  | noComma _ _ ih => exact ih
  | push op => exact absurd op hpush
  | pop op => exact absurd op hpop
  | compute op | underflow op | zeroDivisor op => exact absurd op (harithmetic _)
  | moveFault | printFault => exact .inl ⟨_, rfl, rfl⟩

theorem keeps_runPush (op : s.operation? = some .push) :
    (runPush line s.operands m).effect.Keeps (s.level line m.stack.length) := by
  refine .inr ?_
  simp only [level, op]
  cases s.operands with
  | nil => rfl
  | cons t ts =>
    obtain ⟨kind, value, column⟩ := t
    cases kind <;> rfl

theorem keeps_runArithmetic {o : Arithmetic} (op : s.operation? = some (.arithmetic o)) :
    (runArithmetic line o m).Keeps (s.level line m.stack.length) := by
  simp only [level, op, runArithmetic_eq]
  match hstack : m.stack with
  | [] | [_] =>
    refine .inr ?_
    simp [Effect.level, Effect.halt, Effect.fail, Machine.countError, hstack]
  | a :: b :: below =>
    by_cases hzero : o = .divs ∧ b = 0
    · simp only [if_pos hzero]
      exact .inl ⟨_, rfl, rfl⟩
    · simp only [if_neg hzero]
      exact .inr rfl

theorem keeps_act (line : Line) (s : Statement) (m : Machine) :
    (s.act (fun _ => Effect.none) line m).Keeps (s.level line m.stack.length) := by
  have hstill := keeps_of_outcome (outcome_act line s m)
  cases op : s.operation? with
  | none => simpa [level, op] using hstill
  | some o =>
    cases o with
    | push =>
      rw [act_of_operation? op, runOperation, (operation?_eq_some.mp op).2]
      exact keeps_runPush op
    | pop =>
      rw [act_of_operation? op, runOperation, (operation?_eq_some.mp op).2]
      refine .inr ?_
      simp [level, op, Effect.level, Effect.none, Machine.pop]
    | arithmetic o =>
      rw [act_of_operation? op, runOperation, (operation?_eq_some.mp op).2]
      exact keeps_runArithmetic op
    | _ => simpa [level, op] using hstill

end Statement

namespace Step

/-- What a step makes of the height of the stack. -/
def level : Step → Nat → Level
  | .statement line s, height => s.level line height
  | .tooDeep _, height => ⟨height, some .nesting⟩
  | _, height => { height }

theorem keeps_run (step : Step) (m : Machine) : (step.run m).Keeps (step.level m.stack.length) := by
  cases step with
  | statement line s => exact Statement.keeps_act line s m
  | _ => exact .inr rfl

/-- What steps make of the height, one after the other. -/
def climb : List Step → Nat → Level
  | [], height => { height }
  | step :: steps, height =>
    match (step.level height).fault with
    | none => climb steps (step.level height).height
    | some _ => step.level height

theorem keeps_perform (steps : List Step) (m : Machine) :
    (perform steps m).Keeps (climb steps m.stack.length) := by
  induction steps generalizing m with
  | nil => exact .inr rfl
  | cons step steps ih =>
    have hperform : perform (step :: steps) m = (step.run m).andThen (perform steps) := rfl
    rw [hperform, climb]
    rcases keeps_run step m with ⟨x, hx, hvalue⟩ | hlevel
    · rw [Effect.andThen_of_fault hx]
      exact .inl ⟨x, hx, hvalue⟩
    · rw [← hlevel]
      cases hfault : (step.run m).fault with
      | some x =>
        rw [Effect.andThen_of_fault hfault]
        simp only [Effect.level, hfault]
        exact .inr (by simp [Effect.level, hfault])
      | none =>
        rw [Effect.andThen_of_fault_eq_none hfault]
        simp only [Effect.level, hfault]
        exact ih (step.run m).machine

theorem fault_climb {steps : List Step} {height : Nat} {x : Fault}
    (h : (climb steps height).fault = some x) :
    (∃ op line, x = .halt (.stackUnderflow op line)) ∨ x = .nesting := by
  induction steps generalizing height with
  | nil => cases h
  | cons step steps ih =>
    rw [climb] at h
    split at h
    · exact ih h
    · cases step with
      | statement line s =>
        obtain ⟨op, rfl, -⟩ := Statement.fault_level h
        exact .inl ⟨_, _, rfl⟩
      | tooDeep routine =>
        cases h
        exact .inr rfl
      | enter | leave | unknown => cases h

end Step

namespace Program

/-- A run that stops for no value ends where the height of its stack takes it. -/
theorem level_runRoutine {p : Program} {depth : Nat} {name : String} {m : Machine}
    (h : ∀ x, (p.runRoutine depth name m).fault = some x → x.isOfValue = false) :
    (p.runRoutine depth name m).level = Step.climb (p.script depth name) m.stack.length := by
  rw [runRoutine_eq_perform] at h ⊢
  obtain ⟨x, hx, hvalue⟩ | hlevel := Step.keeps_perform (p.script depth name) m
  · rw [h x hx] at hvalue
    cases hvalue
  · exact hlevel

/-- Of two runs of a routine on stacks of the same height, whatever the values, either one stops for
a value or both end alike: they return, they are stopped by the same operation on the same line for
a stack that is too low, or they nest calls too deep. Then their stacks are again of the same
height. -/
theorem runRoutine_of_equal_heights (p : Program) (depth : Nat) (name : String) {m n : Machine}
    (hheight : m.stack.length = n.stack.length)
    (hm : ∀ x, (p.runRoutine depth name m).fault = some x → x.isOfValue = false)
    (hn : ∀ x, (p.runRoutine depth name n).fault = some x → x.isOfValue = false) :
    (p.runRoutine depth name m).fault = (p.runRoutine depth name n).fault ∧
      (∀ x, (p.runRoutine depth name m).fault = some x →
        (∃ op line, x = .halt (.stackUnderflow op line)) ∨ x = .nesting) ∧
      (p.runRoutine depth name m).machine.stack.length =
        (p.runRoutine depth name n).machine.stack.length := by
  have hlevel := level_runRoutine hm
  have hsame : (p.runRoutine depth name m).level = (p.runRoutine depth name n).level := by
    rw [hlevel, level_runRoutine hn, hheight]
  refine ⟨congrArg Level.fault hsame, ?_, congrArg Level.height hsame⟩
  intro x hx
  have hclimb : (Step.climb (p.script depth name) m.stack.length).fault = some x := by
    rw [← hlevel]
    exact hx
  exact Step.fault_climb hclimb

/-- The machines hold other values, and the second `adds` stops them both. -/
theorem runRoutine_of_other_values :
    let line (number : Int) (op : String) (operands : List Token) : Line :=
      ⟨⟨.opcode, op, 0⟩ :: operands, op, number, none⟩
    let p : Program :=
      { routines :=
          [⟨"main", [],
              [line 2 "call" [⟨.routineName, "f", 5⟩], line 3 "adds" [], line 4 "adds" []]⟩,
            ⟨"f", [], [line 6 "muls" [], line 7 "push" [⟨.number 3, "3", 5⟩]]⟩] }
    let m : Machine := { stack := [1, 2] }
    let n : Machine := { stack := [-7, 0], ports := [9, 8, 7, 6, 5, 4, 3, 2] }
    (p.runRoutine callLimit "main" m).fault = some (.halt (.stackUnderflow "adds" 4)) ∧
      (p.runRoutine callLimit "main" m).machine.stack ≠
        (p.runRoutine callLimit "main" n).machine.stack ∧
      (p.runRoutine callLimit "main" m).fault = (p.runRoutine callLimit "main" n).fault ∧
      (p.runRoutine callLimit "main" m).machine.stack.length =
        (p.runRoutine callLimit "main" n).machine.stack.length := by
  intro line p m n
  have hm : (p.runRoutine callLimit "main" m).fault = some (.halt (.stackUnderflow "adds" 4)) := by
    decide +kernel
  have hn : (p.runRoutine callLimit "main" n).fault = some (.halt (.stackUnderflow "adds" 4)) := by
    decide +kernel
  have hheight : m.stack.length = n.stack.length := rfl
  obtain ⟨hfault, -, hend⟩ := runRoutine_of_equal_heights p callLimit "main" hheight
    (by simp [hm, Fault.isOfValue, Halt.stackUnderflow])
    (by simp [hn, Fault.isOfValue, Halt.stackUnderflow])
  exact ⟨hm, by decide +kernel, hfault, hend⟩

end Program
end LineAssembly
