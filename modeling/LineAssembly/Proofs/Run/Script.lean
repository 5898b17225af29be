import LineAssembly.Proofs.Run.Congruence
import Mathlib.Data.List.Induction

/-! Runs as scripts. Which statements a run goes through is fixed by the program, so that nested
calls unfold into one list of steps. A run performs the steps of its script in order, up to the
first that faults. -/
namespace LineAssembly
namespace Effect

theorem andThen_none (e : Effect) : e.andThen none = e := by
  cases h : e.fault with
  | some f => exact andThen_of_fault h none
  | none =>
    rw [andThen_of_fault_eq_none h]
    obtain ⟨machine, output, problems, trace, fault⟩ := e
    cases h
    simp [none]

theorem traced_andThen (ts : List Trace) (e : Effect) (next : Machine → Effect) :
    (e.traced ts).andThen next = (e.andThen next).traced ts := by
  cases h : e.fault with
  | some f => rw [andThen_of_fault h, andThen_of_fault (e := e.traced ts) h]
  | none =>
    rw [andThen_of_fault_eq_none h, andThen_of_fault_eq_none (e := e.traced ts) h]
    simp [traced]

theorem andThen_assoc (e : Effect) (f g : Machine → Effect) :
    (e.andThen f).andThen g = e.andThen fun m => (f m).andThen g := by
  cases he : e.fault with
  | some x => rw [andThen_of_fault he, andThen_of_fault he, andThen_of_fault he]
  | none =>
    rw [andThen_of_fault_eq_none he, andThen_of_fault_eq_none he]
    cases hf : (f e.machine).fault with
    | some x => rw [andThen_of_fault hf, andThen_of_fault rfl, hf]
    | none =>
      rw [andThen_of_fault_eq_none hf, andThen_of_fault_eq_none rfl]
      simp [String.append_assoc]

theorem fault_andThen_eq_none {e : Effect} {next : Machine → Effect} :
    (e.andThen next).fault = Option.none ↔
      e.fault = Option.none ∧ (next e.machine).fault = Option.none := by
  cases h : e.fault with
  | some f => simp [andThen_of_fault h, h]
  | none => simp [andThen_of_fault_eq_none h]

variable {α β : Type}

/-- Does one thing after the other, up to the first fault. -/
def sequence (f : α → Machine → Effect) : List α → Machine → Effect
  | [], m => none m
  | x :: xs, m => (f x m).andThen (sequence f xs)

theorem sequence_append (f : α → Machine → Effect) (xs ys : List α) (m : Machine) :
    sequence f (xs ++ ys) m = (sequence f xs m).andThen (sequence f ys) := by
  induction xs generalizing m with
  | nil => rw [List.nil_append, sequence, none_andThen]
  | cons x xs ih =>
    rw [List.cons_append, sequence, sequence, andThen_assoc]
    congr 1
    funext n
    exact ih n

theorem sequence_singleton (f : α → Machine → Effect) (x : α) (m : Machine) :
    sequence f [x] m = f x m :=
  andThen_none (f x m)

theorem sequence_flatMap (f : β → Machine → Effect) (g : α → List β) (xs : List α) (m : Machine) :
    sequence f (xs.flatMap g) m = sequence (fun x => sequence f (g x)) xs m := by
  induction xs generalizing m with
  | nil => rfl
  | cons x xs ih =>
    rw [List.flatMap_cons, sequence_append, sequence]
    congr 1
    funext n
    exact ih n

theorem sequence_map (f : β → Machine → Effect) (g : α → β) (xs : List α) (m : Machine) :
    sequence f (xs.map g) m = sequence (fun x => f (g x)) xs m := by
  induction xs generalizing m with
  | nil => rfl
  | cons x xs ih =>
    rw [List.map_cons, sequence, sequence]
    congr 1
    funext n
    exact ih n

theorem machine_sequence {P : Machine → Prop} {f : α → Machine → Effect} {xs : List α} {m : Machine}
    (start : P m) (next : ∀ x ∈ xs, ∀ n, P n → P (f x n).machine) :
    P (sequence f xs m).machine := by
  induction xs generalizing m with
  | nil => exact start
  | cons x xs ih =>
    have hx : P (f x m).machine := next x (by simp) m start
    rw [sequence]
    cases h : (f x m).fault with
    | some y => rwa [andThen_of_fault h]
    | none =>
      rw [andThen_of_fault_eq_none h]
      exact ih hx fun y hy => next y (by simp [hy])

theorem exists_of_mem_sequence {f : α → Machine → Effect} {xs : List α} {m : Machine}
    (h : (sequence f xs m).fault = Option.none) {x : α} (hx : x ∈ xs) :
    ∃ n, (f x n).fault = Option.none := by
  obtain ⟨before, after, rfl⟩ := List.append_of_mem hx
  rw [sequence_append, fault_andThen_eq_none, sequence, fault_andThen_eq_none] at h
  exact ⟨_, h.2.1⟩

/-- A fault of a sequence is that of one of its elements, where all before it returned; nothing
behind it is done. -/
theorem exists_of_fault_sequence {f : α → Machine → Effect} {xs : List α} {m : Machine} {x : Fault}
    (h : (sequence f xs m).fault = some x) :
    ∃ before a after, xs = before ++ a :: after ∧ (sequence f before m).fault = Option.none ∧
      (f a (sequence f before m).machine).fault = some x ∧
      sequence f xs m = sequence f (before ++ [a]) m := by
  induction xs generalizing m with
  | nil => cases h
  | cons a xs ih =>
    cases ha : (f a m).fault with
    | some y =>
      have hstop : sequence f (a :: xs) m = f a m := andThen_of_fault ha _
      refine ⟨[], a, xs, rfl, rfl, ?_, ?_⟩
      · exact hstop ▸ h
      · rw [List.nil_append, sequence_singleton, hstop]
    | none =>
      have hrest : (sequence f xs (f a m).machine).fault = some x := by
        rw [sequence, andThen_of_fault_eq_none ha] at h
        exact h
      obtain ⟨before, b, after, rfl, hbefore, hb, heq⟩ := ih hrest
      have hmachine : (sequence f (a :: before) m).machine =
          (sequence f before (f a m).machine).machine := by
        rw [sequence, andThen_of_fault_eq_none ha]
      refine ⟨a :: before, b, after, rfl, ?_, ?_, ?_⟩
      · exact fault_andThen_eq_none.mpr ⟨ha, hbefore⟩
      · rw [hmachine, hb]
      · simp only [List.cons_append, sequence, andThen_of_fault_eq_none ha] at heq ⊢
        rw [heq]

end Effect

namespace Statement

def operation? (s : Statement) : Option Operation :=
  if s.head.kind = .opcode then some (.ofOpcode s.head.value) else none

theorem operation?_eq_some {s : Statement} {op : Operation} :
    s.operation? = some op ↔ s.head.kind = .opcode ∧ Operation.ofOpcode s.head.value = op := by
  simp [operation?]

theorem act_of_operation? {s : Statement} {op : Operation} (h : s.operation? = some op)
    (call : Caller) (line : Line) (m : Machine) :
    s.act call line m = (runOperation call line s.head s.operands m).effect := by
  simp [act, (operation?_eq_some.mp h).1]

/-- The routine that a statement calls. -/
def callee? (s : Statement) : Option String :=
  if s.operation? = some .call then
    (s.operands.head?.filter fun t => t.kind = .routineName).map Token.value
  else none

theorem callee?_eq_some {s : Statement} {name : String} :
    s.callee? = some name ↔ s.operation? = some .call ∧
      ∃ t rest, s.operands = t :: rest ∧ t.kind = .routineName ∧ t.value = name := by
  unfold callee?
  split
  · rename_i hop
    cases s.operands with
    | nil => simp
    | cons t rest => simp [hop, Option.map_eq_some_iff, Option.filter_eq_some_iff, and_assoc]
  · rename_i hop
    simp [hop]

/-- A statement on its own: what it calls is left out. -/
def runAlone (line : Line) (s : Statement) (m : Machine) : Effect :=
  s.run (fun _ => Effect.none) line m

theorem act_of_callee?_eq_some {s : Statement} {name : String} (h : s.callee? = some name)
    (call : Caller) (line : Line) (m : Machine) : s.act call line m = call name m := by
  obtain ⟨hop, t, rest, hoperands, hkind, rfl⟩ := callee?_eq_some.mp h
  rw [act_of_operation? hop]
  simp [runOperation, (operation?_eq_some.mp hop).2, runCall, hoperands, hkind]

/-- Only a statement that calls a routine hangs on how routines are called. -/
theorem act_of_callee?_eq_none {s : Statement} (h : s.callee? = none) (call : Caller) (line : Line)
    (m : Machine) : s.act call line m = s.act (fun _ => Effect.none) line m := by
  cases hkind : s.head.kind with
  | opcode =>
    simp only [act, hkind, runOperation]
    cases hop : Operation.ofOpcode s.head.value with
    | call =>
      have hcall : s.operation? = some .call := operation?_eq_some.mpr ⟨hkind, hop⟩
      cases hoperands : s.operands with
      | nil => simp [runCall]
      | cons t rest =>
        have ht : t.kind ≠ .routineName := by
          intro ht
          rw [callee?_eq_some.mpr ⟨hcall, t, rest, hoperands, ht, rfl⟩] at h
          cases h
        simp [runCall, ht]
    | _ => rfl
  | _ => simp only [act, hkind]

theorem run_of_callee?_eq_some {s : Statement} {name : String} (h : s.callee? = some name)
    (call : Caller) (line : Line) (m : Machine) :
    s.run call line m = (call name m).traced (s.opening line) := by
  rw [run, act_of_callee?_eq_some h]

theorem run_of_callee?_eq_none {s : Statement} (h : s.callee? = none) (call : Caller) (line : Line)
    (m : Machine) : s.run call line m = s.runAlone line m := by
  rw [runAlone, run, run, act_of_callee?_eq_none h]

/-- A statement does what it does on its own, and then what it calls. -/
theorem run_eq_andThen (s : Statement) (call : Caller) (line : Line) (m : Machine) :
    s.run call line m = (s.runAlone line m).andThen (s.callee?.elim Effect.none call) := by
  cases h : s.callee? with
  | none => rw [run_of_callee?_eq_none h, Option.elim_none, Effect.andThen_none]
  | some name =>
    rw [run_of_callee?_eq_some h, runAlone, run_of_callee?_eq_some h, Effect.traced_andThen,
      Effect.none_andThen, Option.elim_some]

end Statement

def Line.statements (ls : List Line) : List (Line × Statement) :=
  ls.flatMap fun l => (Statement.split l.tokens).map (l, ·)

theorem Line.mem_statements {ls : List Line} {l : Line} {s : Statement} :
    (l, s) ∈ Line.statements ls ↔ l ∈ ls ∧ s ∈ Statement.split l.tokens := by
  simp only [Line.statements, List.mem_flatMap, List.mem_map, Prod.mk.injEq]
  constructor
  · rintro ⟨l', hl, s', hs, rfl, rfl⟩
    exact ⟨hl, hs⟩
  · rintro ⟨hl, hs⟩
    exact ⟨l, hl, s, hs, rfl, rfl⟩

def runBody (call : Statement.Caller) : List (Line × Statement) → Machine → Effect :=
  Effect.sequence fun x => x.2.run call x.1

theorem runStatements_eq_sequence (call : Statement.Caller) (line : Line) (ss : List Statement)
    (m : Machine) :
    runStatements call line ss m = Effect.sequence (fun s => s.run call line) ss m := by
  induction ss generalizing m with
  | nil => rfl
  | cons s ss ih =>
    rw [runStatements, Effect.sequence]
    congr 1
    funext n
    exact ih n

theorem runLines_eq_runBody (call : Statement.Caller) (ls : List Line) (m : Machine) :
    runLines Trace.top call ls m = runBody call (Line.statements ls) m := by
  rw [runBody, Line.statements, Effect.sequence_flatMap]
  induction ls generalizing m with
  | nil => rfl
  | cons l ls ih =>
    rw [runLines, runTokens_eq_runStatements, Effect.sequence, Effect.sequence_map,
      ← runStatements_eq_sequence]
    congr 1
    funext n
    exact ih n

/-- One thing that happens in a run. -/
inductive Step where
  | enter (routine : String) (lines : Nat)
  | statement (line : Line) (s : Statement)
  | leave (routine : String)
  /-- A routine that is called and not found. -/
  | unknown (routine : String)
  /-- A routine that is called where no more calls may be nested. -/
  | tooDeep (routine : String)
  deriving Repr, DecidableEq

namespace Step

def run : Step → Machine → Effect
  | .enter routine lines, m => (Effect.none m).traced [.enter routine lines]
  | .statement line s, m => s.runAlone line m
  | .leave routine, m => leaveRoutine Trace.top routine m
  | .unknown routine, m => .report m (.unknownRoutine routine)
  | .tooDeep _, m => .fail m .nesting

/-- Performs steps in order, up to the first that faults. -/
def perform : List Step → Machine → Effect := Effect.sequence run

/-- Performing the steps comes to `step` with the machine `n`, after it has performed `before`. -/
structure Reaches (steps : List Step) (m : Machine) (before : List Step) (step : Step)
    (n : Machine) : Prop where
  part : ∃ after, steps = before ++ step :: after
  fault : (perform before m).fault = none
  machine : (perform before m).machine = n

variable {steps before : List Step} {step : Step} {m n : Machine}

theorem Reaches.mem (h : Reaches steps m before step n) : step ∈ steps := by
  obtain ⟨after, rfl⟩ := h.part
  simp

theorem perform_append_singleton (h : (perform before m).fault = none) (step : Step) :
    (perform (before ++ [step]) m).fault = (step.run (perform before m).machine).fault ∧
      (perform (before ++ [step]) m).machine = (step.run (perform before m).machine).machine := by
  have heq : perform (before ++ [step]) m = (perform before m).andThen (perform [step]) :=
    Effect.sequence_append run before [step] m
  rw [heq, Effect.andThen_of_fault_eq_none h, perform, Effect.sequence_singleton]
  exact ⟨rfl, rfl⟩

/-- What holds at the start and is kept by each step that returns holds wherever a run comes to.
It may speak of the steps performed so far. -/
theorem Reaches.invariant {P : List Step → Machine → Prop} (start : P [] m)
    (next : ∀ before, ∀ step ∈ steps, ∀ n, P before n → (step.run n).fault = none →
      P (before ++ [step]) (step.run n).machine)
    (h : Reaches steps m before step n) : P before n := by
  obtain ⟨⟨after, rfl⟩, hfault, rfl⟩ := h
  generalize hrest : step :: after = rest at next
  clear hrest
  induction before using List.reverseRecOn generalizing rest with
  | nil => exact start
  | append_singleton before x ih =>
    have hbefore : (perform before m).fault = none := by
      rw [perform, Effect.sequence_append, Effect.fault_andThen_eq_none] at hfault
      exact hfault.1
    obtain ⟨hx, hmachine⟩ := perform_append_singleton hbefore x
    rw [hmachine]
    refine next before x (by simp) _ (ih hbefore (x :: rest) ?_) (hx ▸ hfault)
    simpa using next

theorem exists_perform_of_fault {x : Fault} (h : (perform steps m).fault = some x) :
    ∃ before step n, Reaches steps m before step n ∧ (step.run n).fault = some x ∧
      perform steps m = (perform before m).andThen fun _ => step.run n := by
  obtain ⟨before, step, after, rfl, hbefore, hstep, heq⟩ := Effect.exists_of_fault_sequence h
  refine ⟨before, step, _, ⟨⟨after, rfl⟩, hbefore, rfl⟩, hstep, ?_⟩
  rw [perform, heq, Effect.sequence_append, Effect.andThen_of_fault_eq_none hbefore,
    Effect.andThen_of_fault_eq_none hbefore, Effect.sequence_singleton]

theorem exists_reaches_of_fault {x : Fault} (h : (perform steps m).fault = some x) :
    ∃ before step n, Reaches steps m before step n ∧ (step.run n).fault = some x ∧
      (perform steps m).machine = (step.run n).machine := by
  obtain ⟨before, step, n, hreach, hstep, heq⟩ := exists_perform_of_fault h
  refine ⟨before, step, n, hreach, hstep, ?_⟩
  rw [heq, Effect.andThen_of_fault_eq_none hreach.fault]

end Step

namespace Program

/-- The steps of a run of a routine, calls unfolded up to a depth. -/
def script (p : Program) : Nat → String → List Step
  | 0, name =>
    match p.find? name with
    | none => [.unknown name]
    | some _ => [.tooDeep name]
  | depth + 1, name =>
    match p.find? name with
    | none => [.unknown name]
    | some r =>
      .enter name r.lines.length ::
        ((Line.statements r.lines).flatMap fun x =>
          .statement x.1 x.2 :: x.2.callee?.elim [] (script p depth)) ++
        [.leave name]

/-- A run of a routine performs its script. -/
theorem runRoutine_eq_perform (p : Program) (depth : Nat) (name : String) (m : Machine) :
    p.runRoutine depth name m = Step.perform (p.script depth name) m := by
  induction depth generalizing name m with
  | zero =>
    rw [runRoutine_zero, script]
    cases p.find? name with
    | none => exact (Effect.sequence_singleton Step.run (.unknown name) m).symm
    | some r => exact (Effect.sequence_singleton Step.run (.tooDeep name) m).symm
  | succ depth ih =>
    rw [runRoutine_succ, script]
    cases p.find? name with
    | none => exact (Effect.sequence_singleton Step.run (.unknown name) m).symm
    | some r =>
      have hbody : ∀ n, runLines Trace.top (p.runRoutine depth) r.lines n =
          Step.perform ((Line.statements r.lines).flatMap fun x =>
            .statement x.1 x.2 :: x.2.callee?.elim [] (p.script depth)) n := by
        intro n
        rw [runLines_eq_runBody, Step.perform, Effect.sequence_flatMap, runBody]
        congr 1
        funext x k
        rw [Statement.run_eq_andThen, Effect.sequence]
        congr 1
        cases x.2.callee? with
        | none => rfl
        | some callee => funext k; exact ih callee k
      have hleave : Effect.sequence Step.run [.leave name] = leaveRoutine Trace.top name := by
        funext n
        exact Effect.sequence_singleton Step.run (.leave name) n
      rw [Step.perform, Effect.sequence_append, Effect.sequence, Effect.andThen_assoc, Step.run,
        Effect.traced_andThen, Effect.none_andThen, hleave, ← Step.perform, ← hbody]

/-- The names that calls lead to from an entry, whether or not a run comes to these calls. -/
inductive Reachable (p : Program) (entry : String) : String → Prop where
  | entry : Reachable p entry entry
  | call {caller callee : String} {r : Routine} {line : Line} {s : Statement}
      (reachable : Reachable p entry caller) (find : p.find? caller = some r)
      (body : (line, s) ∈ Line.statements r.lines) (calls : s.callee? = some callee) :
      Reachable p entry callee

theorem exists_reachable_of_mem_script {p : Program} {entry : String} {depth : Nat} {name : String}
    {line : Line} {s : Statement} (hname : p.Reachable entry name)
    (h : .statement line s ∈ p.script depth name) :
    ∃ caller r, p.Reachable entry caller ∧ p.find? caller = some r ∧
      (line, s) ∈ Line.statements r.lines := by
  induction depth generalizing name with
  | zero =>
    simp only [script] at h
    split at h <;> simp at h
  | succ depth ih =>
    simp only [script] at h
    split at h
    · simp at h
    · rename_i r hr
      simp only [List.cons_append, List.mem_cons, List.mem_append, List.mem_flatMap, reduceCtorEq,
        false_or, List.not_mem_nil, or_false] at h
      obtain ⟨⟨l, t⟩, hmem, hx⟩ := h
      rcases hx with hx | hx
      · cases hx
        exact ⟨name, r, hname, hr, hmem⟩
      · cases hc : t.callee? with
        | none => simp [hc] at hx
        | some callee => exact ih (.call hname hr hmem hc) (by simpa [hc] using hx)

theorem mem_routines_of_mem_script {p : Program} {depth : Nat} {name : String} {line : Line}
    {s : Statement} (h : .statement line s ∈ p.script depth name) :
    ∃ r ∈ p.routines, line ∈ r.lines ∧ s ∈ Statement.split line.tokens := by
  obtain ⟨caller, r, -, hr, hbody⟩ := exists_reachable_of_mem_script .entry h
  exact ⟨r, List.mem_of_find?_eq_some hr, Line.mem_statements.mp hbody⟩

theorem runRoutine_of_find?_eq_none {p : Program} {name : String} (h : p.find? name = none)
    (depth : Nat) (m : Machine) :
    p.runRoutine depth name m = .report m (.unknownRoutine name) := by
  cases depth <;> simp [runRoutine_zero, runRoutine_succ, h]

theorem fault_runRoutine_succ {p : Program} {name : String} {r : Routine}
    (hr : p.find? name = some r) (depth : Nat) (m : Machine) :
    (p.runRoutine (depth + 1) name m).fault =
      (runBody (p.runRoutine depth) (Line.statements r.lines) m).fault := by
  simp only [runRoutine_succ, hr, ← runLines_eq_runBody]
  cases h : (runLines Trace.top (p.runRoutine depth) r.lines m).fault with
  | none => rw [Effect.andThen_of_fault_eq_none h]; rfl
  | some x => rw [Effect.andThen_of_fault h]; exact h

/-- Runs a program on a fresh machine with calls nested up to a limit. -/
def runWithin (p : Program) (limit : Nat) (entry : String) : Effect :=
  closeRun entry (p.runRoutine limit entry p.freshMachine)

theorem run_eq_runWithin (p : Program) (entry : String) :
    p.run entry = p.runWithin callLimit entry := rfl

theorem closeRun_of_fault_ne {e : Effect} (h : e.fault ≠ some .nesting) (entry : String) :
    closeRun entry e = e := by
  unfold closeRun
  split
  · contradiction
  · rfl

theorem fault_closeRun_of_nesting {e : Effect} (h : e.fault = some .nesting) (entry : String) :
    (closeRun entry e).fault = some (.halt (.callDepth entry)) := by
  simp [closeRun, h]

theorem runWithin_of_returns {p : Program} {limit : Nat} {entry : String}
    (h : (p.runWithin limit entry).fault = none) :
    p.runWithin limit entry = p.runRoutine limit entry p.freshMachine := by
  by_cases hnesting : (p.runRoutine limit entry p.freshMachine).fault = some .nesting
  · rw [runWithin, fault_closeRun_of_nesting hnesting] at h
    cases h
  · exact closeRun_of_fault_ne hnesting entry

/-- A run of the program comes to a statement on a line, with the machine `m`, after it has
performed `before`. -/
def Dispatches (p : Program) (limit : Nat) (entry : String) (before : List Step) (line : Line)
    (s : Statement) (m : Machine) : Prop :=
  Step.Reaches (p.script limit entry) p.freshMachine before (.statement line s) m

end Program
end LineAssembly
