import LineAssembly.Proofs.Run.Relocation

/-! What a run asks a program for. It asks for the body of its entry and of each routine that it
comes to a call of, and for nothing else. So two programs in which these names have the same bodies
run alike, whatever else the programs hold. -/
namespace LineAssembly
namespace Step

/-- The routine that a step calls. -/
def callee? : Step → Option String
  | .statement _ s => s.callee?
  | _ => none

/-- The routines that performing steps comes to a call of, in order. Nothing behind a fault is
called. -/
def calls : List Step → Machine → List String
  | [], _ => []
  | step :: steps, m =>
    step.callee?.toList ++
      if (step.run m).fault = none then calls steps (step.run m).machine else []

theorem exists_of_mem_calls {steps : List Step} {m : Machine} {name : String}
    (h : name ∈ calls steps m) : ∃ step ∈ steps, step.callee? = some name := by
  induction steps generalizing m with
  | nil => cases h
  | cons step steps ih =>
    rw [calls, List.mem_append, Option.mem_toList] at h
    rcases h with h | h
    · exact ⟨step, by simp, h⟩
    · split at h
      · obtain ⟨step', hmem, hcallee⟩ := ih h
        exact ⟨step', by simp [hmem], hcallee⟩
      · cases h

/-- The second steps are the first ones at other places, up to a call of a routine that is not
shared. From there on both may be any. -/
inductive Follows (ρ : Relocation) (Shared : String → Prop) : List Step → List Step → Prop where
  | nil : Follows ρ Shared [] []
  | cons (step : Step) {xs ys : List Step} (rest : Follows ρ Shared xs ys) :
      Follows ρ Shared (step :: xs) (step.relocate ρ :: ys)
  | part (step : Step) {name : String} (callee : step.callee? = some name)
      (apart : ¬ Shared name) (xs ys : List Step) :
      Follows ρ Shared (step :: xs) (step.relocate ρ :: ys)

namespace Follows

variable {ρ : Relocation} {Shared : String → Prop}

theorem append {xs ys xs' ys' : List Step} (h : Follows ρ Shared xs ys)
    (h' : Follows ρ Shared xs' ys') : Follows ρ Shared (xs ++ xs') (ys ++ ys') := by
  induction h with
  | nil => exact h'
  | cons step rest ih => exact .cons step ih
  | part step callee apart xs ys => exact .part step callee apart (xs ++ xs') (ys ++ ys')

theorem flatMap {α β : Type} {f : α → List Step} {g : β → List Step} {move : α → β}
    (h : ∀ x, Follows ρ Shared (f x) (g (move x))) (xs : List α) :
    Follows ρ Shared (xs.flatMap f) ((xs.map move).flatMap g) := by
  induction xs with
  | nil => exact .nil
  | cons x xs ih => exact (h x).append ih

end Follows

/-- Steps that follow others do the same as long as only shared routines are called. -/
theorem perform_of_follows {σ : Setting} {Shared : String → Prop} {xs ys : List Step} {m : Machine}
    (h : Follows σ.places Shared xs ys) (hshared : ∀ name ∈ calls xs m, Shared name) :
    perform ys (m.rebase σ) = (perform xs m).rebase σ := by
  induction h generalizing m with
  | nil => rfl
  | @cons step xs ys rest ih =>
    simp only [perform, Effect.sequence, run_rebase]
    -- where the step faults both are over, and nothing is asked of the rest
    refine Effect.andThen_rebase_of_returns σ (step.run m) fun hstep => ih ?_
    intro name hname
    exact hshared name (by simp [calls, hstep, hname])
  | @part step name callee apart xs ys =>
    have hname : name ∈ calls (step :: xs) m := by simp [calls, callee]
    exact absurd (hshared name hname) apart

end Step

namespace Program

/-- A name is unknown to both programs or has the same body in both, at other places. -/
def SharesBody (p q : Program) (ρ : Relocation) (name : String) : Prop :=
  (q.find? name).map Routine.lines = (p.find? name).map fun r => r.lines.map (Line.relocate ρ)

/-- The names that a run of a routine asks for: its own, and those of the calls that it comes to. -/
def requests (p : Program) (limit : Nat) (entry : String) (m : Machine) : List String :=
  entry :: Step.calls (p.script limit entry) m

/-- Running the entry shows the same on both programs, and counts as many errors beside those of
the program. -/
structure RunsAs (p q : Program) (limit : Nat) (entry : String) : Prop where
  output : (q.runWithin limit entry).output = (p.runWithin limit entry).output
  stack : (q.runWithin limit entry).machine.stack = (p.runWithin limit entry).machine.stack
  ports : (q.runWithin limit entry).machine.ports = (p.runWithin limit entry).machine.ports
  accumulator : (q.runWithin limit entry).machine.accumulator =
    (p.runWithin limit entry).machine.accumulator
  vars : (q.runWithin limit entry).machine.vars = (p.runWithin limit entry).machine.vars
  messages : (q.runWithin limit entry).messages = (p.runWithin limit entry).messages
  trace : (q.runWithin limit entry).trace = (p.runWithin limit entry).trace
  fault : (q.runWithin limit entry).fault = (p.runWithin limit entry).fault
  errorCount : (q.runWithin limit entry).machine.errorCount - q.errorCount =
    (p.runWithin limit entry).machine.errorCount - p.errorCount

variable {p q : Program} {limit : Nat} {entry : String}

theorem reachable_of_mem_requests {m : Machine} {name : String}
    (h : name ∈ p.requests limit entry m) : p.Reachable entry name := by
  rcases List.mem_cons.mp h with rfl | h
  · exact .entry
  · obtain ⟨step, hstep, hcallee⟩ := Step.exists_of_mem_calls h
    cases step with
    | statement line s =>
      obtain ⟨caller, r, hcaller, hr, hbody⟩ := exists_reachable_of_mem_script .entry hstep
      exact .call hcaller hr hbody hcallee
    | _ => cases hcallee

theorem SharesBody.find? {ρ : Relocation} {name : String} (h : p.SharesBody q ρ name) :
    p.find? name = none ∧ q.find? name = none ∨
      ∃ r r', p.find? name = some r ∧ q.find? name = some r' ∧
        r'.lines = r.lines.map (Line.relocate ρ) := by
  cases hp : p.find? name with
  | none => simpa [SharesBody, hp] using h
  | some r => simpa [SharesBody, hp, Option.map_eq_some_iff] using h

theorem follows_script {ρ : Relocation} {name : String} (h : p.SharesBody q ρ name) (depth : Nat) :
    Step.Follows ρ (p.SharesBody q ρ) (p.script depth name) (q.script depth name) := by
  induction depth generalizing name with
  | zero =>
    obtain ⟨hp, hq⟩ | ⟨r, r', hp, hq, -⟩ := h.find?
    · simp only [script, hp, hq]
      exact .cons (.unknown name) .nil
    · simp only [script, hp, hq]
      exact .cons (.tooDeep name) .nil
  | succ depth ih =>
    obtain ⟨hp, hq⟩ | ⟨r, r', hp, hq, hlines⟩ := h.find?
    · simp only [script, hp, hq]
      exact .cons (.unknown name) .nil
    · simp only [script, hp, hq, hlines, List.length_map, Line.statements_relocate]
      refine .append (.cons (.enter name r.lines.length) (.flatMap ?_ _)) (.cons (.leave name) .nil)
      rintro ⟨line, s⟩
      simp only [Statement.callee?_relocate]
      cases hs : s.callee? with
      | none => exact .cons (.statement line s) .nil
      | some callee =>
        -- behind a call of a name that is not shared nothing has to follow
        by_cases hcallee : p.SharesBody q ρ callee
        · exact .cons (.statement line s) (ih hcallee)
        · exact .part (.statement line s) hs hcallee _ _

theorem runRoutine_of_shared (σ : Setting) (m : Machine)
    (h : ∀ name ∈ p.requests limit entry m, p.SharesBody q σ.places name) :
    q.runRoutine limit entry (m.rebase σ) = (p.runRoutine limit entry m).rebase σ := by
  rw [runRoutine_eq_perform, runRoutine_eq_perform]
  refine Step.perform_of_follows (follows_script (h entry (by simp [requests])) limit) ?_
  intro name hname
  exact h name (by simp [requests, hname])

theorem find?_relocate (p : Program) (ρ : Relocation) (name : String) :
    (p.relocate ρ).find? name = (p.find? name).map (Routine.relocate ρ) := by
  rw [find?, relocate, List.find?_map]
  rfl

theorem runRoutine_relocate (p : Program) (σ : Setting) (limit : Nat) (entry : String)
    (m : Machine) : (p.relocate σ.places).runRoutine limit entry (m.rebase σ) =
      (p.runRoutine limit entry m).rebase σ := by
  refine runRoutine_of_shared σ m fun name _ => ?_
  rw [SharesBody, find?_relocate, Option.map_map]
  rfl

/-- A program that moves runs as it does, but for its places and those of its labels. -/
theorem runWithin_relocate (p : Program) (ρ : Relocation) (limit : Nat) (entry : String) :
    (p.relocate ρ).runWithin limit entry = (p.runWithin limit entry).rebase (.moved ρ) := by
  have hfresh : (p.relocate ρ).freshMachine = p.freshMachine.rebase (.moved ρ) := by
    simp only [freshMachine, labels_relocate, Machine.rebase, Setting.moved, Int.add_zero]
    rfl
  have hrun := p.runRoutine_relocate (.moved ρ) limit entry p.freshMachine
  rw [runWithin, runWithin, ← closeRun_rebase, ← hrun, hfresh]
  rfl

theorem sharesBody_default_iff {name : String} :
    p.SharesBody q {} name ↔
      (p.find? name).map Routine.lines = (q.find? name).map Routine.lines := by
  simp only [SharesBody, Line.relocate_default, List.map_id, eq_comm]

theorem runsAs_of_same_bodies (h : ∀ name ∈ p.requests limit entry p.freshMachine,
    (p.find? name).map Routine.lines = (q.find? name).map Routine.lines) :
    p.RunsAs q limit entry := by
  let σ : Setting := { labels := fun _ => q.labels, errors := q.errorCount - p.errorCount }
  have hfresh : q.freshMachine = p.freshMachine.rebase σ := by
    simp [freshMachine, Machine.rebase, σ]
  have hrun : q.runWithin limit entry = (p.runWithin limit entry).rebase σ := by
    rw [runWithin, runWithin, hfresh, ← closeRun_rebase]
    congr 1
    refine runRoutine_of_shared σ p.freshMachine ?_
    intro name hname
    exact sharesBody_default_iff.mpr (h name hname)
  have hproblems : (q.runWithin limit entry).problems = (p.runWithin limit entry).problems := by
    simp only [hrun, Effect.rebase, σ, Problem.relocate_default, List.map_id]
  constructor
  case messages => rw [Effect.messages, hproblems, Effect.messages]
  case trace => simp only [hrun, Effect.rebase, σ, Trace.relocate_default, List.map_id]
  case fault => simp only [hrun, Effect.rebase, σ, Fault.relocate_of_number, Option.map_id, id]
  case errorCount =>
    rw [hrun]
    simp only [Effect.rebase, Machine.rebase, σ]
    omega
  all_goals rw [hrun]; rfl

theorem find?_insert_of_inert {before after : List Routine} {g : Routine} {name : String}
    (h : g.name ≠ name ∨ g.name ∈ before.map Routine.name) :
    (before ++ g :: after).find? (fun r => r.name = name) =
      (before ++ after).find? fun r => r.name = name := by
  rw [List.find?_append, List.find?_append]
  by_cases hg : g.name = name
  · obtain ⟨r, hr, hname⟩ := List.mem_map.mp (h.resolve_left fun hne => hne hg)
    obtain ⟨found, hfound⟩ : ∃ found, before.find? (fun r => r.name = name) = some found := by
      rw [← Option.isSome_iff_exists, List.find?_isSome]
      exact ⟨r, hr, by simp [hname, hg]⟩
    simp [hfound]
  · simp [hg]

/-- A run sees nothing of a program but the bodies that it asks for: where another program has the
same body for each name that a run requests, or none as this one has, running the entry shows the
same on both. The names requested are among those that calls lead to from the entry. In particular
one may put in a routine that is not requested or shadowed by one before it, and change what
routines declare as arguments, the lines that belong to no routine and the count of errors. -/
theorem run_sees_requested_bodies (p : Program) (limit : Nat) (entry : String) :
    (∀ q : Program,
      (∀ name ∈ p.requests limit entry p.freshMachine,
        (p.find? name).map Routine.lines = (q.find? name).map Routine.lines) →
      p.RunsAs q limit entry) ∧
    (∀ name ∈ p.requests limit entry p.freshMachine, p.Reachable entry name) ∧
    ∀ (before after : List Routine) (g : Routine) (arguments : Routine → List Token)
      (dangling lines : List Line) (errorCount : Nat), p.routines = before ++ after →
      (g.name ∉ p.requests limit entry p.freshMachine ∨ g.name ∈ before.map Routine.name) →
      p.RunsAs
        { routines := (before ++ g :: after).map fun r => { r with arguments := arguments r }
          dangling, lines, errorCount } limit entry := by
  refine ⟨fun q => runsAs_of_same_bodies, fun name => reachable_of_mem_requests, ?_⟩
  intro before after g arguments dangling lines errorCount hroutines hg
  refine runsAs_of_same_bodies fun name hname => ?_
  have hinert : g.name ≠ name ∨ g.name ∈ before.map Routine.name := by
    refine hg.imp_left fun hg heq => ?_
    exact hg (heq ▸ hname)
  simp only [find?, hroutines, List.find?_map, Option.map_map, Function.comp_def,
    find?_insert_of_inert hinert]

/-- The run stops at `adds`, so that it requests `f` and not `g`. Where `f` has an argument and a
shadowed twin, `g` another body and the routines another order, it goes the same way, and so it does
beside one more `g` and a line that belongs to nothing. -/
theorem run_sees_requested_bodies_of_underflow :
    let line (number : Int) (op : String) (operands : List Token) : Line :=
      ⟨⟨.opcode, op, 0⟩ :: operands, op, number, none⟩
    let main : Routine := ⟨"main", [],
      [line 2 "call" [⟨.routineName, "f", 5⟩], line 3 "adds" [],
        line 4 "call" [⟨.routineName, "g", 5⟩]]⟩
    let f : Routine := ⟨"f", [], [line 6 "push" [⟨.number 7, "7", 5⟩]]⟩
    let g : Routine := ⟨"g", [], [line 8 "pop" []]⟩
    let p : Program := { routines := [main, f, g] }
    let q : Program :=
      { routines := [{ f with arguments := [⟨.generic, "x", 5⟩] }, { f with lines := [] },
          { g with lines := [] }, main]
        errorCount := 3 }
    p.requests callLimit "main" p.freshMachine = ["main", "f"] ∧
      (p.runWithin callLimit "main").fault = some (.halt (.stackUnderflow "adds" 3)) ∧
      p.RunsAs q callLimit "main" ∧
      p.RunsAs { routines := [main, f, { g with lines := [] }, g], dangling := f.lines }
        callLimit "main" := by
  intro line main f g p q
  have hrequests : p.requests callLimit "main" p.freshMachine = ["main", "f"] := by decide +kernel
  obtain ⟨hsame, -, hinert⟩ := run_sees_requested_bodies p callLimit "main"
  refine ⟨hrequests, by decide +kernel, hsame q ?_, ?_⟩
  · rw [hrequests]
    decide +kernel
  · refine hinert [main, f] [g] { g with lines := [] } Routine.arguments f.lines [] 0 rfl (.inl ?_)
    rw [hrequests]
    decide +kernel

end Program
end LineAssembly
