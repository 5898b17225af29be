import LineAssembly.Proofs.Run.Outcome

/-! Runs at two levels. Each place that traces an event has a threshold of its own, and nothing else
in a run asks for the level. So a run at a lower level is the run at a higher one, without the
events that only the higher level shows. -/
namespace LineAssembly
namespace Trace

/-- The level from which on an event is traced. -/
def level : Trace → Nat
  | .enter _ _ | .leave _ | .remark _ => 1
  | .opcode _ _ | .bind _ _ => 2
  | .dispatch _ _ => 3

def upTo (level : Nat) (ts : List Trace) : List Trace := ts.filter fun t => t.level ≤ level

theorem upTo_append (level : Nat) (ts us : List Trace) :
    upTo level (ts ++ us) = upTo level ts ++ upTo level us :=
  List.filter_append ts us

theorem level_le_top (t : Trace) : t.level ≤ top := by
  cases t <;> simp [level, top]

theorem upTo_of_top_le {level : Nat} (h : top ≤ level) (ts : List Trace) : upTo level ts = ts :=
  List.filter_eq_self.mpr fun t _ => decide_eq_true (Nat.le_trans t.level_le_top h)

/-- A place traces at the lower level what the lower level shows of what it traces at the higher. -/
theorem upTo_emit {d e : Nat} (h : d ≤ e) (t : Trace) :
    upTo d (emit e t.level t) = emit d t.level t := by
  by_cases hd : t.level ≤ d
  · simp [emit, upTo, hd, Nat.le_trans hd h]
  · by_cases he : t.level ≤ e <;> simp [emit, upTo, hd, he]

end Trace

namespace Effect

/-- An effect with the events that a level shows. -/
def watched (level : Nat) (e : Effect) : Effect := { e with trace := Trace.upTo level e.trace }

variable (level : Nat)

theorem watched_of_trace_eq_nil {e : Effect} (h : e.trace = []) : e.watched level = e := by
  obtain ⟨machine, output, problems, trace, fault⟩ := e
  cases h
  rfl

theorem watched_of_top_le {level : Nat} (h : Trace.top ≤ level) (e : Effect) :
    e.watched level = e := by
  rw [watched, Trace.upTo_of_top_le h]

theorem watched_traced (ts : List Trace) (e : Effect) :
    (e.traced ts).watched level = (e.watched level).traced (Trace.upTo level ts) := by
  simp [watched, traced, Trace.upTo_append]

theorem watched_andThen (e : Effect) (next : Machine → Effect) :
    (e.andThen next).watched level =
      (e.watched level).andThen fun m => (next m).watched level := by
  cases h : e.fault with
  | some f => rw [andThen_of_fault h, andThen_of_fault (e := e.watched level) h]
  | none =>
    rw [andThen_of_fault_eq_none h, andThen_of_fault_eq_none (e := e.watched level) h]
    simp [watched, Trace.upTo_append]

end Effect

namespace Statement

def Caller.watched (level : Nat) (call : Caller) : Caller :=
  fun name m => (call name m).watched level

def Turn.watched (level : Nat) (t : Turn) : Turn := { t with effect := t.effect.watched level }

variable {d e : Nat} {call : Caller} {line : Line} {head : Token} {tokens : List Token}
  {m : Machine}

theorem runOperation_of_ne_call (hop : Operation.ofOpcode head.value ≠ .call)
    (call call' : Caller) :
    runOperation call line head tokens m = runOperation call' line head tokens m := by
  unfold runOperation
  cases h : Operation.ofOpcode head.value with
  | call => exact absurd h hop
  | _ => rfl

theorem trace_runOperation (hkind : head.kind = .opcode)
    (hop : Operation.ofOpcode head.value ≠ .call) :
    (runOperation call line head tokens m).effect.trace = [] := by
  let s : Statement := ⟨head, tokens⟩
  have hs : s.operation? = some (Operation.ofOpcode head.value) :=
    operation?_eq_some.mpr ⟨hkind, rfl⟩
  have hevents : s.events = [] := by simp [events, bound?_of_operation? hs]
  have halone : runOperation call line head tokens m =
      runOperation (fun _ => Effect.none) line head tokens m := runOperation_of_ne_call hop _ _
  have hact := act_of_operation? hs (fun _ => Effect.none) line m
  rw [halone, ← hevents, ← (outcome_act line s m).binds.2, hact]

theorem runOperation_watched (hkind : head.kind = .opcode) :
    runOperation (call.watched d) line head tokens m =
      (runOperation call line head tokens m).watched d := by
  by_cases hop : Operation.ofOpcode head.value = .call
  · simp only [runOperation, hop, runCall]
    split
    · rfl
    · split
      · rfl
      · rfl
  · rw [runOperation_of_ne_call hop (call.watched d) call, Turn.watched,
      Effect.watched_of_trace_eq_nil d (trace_runOperation hkind hop)]

theorem bindValue_watched (h : d ≤ e) (name value : Token) (m : Machine) :
    bindValue d name value m = (bindValue e name value m).watched d := by
  have hemit := Trace.upTo_emit h (.bind name.value value.value)
  rw [bindValue_eq, bindValue_eq]
  cases binding? name value with
  | some v =>
    simp only [Effect.watched_traced]
    exact congrArg (Effect.traced · _) hemit.symm
  | none => rfl

theorem runBinding_watched (h : d ≤ e) :
    runBinding d line tokens m = (runBinding e line tokens m).watched d := by
  match tokens with
  | [] => rfl
  | [name] =>
    simp only [runBinding]
    split <;> rfl
  | name :: comma :: rest =>
    simp only [runBinding]
    split
    · rfl
    · split
      · cases rest with
        | nil => rfl
        | cons value rest => exact congrArg (Turn.mk · _) (bindValue_watched h name value m)
      · simp only [Turn.watched, Effect.watched_andThen]
        exact congrArg (Turn.mk · _)
          (congrArg _ (funext fun m => bindValue_watched h name comma m))

theorem dispatch_watched (h : d ≤ e) :
    dispatch d (call.watched d) line head tokens m =
      (dispatch e call line head tokens m).watched d := by
  have hdispatch := Trace.upTo_emit h (.dispatch line.number head)
  have hopcode := Trace.upTo_emit h (.opcode line.number head.value)
  have htraced (ts : List Trace) (t : Turn) :
      (t.traced ts).watched d = (t.watched d).traced (Trace.upTo d ts) := by
    simp [Turn.traced, Turn.watched, Effect.watched_traced]
  rw [dispatch, dispatch, htraced]
  refine congrArg₂ Turn.traced hdispatch.symm ?_
  cases hkind : head.kind with
  | opcode =>
    simp only [runOpcode, htraced, runOperation_watched hkind]
    exact congrArg (Turn.traced · _) hopcode.symm
  | keyword =>
    simp only [runKeyword]
    split
    · exact runBinding_watched h
    · rfl
  | _ => rfl

theorem exists_trace_dispatch (level : Nat) (call : Caller) (line : Line) (head : Token)
    (tokens : List Token) (m : Machine) :
    ∃ ts, (dispatch level call line head tokens m).effect =
      { (first head tokens).run call line m with trace := ts } := by
  have hlevel : dispatch 0 (call.watched 0) line head tokens m =
      (dispatch level call line head tokens m).watched 0 := dispatch_watched (Nat.zero_le level)
  rw [dispatch_watched (Nat.zero_le Trace.top), dispatch_eq] at hlevel
  have heffect := (congrArg Turn.effect hlevel).symm
  simp only [Turn.watched, Effect.watched, Effect.mk.injEq] at heffect
  obtain ⟨hmachine, houtput, hproblems, -, hfault⟩ := heffect
  refine ⟨(dispatch level call line head tokens m).effect.trace, ?_⟩
  simp only [← hmachine, ← houtput, ← hproblems, ← hfault]

end Statement

variable {d e : Nat}

theorem runTokens_watched (h : d ≤ e) (call : Statement.Caller) (line : Line)
    (tokens : List Token) (m : Machine) :
    runTokens d (call.watched d) line tokens m = (runTokens e call line tokens m).watched d := by
  fun_induction runTokens e call line tokens m with
  | case1 m =>
    rw [runTokens]
    rfl
  | case2 head tokens m turn ih =>
    rw [runTokens, Effect.watched_andThen, Statement.dispatch_watched h]
    exact congrArg _ (funext ih)

theorem runLines_watched (h : d ≤ e) (call : Statement.Caller) (ls : List Line) (m : Machine) :
    runLines d (call.watched d) ls m = (runLines e call ls m).watched d := by
  induction ls generalizing m with
  | nil => rfl
  | cons l ls ih =>
    rw [runLines, runLines, Effect.watched_andThen, runTokens_watched h]
    exact congrArg _ (funext ih)

namespace Program

variable (p : Program)

theorem runRoutineAt_watched (h : d ≤ e) (depth : Nat) :
    p.runRoutineAt d depth = Statement.Caller.watched d (p.runRoutineAt e depth) := by
  induction depth with
  | zero =>
    funext name m
    simp only [runRoutineAt, Statement.Caller.watched]
    cases p.find? name <;> rfl
  | succ depth ih =>
    funext name m
    simp only [runRoutineAt, Statement.Caller.watched]
    cases p.find? name with
    | none => rfl
    | some r =>
      have henter := Trace.upTo_emit h (.enter name r.lines.length)
      have hleave := Trace.upTo_emit h (.leave name)
      have hend : leaveRoutine d name = fun m => (leaveRoutine e name m).watched d := by
        funext m
        rw [leaveRoutine, leaveRoutine, Effect.watched_traced]
        exact congrArg (Effect.traced · _) hleave.symm
      simp only [Effect.watched_traced, Effect.watched_andThen, ih, runLines_watched h, hend]
      exact congrArg (Effect.traced · _) henter.symm

theorem closeRun_watched (entry : String) (f : Effect) :
    closeRun entry (f.watched d) = (closeRun entry f).watched d := by
  obtain ⟨machine, output, problems, trace, fault⟩ := f
  match fault with
  | none | some .nesting | some (.halt _) | some (.digits _) => rfl

/-- At any level a routine runs as it does with all its events, as far as the level shows them. -/
theorem runRoutineAt_eq_watched (level depth : Nat) (name : String) (m : Machine) :
    p.runRoutineAt level depth name m = (p.runRoutine depth name m).watched level := by
  rcases Nat.le_total level Trace.top with h | h
  · exact congrFun (congrFun (p.runRoutineAt_watched h depth) name) m
  · have htop := congrFun (congrFun (p.runRoutineAt_watched h depth) name) m
    rw [runRoutine, htop, Statement.Caller.watched, Effect.watched_of_top_le h,
      Effect.watched_of_top_le (Nat.le_refl _)]

theorem runLines_eq_watched (level depth : Nat) (ls : List Line) (m : Machine) :
    runLines level (p.runRoutineAt level depth) ls m =
      (runLines Trace.top (p.runRoutine depth) ls m).watched level := by
  rcases Nat.le_total level Trace.top with h | h
  · rw [runRoutineAt_watched p h depth, runLines_watched h]
    rfl
  · have htop := runLines_watched h (p.runRoutineAt level depth) ls m
    rw [← runRoutineAt_watched p h depth, Effect.watched_of_top_le (Nat.le_refl _)] at htop
    rw [Effect.watched_of_top_le h, ← htop]
    rfl

theorem runAt_eq_watched (level : Nat) (entry : String) :
    p.runAt level entry = (p.run entry).watched level := by
  rw [runAt, runRoutineAt_eq_watched, closeRun_watched]
  rfl

end Program
end LineAssembly
