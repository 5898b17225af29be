import LineAssembly.Run.Routine

/-! Lines as statements. How many of the tokens after it a leading token takes hangs on the tokens
alone, in all its branches, so that a line falls into the same statements on every machine. A line
is run by running its statements one after the other. -/
namespace LineAssembly

/-- Every event is traced at this level. -/
def Trace.top : Nat := 3

theorem Trace.emit_of_le {threshold level : Nat} (h : threshold ≤ level) (t : Trace) :
    emit level threshold t = [t] :=
  if_pos h

def Operation.operandCount : Operation → Nat
  | .push | .print | .call => 1
  | .mov => 3
  | .pop | .arithmetic _ | .idle => 0

structure Statement where
  head : Token
  operands : List Token
  deriving Repr, DecidableEq

namespace Statement

/-- A binding takes a name, then a comma and a value, or only the value if the comma is missing.
After a name that is none it stops. -/
def bindingCount : List Token → Nat
  | [] => 0
  | [_] => 1
  | name :: comma :: _ =>
    if name.kind ≠ .variableName then 1 else if comma.kind = .comma then 3 else 2

/-- How many of the tokens that follow it a leading token takes at most. -/
def operandCount (head : Token) (tokens : List Token) : Nat :=
  match head.kind with
  | .opcode => (Operation.ofOpcode head.value).operandCount
  | .keyword => if head.value = "let" then bindingCount tokens else 0
  | _ => 0

/-- The statement that a leading token makes of the tokens after it. -/
def first (head : Token) (tokens : List Token) : Statement :=
  ⟨head, tokens.take (operandCount head tokens)⟩

/-- The statements of a line. -/
def split : List Token → List Statement
  | [] => []
  | head :: tokens => first head tokens :: split (tokens.drop (operandCount head tokens))
termination_by tokens => tokens.length
decreasing_by simp only [List.length_drop, List.length_cons]; omega

theorem split_nil : split [] = [] := by simp [split]

theorem split_cons (head : Token) (tokens : List Token) :
    split (head :: tokens) =
      first head tokens :: split (tokens.drop (operandCount head tokens)) := by
  rw [split]

theorem flatMap_split (tokens : List Token) :
    (split tokens).flatMap (fun s => s.head :: s.operands) = tokens := by
  fun_induction split tokens with
  | case1 => rfl
  | case2 head tokens ih => simp [first, ih]

section Cursor

variable (level : Nat) (call : Caller) (line : Line) (head : Token) (tokens : List Token)
  (m : Machine)

theorem rest_runOperation :
    (runOperation call line head tokens m).rest =
      tokens.drop (Operation.ofOpcode head.value).operandCount := by
  unfold runOperation
  cases Operation.ofOpcode head.value with
  | push =>
    cases tokens with
    | nil => rfl
    | cons t rest => simp only [runPush]; split <;> rfl
  | mov => rcases tokens with _ | ⟨dest, _ | ⟨comma, _ | ⟨source, rest⟩⟩⟩ <;> rfl
  | print => cases tokens <;> rfl
  | call =>
    cases tokens with
    | nil => rfl
    | cons t rest => simp only [runCall]; split <;> rfl
  | pop | arithmetic _ | idle => rfl

theorem rest_runBinding :
    (runBinding level line tokens m).rest = tokens.drop (bindingCount tokens) := by
  match tokens with
  | [] => rfl
  | [name] => simp only [runBinding]; split <;> rfl
  | name :: comma :: rest =>
    simp only [runBinding, bindingCount]
    split
    · rfl
    · split
      · cases rest <;> rfl
      · rfl

/-- What a handler leaves of the line hangs on the tokens only: not on the machine, on what the
called routines do, or on the level. -/
theorem rest_dispatch :
    (dispatch level call line head tokens m).rest = tokens.drop (operandCount head tokens) := by
  rw [dispatch, Turn.rest_traced, operandCount]
  cases head.kind with
  | opcode => exact rest_runOperation call line head tokens m
  | keyword =>
    simp only [runKeyword]
    split
    · exact rest_runBinding level line tokens m
    · rfl
  | _ => rfl

theorem effect_runOperation_take :
    (runOperation call line head
        (tokens.take (Operation.ofOpcode head.value).operandCount) m).effect =
      (runOperation call line head tokens m).effect := by
  unfold runOperation
  cases Operation.ofOpcode head.value with
  | push =>
    cases tokens with
    | nil => rfl
    | cons t rest => cases hkind : t.kind <;> simp [Operation.operandCount, runPush, hkind]
  | mov => rcases tokens with _ | ⟨dest, _ | ⟨comma, _ | ⟨source, rest⟩⟩⟩ <;> rfl
  | print => cases tokens <;> rfl
  | call =>
    cases tokens with
    | nil => rfl
    | cons t rest =>
      by_cases hkind : t.kind = .routineName <;> simp [Operation.operandCount, runCall, hkind]
  | pop | arithmetic _ | idle => rfl

theorem effect_runBinding_take :
    (runBinding level line (tokens.take (bindingCount tokens)) m).effect =
      (runBinding level line tokens m).effect := by
  match tokens with
  | [] | [_] => rfl
  | name :: comma :: rest =>
    by_cases hname : name.kind = .variableName
    · by_cases hcomma : comma.kind = .comma
      · cases rest <;> simp [runBinding, bindingCount, hname, hcomma]
      · simp [runBinding, bindingCount, hname, hcomma]
    · simp [runBinding, bindingCount, hname]

/-- A handler looks at no token that it leaves. -/
theorem effect_dispatch_first :
    (dispatch level call line head (first head tokens).operands m).effect =
      (dispatch level call line head tokens m).effect := by
  rw [dispatch, dispatch, Turn.effect_traced, Turn.effect_traced, first, operandCount]
  refine congrArg (Effect.traced _) ?_
  cases head.kind with
  | opcode => exact congrArg (Effect.traced _) (effect_runOperation_take call line head tokens m)
  | keyword =>
    simp only [runKeyword]
    split
    · exact effect_runBinding_take level line tokens m
    · rfl
  | _ => rfl

end Cursor

theorem runArithmetic_eq (line : Line) (o : Arithmetic) (m : Machine) :
    runArithmetic line o m =
      match m.stack with
      | a :: b :: below =>
        if o = .divs ∧ b = 0 then .halt m (.divisionByZero line.number)
        else .none { m with stack := o.apply a b :: below }
      | _ => .halt m (.stackUnderflow o.name line.number) := by
  obtain ⟨stack, ports, accumulator, vars, labels, errorCount⟩ := m
  match stack with
  | [] | [_] => rfl
  | a :: b :: below =>
    have hlength : ¬(a :: b :: below).length < 2 := by simp
    exact if_neg hlength

/-- The events of a statement before it acts. -/
def opening (line : Line) (s : Statement) : List Trace :=
  .dispatch line.number s.head ::
    if s.head.kind = .opcode then [.opcode line.number s.head.value] else []

def act (call : Caller) (line : Line) (s : Statement) (m : Machine) : Effect :=
  match s.head.kind with
  | .opcode => (runOperation call line s.head s.operands m).effect
  | .keyword => (runKeyword Trace.top line s.head s.operands m).effect
  | .label _ | .bracket | .string | .comment => .none m
  | .newline => .write m "\n"
  | _ => .report m (.unexpected s.head.value line.number)

/-- A statement with all its events. -/
def run (call : Caller) (line : Line) (s : Statement) (m : Machine) : Effect :=
  (s.act call line m).traced (s.opening line)

theorem effect_dispatch (call : Caller) (line : Line) (s : Statement) (m : Machine) :
    (dispatch Trace.top call line s.head s.operands m).effect = s.run call line m := by
  rw [dispatch, Turn.effect_traced, Trace.emit_of_le (by decide), run, opening, act]
  cases hkind : s.head.kind with
  | opcode =>
    simp only [runOpcode, Turn.effect_traced, if_true,
      Trace.emit_of_le (show 2 ≤ Trace.top by decide)]
    rfl
  | _ => rfl

/-- A leading token does its statement and leaves the line behind it. -/
theorem dispatch_eq (call : Caller) (line : Line) (head : Token) (tokens : List Token)
    (m : Machine) :
    dispatch Trace.top call line head tokens m =
      ⟨(first head tokens).run call line m, tokens.drop (operandCount head tokens)⟩ := by
  rw [← effect_dispatch, ← rest_dispatch Trace.top call line head tokens m]
  exact congrArg (Turn.mk · _) (effect_dispatch_first Trace.top call line head tokens m).symm

end Statement

def runStatements (call : Statement.Caller) (line : Line) : List Statement → Machine → Effect
  | [], m => .none m
  | s :: ss, m => (s.run call line m).andThen (runStatements call line ss)

/-- Handing the rest of the line from handler to handler runs the statements that the line was cut
into beforehand. -/
theorem runTokens_eq_runStatements (call : Statement.Caller) (line : Line) (tokens : List Token)
    (m : Machine) :
    runTokens Trace.top call line tokens m =
      runStatements call line (Statement.split tokens) m := by
  fun_induction Statement.split tokens generalizing m with
  | case1 => rw [runTokens, runStatements]
  | case2 head tokens ih =>
    rw [runTokens, Statement.dispatch_eq, runStatements]
    congr 1
    funext n
    exact ih n

namespace Program

/-- A run of a routine with all its events. At other levels it differs in the events alone. -/
def runRoutine (p : Program) (depth : Nat) (name : String) (m : Machine) : Effect :=
  p.runRoutineAt Trace.top depth name m

theorem runRoutine_zero (p : Program) (name : String) (m : Machine) :
    p.runRoutine 0 name m =
      match p.find? name with
      | none => .report m (.unknownRoutine name)
      | some _ => .fail m .nesting := rfl

theorem runRoutine_succ (p : Program) (depth : Nat) (name : String) (m : Machine) :
    p.runRoutine (depth + 1) name m =
      match p.find? name with
      | none => .report m (.unknownRoutine name)
      | some r =>
        ((runLines Trace.top (p.runRoutine depth) r.lines m).andThen
          (leaveRoutine Trace.top name)).traced [.enter name r.lines.length] := rfl

/-- A run of a program with all its events. At other levels it differs in the events alone. -/
def run (p : Program) (entry : String) : Effect := p.runAt Trace.top entry

end Program
end LineAssembly
