import LineAssembly.Run.Effect
import LineAssembly.Run.Operation

/-! Statements at work. The leading token of a statement decides what runs, and its handler takes
the operands from the tokens that follow on the line. Routines are called through a parameter, and
events are traced up to a level. -/
namespace LineAssembly
namespace Statement

abbrev Caller := String → Machine → Effect

/-- What a handler does, and the tokens of the line that it leaves to the statements after it. -/
structure Turn where
  effect : Effect
  rest : List Token

def Turn.traced (ts : List Trace) (t : Turn) : Turn := { t with effect := t.effect.traced ts }

def fetchPort (m : Machine) (line : Line) (t : Token) : Fetch Nat :=
  match m.portIndex t.value with
  | .error excess => .fault (.digits excess)
  | .ok none => .problem (.invalidPort t.value line t.column)
  | .ok (some i) => .value i

def fetchSource (m : Machine) (line : Line) (target : Target) (t : Token) : Fetch Int :=
  match t.kind with
  | .number n => .value n
  | .port => (fetchPort m line t).bind fun i => .value (m.port i)
  | _ => .problem (.movSource target)

def fetchText (m : Machine) (line : Line) (t : Token) : Fetch String :=
  match t.kind with
  | .string => .value t.value
  | .number n => .ofWriting (Decimal.write n)
  | .accumulator => .ofWriting (Decimal.write m.accumulator)
  | .stack => .ofWriting (Decimal.writeList m.stack.reverse)
  | .port => (fetchPort m line t).bind fun i => .ofWriting (Decimal.write (m.port i))
  | _ =>
    match m.lookup (.string t.value) with
    | some (.string _ value) => .value value
    | some (.number _ value) => .ofWriting (Decimal.write value)
    | none => .problem (.unknownValue t.value line t.column)

def runPush (line : Line) (tokens : List Token) (m : Machine) : Turn :=
  match tokens with
  | [] => ⟨.report m (.pushWithoutNumber line.number), []⟩
  | t :: rest =>
    match t.kind with
    | .number n => ⟨.none (m.push n), rest⟩
    | _ => ⟨.report m (.pushNotNumber line.number), rest⟩

/-- A missing comma is a problem, and the value is moved all the same. -/
def runComma (line : Line) (comma : Token) (m : Machine) : Effect :=
  if comma.kind = .comma then .none m else .report m (.noComma line.number)

def runMove (line : Line) (dest source : Token) (m : Machine) : Effect :=
  match dest.kind with
  | .port =>
    (fetchPort m line dest).run m fun i =>
      (fetchSource m line .port source).run m fun n => .none (m.setPort i n)
  | .accumulator =>
    (fetchSource m line .accumulator source).run m fun n => .none (m.setAccumulator n)
  | _ => .report m (.movTarget line.number)

def runMov (line : Line) (tokens : List Token) (m : Machine) : Turn :=
  match tokens with
  | dest :: comma :: source :: rest =>
    ⟨(runComma line comma m).andThen (runMove line dest source), rest⟩
  | _ => ⟨.report m (.movTooShort line.number), []⟩

/-- Takes two values from the stack and puts the result in their place. A division by zero puts
them back. -/
def runArithmetic (line : Line) (op : Arithmetic) (m : Machine) : Effect :=
  if m.stack.length < 2 then .halt m (.stackUnderflow op.name line.number)
  else
    let a := m.top
    let m := m.pop
    let b := m.top
    let m := m.pop
    if op = .divs ∧ b = 0 then .halt ((m.push b).push a) (.divisionByZero line.number)
    else .none (m.push (op.apply a b))

def runPrint (line : Line) (head : Token) (tokens : List Token) (m : Machine) : Turn :=
  match tokens with
  | [] => ⟨.report m (.printWithoutOperand line head.column), []⟩
  | t :: rest => ⟨(fetchText m line t).run m (.write m), rest⟩

/-- What a called routine declares as arguments is never bound. -/
def runCall (call : Caller) (line : Line) (tokens : List Token) (m : Machine) : Turn :=
  match tokens with
  | [] => ⟨.report m (.callWithoutName line.number), []⟩
  | t :: rest =>
    if t.kind = .routineName then ⟨call t.value m, rest⟩
    else ⟨.report m (.callWithoutName line.number), rest⟩

def runOperation (call : Caller) (line : Line) (head : Token) (tokens : List Token) (m : Machine) :
    Turn :=
  match Operation.ofOpcode head.value with
  | .push => runPush line tokens m
  | .pop => ⟨.none m.pop, tokens⟩
  | .mov => runMov line tokens m
  | .arithmetic op => ⟨runArithmetic line op m, tokens⟩
  | .print => runPrint line head tokens m
  | .call => runCall call line tokens m
  | .idle => ⟨.none m, tokens⟩

def runOpcode (level : Nat) (call : Caller) (line : Line) (head : Token) (tokens : List Token)
    (m : Machine) : Turn :=
  (runOperation call line head tokens m).traced
    (Trace.emit level 2 (.opcode line.number head.value))

def bindValue (level : Nat) (name value : Token) (m : Machine) : Effect :=
  match value.kind with
  | .string =>
    (Effect.none (m.define (.string (.string name.value) value.value))).traced
      (Trace.emit level 2 (.bind name.value value.value))
  | .number n =>
    (Effect.none (m.define (.number (.string name.value) n))).traced
      (Trace.emit level 2 (.bind name.value value.value))
  | _ => .report m .letWrongValue

/-- Without a comma, the token in its place is taken for the value. -/
def runBinding (level : Nat) (line : Line) (tokens : List Token) (m : Machine) : Turn :=
  match tokens with
  | [] => ⟨.report m (.letWithoutName line.number), []⟩
  | name :: rest =>
    if name.kind ≠ .variableName then ⟨.report m (.letNotName line.number), rest⟩
    else
      match rest with
      | [] =>
        ⟨(Effect.report m (.noComma line.number)).andThen fun m =>
          .report m (.letWithoutValue line.number), []⟩
      | comma :: rest =>
        if comma.kind = .comma then
          match rest with
          | [] => ⟨.report m (.letWithoutValue line.number), []⟩
          | value :: rest => ⟨bindValue level name value m, rest⟩
        else ⟨(Effect.report m (.noComma line.number)).andThen (bindValue level name comma), rest⟩

def runKeyword (level : Nat) (line : Line) (head : Token) (tokens : List Token) (m : Machine) :
    Turn :=
  if head.value = "let" then runBinding level line tokens m else ⟨.none m, tokens⟩

def dispatch (level : Nat) (call : Caller) (line : Line) (head : Token) (tokens : List Token)
    (m : Machine) : Turn :=
  Turn.traced (Trace.emit level 3 (.dispatch line.number head)) <|
    match head.kind with
    | .opcode => runOpcode level call line head tokens m
    | .keyword => runKeyword level line head tokens m
    | .label _ | .bracket | .string | .comment => ⟨.none m, tokens⟩
    | .newline => ⟨.write m "\n", tokens⟩
    | _ => ⟨.report m (.unexpected head.value line.number), tokens⟩

@[simp] theorem Turn.rest_traced (ts : List Trace) (t : Turn) : (t.traced ts).rest = t.rest := rfl

@[simp] theorem Turn.effect_traced (ts : List Trace) (t : Turn) :
    (t.traced ts).effect = t.effect.traced ts := rfl

theorem length_rest_runOperation_le (call : Caller) (line : Line) (head : Token)
    (tokens : List Token) (m : Machine) :
    (runOperation call line head tokens m).rest.length ≤ tokens.length := by
  unfold runOperation
  split
  · unfold runPush
    split
    · simp
    · split <;> simp
  · simp
  · unfold runMov
    split
    · simp only [List.length_cons]
      omega
    · simp
  · simp
  · unfold runPrint
    split <;> simp
  · unfold runCall
    split
    · simp
    · split <;> simp
  · simp

theorem length_rest_runBinding_le (level : Nat) (line : Line) (tokens : List Token) (m : Machine) :
    (runBinding level line tokens m).rest.length ≤ tokens.length := by
  unfold runBinding
  split
  · simp
  · split
    · simp
    · split
      · simp
      · split
        · split
          · simp
          · simp only [List.length_cons]
            omega
        · simp only [List.length_cons]
          omega

theorem length_rest_dispatch_le (level : Nat) (call : Caller) (line : Line) (head : Token)
    (tokens : List Token) (m : Machine) :
    (dispatch level call line head tokens m).rest.length ≤ tokens.length := by
  rw [dispatch, Turn.rest_traced]
  split
  · exact length_rest_runOperation_le call line head tokens m
  · unfold runKeyword
    split
    · exact length_rest_runBinding_le level line tokens m
    · exact Nat.le_refl _
  all_goals exact Nat.le_refl _

end Statement

/-- The statements of a line, each on the tokens that the one before it has left. -/
def runTokens (level : Nat) (call : Statement.Caller) (line : Line) :
    List Token → Machine → Effect
  | [], m => .none m
  | head :: tokens, m =>
    let turn := Statement.dispatch level call line head tokens m
    turn.effect.andThen (runTokens level call line turn.rest)
termination_by tokens => tokens.length
decreasing_by
  exact Nat.lt_succ_of_le (Statement.length_rest_dispatch_le level call line head tokens m)

def runLines (level : Nat) (call : Statement.Caller) : List Line → Machine → Effect
  | [], m => .none m
  | l :: ls, m => (runTokens level call l l.tokens m).andThen (runLines level call ls)

end LineAssembly
