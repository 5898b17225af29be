import LineAssembly.Proofs.Run.Script

/-! Outcomes: all that a statement can do on its own, and under which conditions. What a run keeps
is read off here, without looking into the statements again. -/
namespace LineAssembly

theorem Machine.portIndex_eq_error {m : Machine} {reference : String} {excess : Decimal.TooLong} :
    m.portIndex reference = .error excess ↔
      Decimal.isNumeral (reference.toList.drop 1) = true ∧
        Decimal.limit < (reference.toList.drop 1).length ∧
        excess = .reading (reference.toList.drop 1).length := by
  unfold portIndex
  generalize reference.toList.drop 1 = digits
  by_cases hnumeral : Decimal.isNumeral digits = true
  · by_cases hlength : digits.length ≤ Decimal.limit
    · simp [hnumeral, Decimal.read, hlength, Nat.not_lt.mpr hlength]
    · simp [hnumeral, Decimal.read, hlength, Nat.not_le.mp hlength, eq_comm]
  · simp [hnumeral]

namespace Statement

/-- A token of a move or a print that names a port, which is looked up. -/
inductive Resolves (s : Statement) (t : Token) : Prop where
  | target {comma source : Token} {rest : List Token} (op : s.operation? = some .mov)
      (operands : s.operands = t :: comma :: source :: rest) (kind : t.kind = .port)
  | source {dest comma : Token} {rest : List Token} (op : s.operation? = some .mov)
      (operands : s.operands = dest :: comma :: t :: rest)
      (target : dest.kind = .port ∨ dest.kind = .accumulator) (kind : t.kind = .port)
  | printed {rest : List Token} (op : s.operation? = some .print)
      (operands : s.operands = t :: rest) (kind : t.kind = .port)

/-- What binding a value to a name defines. -/
def binding? (name value : Token) : Option Variable :=
  match value.kind with
  | .string => some (.string (.string name.value) value.value)
  | .number n => some (.number (.string name.value) n)
  | _ => none

def IsBinding (s : Statement) : Prop := s.head.kind = .keyword ∧ s.head.value = "let"

instance (s : Statement) : Decidable s.IsBinding := inferInstanceAs (Decidable (_ ∧ _))

/-- The variable that a statement binds. Its tokens alone decide whether it binds one. -/
def bound? (s : Statement) : Option Variable :=
  if s.IsBinding then
    match s.operands with
    | name :: comma :: rest =>
      if name.kind = .variableName then
        if comma.kind = .comma then rest.head?.bind (binding? name) else binding? name comma
      else none
    | _ => none
  else none

def events (s : Statement) : List Trace :=
  match s.bound?, s.operands with
  | some _, name :: comma :: rest =>
    [.bind name.value (if comma.kind = .comma then rest.headD comma else comma).value]
  | _, _ => []

/-- The statements that do nothing: opcodes without an effect, keywords other than `let`, and tokens
that are passed over. -/
def idles (s : Statement) : Bool :=
  match s.head.kind with
  | .opcode => Operation.ofOpcode s.head.value = .idle
  | .keyword => s.head.value ≠ "let"
  | .label _ | .bracket | .string | .comment => true
  | _ => false

/-- The statements that may report a problem: those that take operands, and tokens out of place. -/
def reports (s : Statement) : Bool :=
  match s.head.kind with
  | .opcode => 0 < (Operation.ofOpcode s.head.value).operandCount
  | .keyword => s.head.value = "let"
  | .label _ | .bracket | .string | .comment | .newline => false
  | _ => true

/-- The effects that a statement on a line can have. -/
inductive Outcome (line : Line) (s : Statement) : Machine → Effect → Prop where
  | idle {m : Machine} (idles : s.idles = true) : Outcome line s m (.none m)
  | call {m : Machine} {name : String} (callee : s.callee? = some name) : Outcome line s m (.none m)
  | newline {m : Machine} (kind : s.head.kind = .newline) : Outcome line s m (.write m "\n")
  | report {m : Machine} (p : Problem) (reports : s.reports = true) (unbound : s.bound? = none) :
      Outcome line s m (.report m p)
  /-- A missing comma is reported, and the statement goes on. -/
  | noComma {m : Machine} {e : Effect} (takes : s.operation? = some .mov ∨ s.IsBinding)
      (rest : Outcome line s m.countError e) :
      Outcome line s m ((Effect.report m (.noComma line.number)).andThen fun _ => e)
  | push {m : Machine} {t : Token} {rest : List Token} {n : Int} (op : s.operation? = some .push)
      (operands : s.operands = t :: rest) (number : t.kind = .number n) :
      Outcome line s m (.none (m.push n))
  | pop {m : Machine} (op : s.operation? = some .pop) : Outcome line s m (.none m.pop)
  | compute {m : Machine} {o : Arithmetic} {a b : Int} {below : List Int}
      (op : s.operation? = some (.arithmetic o)) (stack : m.stack = a :: b :: below)
      (divisor : ¬(o = .divs ∧ b = 0)) :
      Outcome line s m (.none { m with stack := o.apply a b :: below })
  | underflow {m : Machine} {o : Arithmetic} (op : s.operation? = some (.arithmetic o))
      (stack : m.stack.length < 2) :
      Outcome line s m (.halt m (.stackUnderflow o.name line.number))
  | zeroDivisor {m : Machine} {a : Int} {below : List Int}
      (op : s.operation? = some (.arithmetic .divs)) (stack : m.stack = a :: 0 :: below) :
      Outcome line s m (.halt m (.divisionByZero line.number))
  | setPort {m : Machine} {dest comma source : Token} {rest : List Token} {i : Nat} {n : Int}
      (op : s.operation? = some .mov) (operands : s.operands = dest :: comma :: source :: rest)
      (kind : dest.kind = .port) (index : fetchPort m line dest = .value i)
      (value : fetchSource m line .port source = .value n) :
      Outcome line s m (.none (m.setPort i n))
  | setAccumulator {m : Machine} {dest comma source : Token} {rest : List Token} {n : Int}
      (op : s.operation? = some .mov) (operands : s.operands = dest :: comma :: source :: rest)
      (kind : dest.kind = .accumulator)
      (value : fetchSource m line .accumulator source = .value n) :
      Outcome line s m (.none (m.setAccumulator n))
  | moveFault {m : Machine} {t : Token} {excess : Decimal.TooLong} (resolves : s.Resolves t)
      (index : m.portIndex t.value = .error excess) : Outcome line s m (.fail m (.digits excess))
  | print {m : Machine} {t : Token} {rest : List Token} {text : String}
      (op : s.operation? = some .print) (operands : s.operands = t :: rest)
      (value : fetchText m line t = .value text) : Outcome line s m (.write m text)
  | printFault {m : Machine} {t : Token} {rest : List Token} {excess : Decimal.TooLong}
      (op : s.operation? = some .print) (operands : s.operands = t :: rest)
      (value : fetchText m line t = .fault (.digits excess)) :
      Outcome line s m (.fail m (.digits excess))
  | bind {m : Machine} {v : Variable} (bound : s.bound? = some v) :
      Outcome line s m ((Effect.none (m.define v)).traced s.events)

variable {line : Line} {s : Statement} {m : Machine}

theorem bound?_of_operation? {op : Operation} (h : s.operation? = some op) : s.bound? = none := by
  have hkind : s.head.kind = .opcode := (operation?_eq_some.mp h).1
  simp [bound?, IsBinding, hkind]

theorem exists_operand_of_bound? {v : Variable} (h : s.bound? = some v) :
    ∃ name, ∃ value ∈ s.operands, binding? name value = some v := by
  unfold bound? at h
  split at h
  · split at h
    · rename_i name comma rest hoperands
      split at h
      · split at h
        · obtain ⟨value, hvalue, hv⟩ := Option.bind_eq_some_iff.mp h
          have hmem : value ∈ rest := List.mem_of_mem_head? hvalue
          exact ⟨name, value, by simp [hoperands, hmem], hv⟩
        · exact ⟨name, comma, by simp [hoperands], h⟩
      · cases h
    · cases h
  · cases h

theorem bound?_of_idles (h : s.idles = true) : s.bound? = none := by
  refine if_neg fun hbinding => ?_
  simp [idles, hbinding.1, hbinding.2] at h

theorem Outcome.report_of_operation? {op : Operation} (h : s.operation? = some op)
    (hcount : 0 < op.operandCount) (p : Problem) : Outcome line s m (.report m p) := by
  obtain ⟨hkind, rfl⟩ := operation?_eq_some.mp h
  exact .report p (by simp [reports, hkind, hcount]) (bound?_of_operation? h)

theorem outcome_runPush (op : s.operation? = some .push) :
    Outcome line s m (runPush line s.operands m).effect := by
  have hreport (p : Problem) : Outcome line s m (.report m p) :=
    .report_of_operation? op (by decide) p
  unfold runPush
  split
  · exact hreport _
  · rename_i t rest hoperands
    split
    · rename_i n hn
      exact .push op hoperands hn
    · exact hreport _

theorem outcome_runArithmetic {o : Arithmetic} (op : s.operation? = some (.arithmetic o)) :
    Outcome line s m (runArithmetic line o m) := by
  rw [runArithmetic_eq]
  split
  · rename_i a b below hstack
    split
    · rename_i hzero
      obtain ⟨rfl, rfl⟩ := hzero
      exact .zeroDivisor op hstack
    · rename_i hdivisor
      exact .compute op hstack hdivisor
  · rename_i hshort
    have hlength : m.stack.length < 2 := by
      match hstack : m.stack with
      | [] => simp
      | [a] => simp
      | a :: b :: below => exact absurd hstack (hshort a b below)
    exact .underflow op hlength

theorem fetchPort_fault {t : Token} {x : Fault} (h : fetchPort m line t = .fault x) :
    ∃ excess, m.portIndex t.value = .error excess ∧ x = .digits excess := by
  unfold fetchPort at h
  split at h
  · rename_i excess hp
    cases h
    exact ⟨excess, hp, rfl⟩
  · cases h
  · cases h

theorem fetchSource_fault {target : Target} {t : Token} {x : Fault}
    (h : fetchSource m line target t = .fault x) :
    t.kind = .port ∧ fetchPort m line t = .fault x := by
  unfold fetchSource at h
  split at h
  · cases h
  · rename_i hkind
    cases hp : fetchPort m line t with
    | value i => simp [hp, Fetch.bind] at h
    | problem p => simp [hp, Fetch.bind] at h
    | fault y =>
      rw [hp] at h
      cases h
      exact ⟨hkind, rfl⟩
  · cases h

theorem outcome_runMove {dest comma source : Token} {rest : List Token}
    (op : s.operation? = some .mov) (operands : s.operands = dest :: comma :: source :: rest)
    (m : Machine) : Outcome line s m (runMove line dest source m) := by
  have hreport (p : Problem) : Outcome line s m (.report m p) :=
    .report_of_operation? op (by decide) p
  have hport : ∀ t x, s.Resolves t → fetchPort m line t = .fault x →
      Outcome line s m (.fail m x) := by
    intro t x ht hx
    obtain ⟨excess, hindex, rfl⟩ := fetchPort_fault hx
    exact .moveFault ht hindex
  have hsource : (dest.kind = .port ∨ dest.kind = .accumulator) → ∀ target x,
      fetchSource m line target source = .fault x → Outcome line s m (.fail m x) := by
    intro hdest target x hx
    obtain ⟨hkind, hx⟩ := fetchSource_fault hx
    exact hport source x (.source op operands hdest hkind) hx
  unfold runMove
  split
  · rename_i hdest
    cases hi : fetchPort m line dest with
    | problem p => exact hreport p
    | fault x => exact hport dest x (.target op operands hdest) hi
    | value i =>
      cases hn : fetchSource m line .port source with
      | value n => simpa [Fetch.run, hn] using .setPort op operands hdest hi hn
      | problem p => simpa [Fetch.run, hn] using hreport p
      | fault x => simpa [Fetch.run, hn] using hsource (.inl hdest) _ x hn
  · rename_i hdest
    cases hn : fetchSource m line .accumulator source with
    | value n => exact .setAccumulator op operands hdest hn
    | problem p => exact hreport p
    | fault x => exact hsource (.inr hdest) _ x hn
  · exact hreport _

theorem outcome_runMov (op : s.operation? = some .mov) :
    Outcome line s m (runMov line s.operands m).effect := by
  unfold runMov
  split
  · rename_i dest comma source rest hoperands
    unfold runComma
    split
    · rw [Effect.none_andThen]
      exact outcome_runMove op hoperands m
    · exact .noComma (.inl op) (outcome_runMove op hoperands m.countError)
  · exact .report_of_operation? op (by decide) _

theorem fetchText_fault {t : Token} {x : Fault} (h : fetchText m line t = .fault x) :
    ∃ excess, x = .digits excess := by
  have hwrite : ∀ r, Fetch.ofWriting r = .fault x → ∃ excess, x = .digits excess := by
    intro r hr
    cases r with
    | ok text => cases hr
    | error excess => cases hr; exact ⟨excess, rfl⟩
  unfold fetchText at h
  split at h
  · cases h
  · exact hwrite _ h
  · exact hwrite _ h
  · exact hwrite _ h
  · cases hp : fetchPort m line t with
    | value i => exact hwrite _ (by simpa [hp, Fetch.bind] using h)
    | problem p => simp [hp, Fetch.bind] at h
    | fault y =>
      obtain ⟨excess, -, rfl⟩ := fetchPort_fault hp
      simp only [hp, Fetch.bind, Fetch.fault.injEq] at h
      exact ⟨excess, h.symm⟩
  · split at h
    · cases h
    · exact hwrite _ h
    · cases h

theorem outcome_runPrint (op : s.operation? = some .print) :
    Outcome line s m (runPrint line s.head s.operands m).effect := by
  have hreport (p : Problem) : Outcome line s m (.report m p) :=
    .report_of_operation? op (by decide) p
  unfold runPrint
  split
  · exact hreport _
  · rename_i t rest hoperands
    cases hx : fetchText m line t with
    | value text => simpa [Fetch.run, hx] using .print op hoperands hx
    | problem p => simpa [Fetch.run, hx] using hreport p
    | fault x =>
      obtain ⟨excess, rfl⟩ := fetchText_fault hx
      simpa [Fetch.run, hx] using .printFault op hoperands hx

theorem outcome_runCall (op : s.operation? = some .call) :
    Outcome line s m (runCall (fun _ => Effect.none) line s.operands m).effect := by
  have hreport (p : Problem) : Outcome line s m (.report m p) :=
    .report_of_operation? op (by decide) p
  unfold runCall
  split
  · exact hreport _
  · rename_i t rest hoperands
    split
    · rename_i hkind
      exact .call (callee?_eq_some.mpr ⟨op, t, rest, hoperands, hkind, rfl⟩)
    · exact hreport _

theorem bindValue_eq (level : Nat) (name value : Token) (m : Machine) :
    bindValue level name value m =
      match binding? name value with
      | some v =>
        (Effect.none (m.define v)).traced (Trace.emit level 2 (.bind name.value value.value))
      | none => .report m .letWrongValue := by
  unfold bindValue binding?
  cases value.kind <;> rfl

theorem outcome_runBinding (head : s.IsBinding) :
    Outcome line s m (runBinding Trace.top line s.operands m).effect := by
  have hreport (p : Problem) (m : Machine) (hunbound : s.bound? = none) :
      Outcome line s m (.report m p) :=
    .report p (by simp [reports, head.1, head.2]) hunbound
  have hbind (m : Machine) {name comma value : Token} {rest : List Token}
      (hoperands : s.operands = name :: comma :: rest)
      (hvalue : value = if comma.kind = .comma then rest.headD comma else comma)
      (hbound : s.bound? = binding? name value) :
      Outcome line s m (bindValue Trace.top name value m) := by
    rw [bindValue_eq]
    cases hv : binding? name value with
    | some v =>
      have hevents : s.events = Trace.emit Trace.top 2 (.bind name.value value.value) := by
        rw [events, hbound, hv, hoperands, hvalue, Trace.emit_of_le (by decide)]
      simpa only [hevents] using Outcome.bind (hbound.trans hv)
    | none => exact hreport _ m (hbound.trans hv)
  have hbound : s.bound? = match s.operands with
    | name :: comma :: rest =>
      if name.kind = .variableName then
        if comma.kind = .comma then rest.head?.bind (binding? name) else binding? name comma
      else none
    | _ => none := by rw [bound?, if_pos head]
  unfold runBinding
  split
  · rename_i hoperands
    exact hreport _ m (by simp [hbound, hoperands])
  · rename_i name rest hoperands
    split
    · rename_i hname
      refine hreport _ m ?_
      cases rest <;> simp_all
    · rename_i hname
      have hname : name.kind = .variableName := by simpa using hname
      split
      · exact .noComma (.inr head) (hreport _ _ (by simp [hbound, hoperands]))
      · rename_i comma rest
        split
        · rename_i hcomma
          split
          · exact hreport _ m (by simp [hbound, hoperands, hname, hcomma])
          · exact hbind m hoperands (by simp [hcomma]) (by simp [hbound, hoperands, hname, hcomma])
        · rename_i hcomma
          exact .noComma (.inr head) (hbind _ hoperands (by simp [hcomma])
            (by simp [hbound, hoperands, hname, hcomma]))

theorem outcome_act (line : Line) (s : Statement) (m : Machine) :
    Outcome line s m (s.act (fun _ => Effect.none) line m) := by
  cases hkind : s.head.kind with
  | opcode =>
    simp only [act, hkind, runOperation]
    cases hop : Operation.ofOpcode s.head.value with
    | push => exact outcome_runPush (operation?_eq_some.mpr ⟨hkind, hop⟩)
    | pop => exact .pop (operation?_eq_some.mpr ⟨hkind, hop⟩)
    | mov => exact outcome_runMov (operation?_eq_some.mpr ⟨hkind, hop⟩)
    | arithmetic o => exact outcome_runArithmetic (operation?_eq_some.mpr ⟨hkind, hop⟩)
    | print => exact outcome_runPrint (operation?_eq_some.mpr ⟨hkind, hop⟩)
    | call => exact outcome_runCall (operation?_eq_some.mpr ⟨hkind, hop⟩)
    | idle => exact .idle (by simp [idles, hkind, hop])
  | keyword =>
    simp only [act, hkind, runKeyword]
    split
    · rename_i hlet
      exact outcome_runBinding ⟨hkind, hlet⟩
    · rename_i hother
      exact .idle (by simp [idles, hkind, hother])
  | newline => simpa only [act, hkind] using .newline hkind
  | label | bracket | string | comment =>
    simpa only [act, hkind] using .idle (by simp [idles, hkind])
  | number | accumulator | port | stack | routineName | variableName | comma | generic =>
    simpa only [act, hkind] using
      .report _ (by simp [reports, hkind]) (by simp [bound?, IsBinding, hkind])

variable {e : Effect}

/-- A statement adds to the variables what it binds and nothing else, and the machine decides
nothing about its events. -/
theorem Outcome.binds (h : Outcome line s m e) :
    e.machine.vars = s.bound?.toList ++ m.vars ∧ e.trace = s.events := by
  have hnone (n : Machine) (hunbound : s.bound? = none) :
      n.vars = s.bound?.toList ++ n.vars ∧ [] = s.events := by
    simp [events, hunbound]
  have hop {op : Operation} (n : Machine) (hop : s.operation? = some op) :
      n.vars = s.bound?.toList ++ n.vars ∧ [] = s.events :=
    hnone n (bound?_of_operation? hop)
  induction h with
  | idle idles => exact hnone _ (bound?_of_idles idles)
  | call callee => exact hop _ (callee?_eq_some.mp callee).1
  | newline kind => exact hnone _ (by simp [bound?, IsBinding, kind])
  | report _ _ unbound => exact hnone _ unbound
  | noComma _ _ ih =>
    rw [Effect.andThen_of_fault_eq_none rfl]
    exact ih
  | push op | pop op | compute op | underflow op | zeroDivisor op => exact hop _ op
  | setPort op | setAccumulator op | print op | printFault op => exact hop _ op
  | moveFault resolves =>
    cases resolves with
    | target op | source op | printed op => exact hop _ op
  | bind bound => simp [bound, Effect.none, Effect.traced, Machine.define]

/-- But for moves and bindings, a statement that reports a problem does nothing else. -/
theorem Outcome.reportsAlone (h : Outcome line s m e) (hmov : s.operation? ≠ some .mov)
    (hbinding : ¬s.IsBinding) (hproblems : e.problems ≠ []) : ∃ p, e = .report m p := by
  cases h with
  | report p => exact ⟨p, rfl⟩
  | noComma takes => exact absurd takes (by simp [hmov, hbinding])
  | _ => exact absurd rfl hproblems

end Statement
end LineAssembly
