import LineAssembly.Proofs.Run.Scope

/-! Where values come from. Ports, accumulator and variables are filled from the literals in the
bodies of the routines, directly or by way of another port, and what they hold never hangs on the
stack. -/
namespace LineAssembly
namespace Program

def HasToken (p : Program) (t : Token) : Prop := ∃ r ∈ p.routines, ∃ l ∈ r.lines, t ∈ l.tokens

def HasNumber (p : Program) (n : Int) : Prop := ∃ t, p.HasToken t ∧ t.kind = .number n

def HasString (p : Program) (text : String) : Prop :=
  ∃ t, p.HasToken t ∧ t.kind = .string ∧ t.value = text

/-- What a register may hold: the zero that it started with, or a number of the program. -/
def Supplies (p : Program) (n : Int) : Prop := n = 0 ∨ p.HasNumber n

/-- Whatever the machine holds beside its stack is a literal of the program. -/
structure Fills (p : Program) (m : Machine) : Prop where
  ports : ∀ n ∈ m.ports, p.Supplies n
  accumulator : p.Supplies m.accumulator
  numbers : ∀ name n, Variable.number name n ∈ m.vars → p.HasNumber n
  strings : ∀ name text, Variable.string name text ∈ m.vars → p.HasString text

end Program

/-- Machines that agree in all that they hold beside their stacks. -/
structure Machine.SameRegisters (m n : Machine) : Prop where
  ports : m.ports = n.ports
  accumulator : m.accumulator = n.accumulator
  vars : m.vars = n.vars

theorem Machine.port_eq_zero_or_mem (m : Machine) (i : Nat) :
    m.port i = 0 ∨ m.port i ∈ m.ports := by
  unfold port
  cases hi : m.ports[i]? with
  | none => exact Or.inl (by simp [List.getD, hi])
  | some n => exact Or.inr (by simpa [List.getD, hi] using List.mem_of_getElem? hi)

namespace Program.Fills

variable {p : Program} {m n : Machine}

theorem of_sameRegisters (h : p.Fills m) (hn : n.SameRegisters m) : p.Fills n where
  ports := hn.ports ▸ h.ports
  accumulator := hn.accumulator ▸ h.accumulator
  numbers := hn.vars ▸ h.numbers
  strings := hn.vars ▸ h.strings

theorem supplies_port (h : p.Fills m) (i : Nat) : p.Supplies (m.port i) := by
  rcases m.port_eq_zero_or_mem i with hzero | hmem
  · exact Or.inl hzero
  · exact h.ports _ hmem

theorem setPort (h : p.Fills m) (i : Nat) {k : Int} (hk : p.Supplies k) :
    p.Fills (m.setPort i k) where
  ports := by
    intro x hx
    rcases List.mem_or_eq_of_mem_set hx with hx | rfl
    · exact h.ports x hx
    · exact hk
  accumulator := h.accumulator
  numbers := h.numbers
  strings := h.strings

theorem setAccumulator (h : p.Fills m) {k : Int} (hk : p.Supplies k) :
    p.Fills (m.setAccumulator k) :=
  ⟨h.ports, hk, h.numbers, h.strings⟩

theorem define (h : p.Fills m) {v : Variable}
    (hnumber : ∀ name k, v = .number name k → p.HasNumber k)
    (hstring : ∀ name text, v = .string name text → p.HasString text) : p.Fills (m.define v) where
  ports := h.ports
  accumulator := h.accumulator
  numbers := by
    intro name k hk
    rcases List.mem_cons.mp hk with hk | hk
    · exact hnumber name k hk.symm
    · exact h.numbers name k hk
  strings := by
    intro name text htext
    rcases List.mem_cons.mp htext with htext | htext
    · exact hstring name text htext.symm
    · exact h.strings name text htext

theorem clearVariables (h : p.Fills m) : p.Fills m.clearVariables where
  ports := h.ports
  accumulator := h.accumulator
  numbers := fun _ _ hk => nomatch hk
  strings := fun _ _ htext => nomatch htext

end Program.Fills

namespace Statement

variable {line : Line} {s : Statement} {m n : Machine} {e : Effect}

theorem fetchSource_value {target : Target} {t : Token} {k : Int}
    (h : fetchSource m line target t = .value k) : t.kind = .number k ∨ ∃ i, k = m.port i := by
  unfold fetchSource at h
  split at h
  · rename_i hkind
    cases h
    exact Or.inl hkind
  · cases hi : fetchPort m line t with
    | value i =>
      rw [hi] at h
      cases h
      exact Or.inr ⟨i, rfl⟩
    | problem q => rw [hi] at h; cases h
    | fault x => rw [hi] at h; cases h
  · cases h

theorem supplies_of_fetchSource {p : Program} (hm : p.Fills m) {target : Target} {t : Token}
    (ht : p.HasToken t) {k : Int} (h : fetchSource m line target t = .value k) : p.Supplies k := by
  rcases fetchSource_value h with hkind | ⟨i, rfl⟩
  · exact Or.inr ⟨t, ht, hkind⟩
  · exact hm.supplies_port i

theorem fills_define {p : Program} (hm : p.Fills m) {v : Variable} {name value : Token}
    (hvalue : p.HasToken value) (hv : binding? name value = some v) : p.Fills (m.define v) := by
  unfold binding? at hv
  split at hv
  · rename_i hkind
    cases hv
    refine hm.define (fun _ _ h => by cases h) ?_
    rintro _ _ ⟨⟩
    exact ⟨value, hvalue, hkind, rfl⟩
  · rename_i k hkind
    cases hv
    refine hm.define ?_ fun _ _ h => by cases h
    rintro _ _ ⟨⟩
    exact ⟨value, hvalue, hkind⟩
  · cases hv

/-- A statement whose operands stand in the program fills the machine from the program. -/
theorem Outcome.fills {p : Program} (h : Outcome line s m e) (hs : ∀ t ∈ s.operands, p.HasToken t)
    (hm : p.Fills m) : p.Fills e.machine := by
  induction h with
  | noComma _ _ ih => exact ih (hm.of_sameRegisters ⟨rfl, rfl, rfl⟩)
  | @setPort m dest comma source rest i k op operands kind index value =>
    exact hm.setPort i (supplies_of_fetchSource hm (hs source (by simp [operands])) value)
  | @setAccumulator m dest comma source rest k op operands kind value =>
    exact hm.setAccumulator (supplies_of_fetchSource hm (hs source (by simp [operands])) value)
  | bind bound =>
    obtain ⟨name, value, hvalue, hv⟩ := exists_operand_of_bound? bound
    exact fills_define hm (hs value hvalue) hv
  | _ => exact hm.of_sameRegisters ⟨rfl, rfl, rfl⟩

theorem Outcome.ports_eq (h : Outcome line s m e) (hop : s.operation? ≠ some .mov) :
    e.machine.ports = m.ports ∧ e.machine.accumulator = m.accumulator := by
  induction h with
  | noComma _ _ ih => exact ih
  | setPort op => exact absurd op hop
  | setAccumulator op => exact absurd op hop
  | _ => exact ⟨rfl, rfl⟩

theorem fetchPort_of_ports_eq (h : m.ports = n.ports) (line : Line) (t : Token) :
    fetchPort m line t = fetchPort n line t := by
  simp only [fetchPort, Machine.portIndex, h]

theorem fetchSource_of_ports_eq (h : m.ports = n.ports) (line : Line) (target : Target)
    (t : Token) : fetchSource m line target t = fetchSource n line target t := by
  simp only [fetchSource, fetchPort_of_ports_eq h, Machine.port, h]

theorem sameRegisters_runMove (h : m.SameRegisters n) (line : Line) (dest source : Token) :
    (runMove line dest source m).machine.SameRegisters (runMove line dest source n).machine := by
  unfold runMove
  split
  · rw [fetchPort_of_ports_eq h.ports, fetchSource_of_ports_eq h.ports]
    cases fetchPort n line dest with
    | value i =>
      cases fetchSource n line .port source with
      | value k => exact ⟨congrArg (List.set · i k) h.ports, h.accumulator, h.vars⟩
      | problem q => exact ⟨h.ports, h.accumulator, h.vars⟩
      | fault x => exact h
    | problem q => exact ⟨h.ports, h.accumulator, h.vars⟩
    | fault x => exact h
  · rw [fetchSource_of_ports_eq h.ports]
    cases fetchSource n line .accumulator source with
    | value k => exact ⟨h.ports, rfl, h.vars⟩
    | problem q => exact ⟨h.ports, h.accumulator, h.vars⟩
    | fault x => exact h
  · exact ⟨h.ports, h.accumulator, h.vars⟩

theorem sameRegisters_runMov (h : m.SameRegisters n) (line : Line) (operands : List Token) :
    (runMov line operands m).effect.machine.SameRegisters
      (runMov line operands n).effect.machine := by
  unfold runMov
  split
  · unfold runComma
    split
    · exact sameRegisters_runMove h line _ _
    · have hcount : m.countError.SameRegisters n.countError := ⟨h.ports, h.accumulator, h.vars⟩
      exact sameRegisters_runMove hcount line _ _
  · exact ⟨h.ports, h.accumulator, h.vars⟩

/-- A statement on its own leaves registers that do not hang on the stack it finds. -/
theorem sameRegisters_runAlone (h : m.SameRegisters n) (line : Line) (s : Statement) :
    (s.runAlone line m).machine.SameRegisters (s.runAlone line n).machine := by
  by_cases hop : s.operation? = some .mov
  · have hrun : ∀ k, (s.runAlone line k).machine = (runMov line s.operands k).effect.machine := by
      intro k
      rw [runAlone, run, Effect.machine_traced, act_of_operation? hop, runOperation,
        (operation?_eq_some.mp hop).2]
    rw [hrun, hrun]
    exact sameRegisters_runMov h line s.operands
  · obtain ⟨hports, haccumulator⟩ := (outcome_act line s m).ports_eq hop
    obtain ⟨hports', haccumulator'⟩ := (outcome_act line s n).ports_eq hop
    constructor
    · exact hports.trans (h.ports.trans hports'.symm)
    · exact haccumulator.trans (h.accumulator.trans haccumulator'.symm)
    · rw [vars_runAlone, vars_runAlone, h.vars]

end Statement

namespace Step

variable {m n : Machine}

theorem sameRegisters_run (h : m.SameRegisters n) (x : Step) :
    (x.run m).machine.SameRegisters (x.run n).machine := by
  cases x with
  | statement line s => exact Statement.sameRegisters_runAlone h line s
  | leave routine => exact ⟨h.ports, h.accumulator, rfl⟩
  | enter routine lines => exact h
  | unknown routine => exact ⟨h.ports, h.accumulator, h.vars⟩
  | tooDeep routine => exact h

/-- Two runs through the same steps that both return leave the same registers, whatever their
stacks. -/
theorem sameRegisters_perform (h : m.SameRegisters n) {steps : List Step}
    (hm : (perform steps m).fault = none) (hn : (perform steps n).fault = none) :
    (perform steps m).machine.SameRegisters (perform steps n).machine := by
  induction steps generalizing m n with
  | nil => exact h
  | cons x steps ih =>
    obtain ⟨hxm, hm⟩ := Effect.fault_andThen_eq_none.mp hm
    obtain ⟨hxn, hn⟩ := Effect.fault_andThen_eq_none.mp hn
    have hrest := ih (sameRegisters_run h x) hm hn
    simp only [perform, Effect.sequence, Effect.andThen_of_fault_eq_none hxm,
      Effect.andThen_of_fault_eq_none hxn]
    exact hrest

theorem fills_run {p : Program} (hm : p.Fills m) {x : Step}
    (hx : ∀ line s, x = .statement line s → ∀ t ∈ s.operands, p.HasToken t) :
    p.Fills (x.run m).machine := by
  cases x with
  | statement line s => exact (Statement.outcome_act line s m).fills (hx line s rfl) hm
  | leave routine => exact hm.clearVariables
  | enter routine lines => exact hm
  | unknown routine => exact hm.of_sameRegisters ⟨rfl, rfl, rfl⟩
  | tooDeep routine => exact hm

end Step

namespace Program

variable {p : Program} {limit : Nat} {entry : String}

/-- The machines that a run passes through: those that the parts of its script lead to, up to a step
that faults, and the one that it ends with. -/
inductive Visits (p : Program) (limit : Nat) (entry : String) : Machine → Prop where
  | during {steps : List Step} (part : steps <+: p.script limit entry) :
      Visits p limit entry (Step.perform steps p.freshMachine).machine
  | final : Visits p limit entry (p.runWithin limit entry).machine

theorem hasToken_of_mem_operands {line : Line} {s : Statement}
    (h : Step.statement line s ∈ p.script limit entry) : ∀ t ∈ s.operands, p.HasToken t := by
  intro t ht
  obtain ⟨r, hr, hline, hs⟩ := mem_routines_of_mem_script h
  refine ⟨r, hr, line, hline, ?_⟩
  rw [← Statement.flatMap_split line.tokens]
  exact List.mem_flatMap.mpr ⟨s, hs, List.mem_cons_of_mem _ ht⟩

theorem fills_freshMachine (p : Program) : p.Fills p.freshMachine where
  ports := fun _ hn => Or.inl (List.eq_of_mem_replicate hn)
  accumulator := Or.inl rfl
  numbers := fun _ _ hn => nomatch hn
  strings := fun _ _ htext => nomatch htext

theorem fills_perform {steps : List Step} (h : steps <+: p.script limit entry) :
    p.Fills (Step.perform steps p.freshMachine).machine := by
  apply Effect.machine_sequence (P := p.Fills) (fills_freshMachine p)
  intro x hx n hn
  apply Step.fills_run hn
  rintro line s rfl
  exact hasToken_of_mem_operands (h.subset hx)

theorem sameRegisters_closeRun (entry : String) (e : Effect) :
    (closeRun entry e).machine.SameRegisters e.machine := by
  unfold closeRun
  split <;> exact ⟨rfl, rfl, rfl⟩

theorem Visits.fills {m : Machine} (h : p.Visits limit entry m) : p.Fills m := by
  cases h with
  | during part => exact fills_perform part
  | final =>
    have hend := fills_perform (List.prefix_refl (p.script limit entry))
    rw [← runRoutine_eq_perform] at hend
    exact hend.of_sameRegisters (sameRegisters_closeRun entry _)

theorem HasNumber.nonneg {text : String} {tilde : Bool}
    (hp : (Program.read text tilde).result = .ok p) {n : Int} (h : p.HasNumber n) : 0 ≤ n := by
  obtain ⟨t, ⟨r, hr, x, hx, ht⟩, hkind⟩ := h
  obtain ⟨listing, hread, rfl⟩ := exists_listing_of_read hp
  obtain ⟨l, hl, hpart⟩ := Extraction.exists_partOf hr hx
  have htl : t ∈ Item.tokens l.items := (hread.lines l hl).tokens_eq ▸ hpart.tokens.subset ht
  obtain ⟨-, k, -, rfl⟩ := denotes_of_mem_tokens htl n hkind
  exact Int.natCast_nonneg k

theorem Supplies.nonneg {text : String} {tilde : Bool}
    (hp : (Program.read text tilde).result = .ok p) {n : Int} (h : p.Supplies n) : 0 ≤ n := by
  rcases h with rfl | h
  · exact Int.le_refl 0
  · exact h.nonneg hp

/-- On every machine that a run passes through, ports and accumulator hold zero or a number from the
body of a routine, number variables such a number, and string variables a string literal from there.
So they are never negative in a program that was read. Nothing gets into them from the stack: with
any other stack in its place, the steps that follow leave the same registers, unless one of the two
runs is stopped. -/
theorem registers_hold_literals (p : Program) (limit : Nat) (entry : String) :
    (∀ m, p.Visits limit entry m → p.Fills m) ∧
    (∀ text tilde, (Program.read text tilde).result = .ok p → ∀ m, p.Visits limit entry m →
      (∀ n ∈ m.ports, 0 ≤ n) ∧ 0 ≤ m.accumulator ∧
        ∀ name n, Variable.number name n ∈ m.vars → 0 ≤ n) ∧
    ∀ steps m stack,
      let e := Step.perform steps m
      let f := Step.perform steps { m with stack := stack }
      e.fault = none → f.fault = none → e.machine.SameRegisters f.machine := by
  refine ⟨fun m h => h.fills, ?_, ?_⟩
  · intro text tilde hp m h
    have hm := h.fills
    exact ⟨fun n hn => (hm.ports n hn).nonneg hp, hm.accumulator.nonneg hp,
      fun name n hn => (hm.numbers name n hn).nonneg hp⟩
  · intro steps m stack e f he hf
    have hsame : m.SameRegisters { m with stack := stack } := ⟨rfl, rfl, rfl⟩
    exact Step.sameRegisters_perform hsame he hf

/-- The product is on the stack when the move begins. It takes the number `8`, and with another
product there it would leave the same. -/
theorem registers_beside_product :
    let header : Line := ⟨[⟨.keyword, "fn", 0⟩, ⟨.routineName, "f", 3⟩, ⟨.bracket, "(", 5⟩,
      ⟨.bracket, ")", 7⟩], "fn f ( )", 1, none⟩
    let product : Line := ⟨[⟨.opcode, "push", 0⟩, ⟨.number 2, "2", 5⟩, ⟨.opcode, "push", 7⟩,
      ⟨.number 3, "3", 12⟩, ⟨.opcode, "muls", 14⟩], "push 2 push 3 muls", 2, none⟩
    let move : Line := ⟨[⟨.opcode, "mov", 0⟩, ⟨.accumulator, "A", 4⟩, ⟨.number 7, "7", 6⟩,
      ⟨.number 8, "8", 8⟩], "mov A 7 8", 3, none⟩
    let p : Program := { routines := [⟨"f", [], [product, move]⟩], lines := [header, product, move] }
    let steps := p.script 1 "f"
    let m := (Step.perform (steps.take 4) p.freshMachine).machine
    let n := (Step.perform (steps.take 5) p.freshMachine).machine
    (Program.read "fn f ( )\npush 2 push 3 muls\nmov A 7 8\n" false).result = .ok p ∧
      m.stack = [6] ∧ n.accumulator = 8 ∧ p.HasNumber 8 ∧ (∀ k ∈ n.ports, 0 ≤ k) ∧
      (Step.perform ((steps.drop 4).take 1) m).machine.SameRegisters
        (Step.perform ((steps.drop 4).take 1) { m with stack := [60] }).machine := by
  intro header product move p steps m n
  obtain ⟨hfills, hnonneg, hsame⟩ := registers_hold_literals p 1 "f"
  have hp : (Program.read "fn f ( )\npush 2 push 3 muls\nmov A 7 8\n" false).result = .ok p := by
    decide +kernel
  have hn : p.Visits 1 "f" n := .during (List.take_prefix 5 steps)
  have haccumulator : n.accumulator = 8 := by decide +kernel
  refine ⟨hp, by decide +kernel, haccumulator, ?_, (hnonneg _ _ hp n hn).1, ?_⟩
  · rcases (hfills n hn).accumulator with hzero | hnumber
    · rw [haccumulator] at hzero
      cases hzero
    · rwa [haccumulator] at hnumber
  · exact hsame _ m [60] (by decide +kernel) (by decide +kernel)

end Program
end LineAssembly
