import LineAssembly.Proofs.Run.Noninterference
import LineAssembly.Proofs.Run.Outcome

/-! How runs fail. A statement stops a run in one of four ways, and a run of a program that was read
ends by one of them or by calls nested too deep: numbers and ports are always there to be taken, and
only the stack holds numbers that are too long to be printed. -/
namespace LineAssembly
namespace Statement

/-- Why a statement stops a run, and the fault that it ends in. -/
inductive Stops (line : Line) (s : Statement) (m : Machine) : Fault → Prop where
  | underflow {o : Arithmetic} (op : s.operation? = some (.arithmetic o))
      (stack : m.stack.length < 2) : Stops line s m (.halt (.stackUnderflow o.name line.number))
  | zeroDivisor {a : Int} {below : List Int} (op : s.operation? = some (.arithmetic .divs))
      (stack : m.stack = a :: 0 :: below) : Stops line s m (.halt (.divisionByZero line.number))
  | port {t : Token} {excess : Decimal.TooLong} (resolves : s.Resolves t)
      (index : m.portIndex t.value = .error excess) : Stops line s m (.digits excess)
  | text {t : Token} {rest : List Token} {excess : Decimal.TooLong}
      (op : s.operation? = some .print) (operands : s.operands = t :: rest)
      (value : fetchText m line t = .fault (.digits excess)) : Stops line s m (.digits excess)

variable {line : Line} {s : Statement} {m : Machine} {x : Fault}

theorem Stops.of_countError (h : s.Stops line m.countError x) : s.Stops line m x := by
  cases h with
  | underflow op stack => exact .underflow op stack
  | zeroDivisor op stack => exact .zeroDivisor op stack
  | port resolves index => exact .port resolves index
  | text op operands value => exact .text op operands value

theorem Outcome.stops {e : Effect} (h : Outcome line s m e) (hx : e.fault = some x) :
    s.Stops line m x := by
  induction h with
  | noComma _ _ ih => exact (ih hx).of_countError
  | underflow op stack => cases hx; exact .underflow op stack
  | zeroDivisor op stack => cases hx; exact .zeroDivisor op stack
  | moveFault resolves index => cases hx; exact .port resolves index
  | printFault op operands value => cases hx; exact .text op operands value
  | _ => cases hx

theorem stops_of_fault (h : (s.runAlone line m).fault = some x) : s.Stops line m x :=
  (outcome_act line s m).stops h

/-- The statement prints the stack. -/
structure PrintsStack (s : Statement) : Prop where
  op : s.operation? = some .print
  operand : ∃ t, s.operands.head? = some t ∧ t.kind = .stack

theorem exists_of_fault?_writeList {ns : List Int} {excess : Decimal.TooLong}
    (h : (Fetch.ofWriting (Decimal.writeList ns)).fault? = some (.digits excess)) :
    excess = .writing ∧ ∃ n ∈ ns, Decimal.fits n = false := by
  unfold Decimal.writeList at h
  split at h
  · cases h
  · rename_i hlong
    cases h
    exact ⟨rfl, by simpa using hlong⟩

/-- Within the limit, a number that is too long is that of a port or one on a stack that is
printed. -/
theorem Stops.digits_cases {excess : Decimal.TooLong} (h : s.Stops line m (.digits excess))
    (hm : m.WithinLimit) (hfits : ∀ t ∈ s.operands, t.Fits) :
    (∃ t, s.Resolves t ∧ m.portIndex t.value = .error excess) ∨
      excess = .writing ∧ s.PrintsStack ∧ ∃ n ∈ m.stack, Decimal.fits n = false := by
  cases h with
  | port resolves index => exact Or.inl ⟨_, resolves, index⟩
  | @text t rest _ op operands value =>
    have ht : t.Fits := hfits t (by simp [operands])
    have hfault := fault?_fetchText hm ht line
    rw [value] at hfault
    split at hfault
    · rename_i hport
      obtain ⟨excess', hindex, hx⟩ := fetchPort_fault (Fetch.eq_fault hfault.symm)
      cases hx
      exact Or.inl ⟨t, .printed op operands hport, hindex⟩
    · split at hfault
      · rename_i hstack
        obtain ⟨rfl, n, hn, hlong⟩ := exists_of_fault?_writeList hfault.symm
        exact Or.inr ⟨rfl, ⟨op, t, by simp [operands], hstack⟩, n, List.mem_reverse.mp hn, hlong⟩
      · cases hfault

/-- A statement that finds whatever it takes: its numbers are there and are those of their texts,
what it looks up among the ports is a port, and what it prints, if it is not the stack and no
numeral of a port is too long, does not stop the run. -/
structure Safe (line : Line) (s : Statement) (m : Machine) : Prop where
  numbers : ∀ t ∈ s.operands, t.Denotes
  ports : ∀ t i, s.Resolves t → m.portIndex t.value = .ok (some i) →
    i < portCount ∧ m.ports[i]? = some (m.port i)
  prints : ∀ t, s.operation? = some .print → s.operands.head? = some t → t.kind ≠ .stack →
    (t.kind = .port → ∃ i, m.portIndex t.value = .ok i) → (s.runAlone line m).fault = none

theorem withinLimit_runAlone (hm : m.WithinLimit) (hfits : ∀ t ∈ s.operands, t.Fits) (line : Line) :
    (s.runAlone line m).machine.WithinLimit := by
  have hidle : Caller.Respects (fun _ => Effect.none) Machine.SameStack Effect.SameEnd :=
    fun _ _ _ h => Effect.sameEnd_congruence.none h
  have hsame : m.SameStack m := ⟨rfl, hm, hm⟩
  exact (sameEnd_act hidle hsame line hfits).machine.left

theorem fault_of_print (hm : m.WithinLimit) (hfits : ∀ t ∈ s.operands, t.Fits) {t : Token}
    (op : s.operation? = some .print) (operand : s.operands.head? = some t)
    (hstack : t.kind ≠ .stack) (hport : t.kind = .port → ∃ i, m.portIndex t.value = .ok i)
    (line : Line) : (s.runAlone line m).fault = none := by
  cases hx : (s.runAlone line m).fault with
  | none => rfl
  | some x =>
    have hstops := stops_of_fault hx
    have hdigits : ∃ excess, x = .digits excess := by
      cases hstops with
      | underflow op' _ => rw [op] at op'; cases op'
      | zeroDivisor op' _ => rw [op] at op'; cases op'
      | port _ _ => exact ⟨_, rfl⟩
      | text _ _ _ => exact ⟨_, rfl⟩
    obtain ⟨excess, rfl⟩ := hdigits
    rcases hstops.digits_cases hm hfits with ⟨u, hu, hindex⟩ | ⟨-, ⟨-, u, hu, hkind⟩, -⟩
    · cases hu with
      | target op' => rw [op] at op'; cases op'
      | source op' => rw [op] at op'; cases op'
      | printed _ operands kind =>
        obtain rfl : u = t := by simpa [operands] using operand
        obtain ⟨i, hi⟩ := hport kind
        rw [hindex] at hi
        cases hi
    · rw [operand, Option.some.injEq] at hu
      exact absurd (hu ▸ hkind) hstack

end Statement

namespace Program

theorem exists_dispatches_of_fault_runRoutine {p : Program} {limit : Nat} {entry : String}
    {x : Fault} (h : (p.runRoutine limit entry p.freshMachine).fault = some x) :
    (∃ before line s m, p.Dispatches limit entry before line s m ∧
      (s.runAlone line m).fault = some x) ∨ x = .nesting := by
  rw [runRoutine_eq_perform] at h
  obtain ⟨before, step, n, hreach, hstep, -⟩ := Step.exists_reaches_of_fault h
  cases step with
  | statement line s => exact Or.inl ⟨before, line, s, n, hreach, hstep⟩
  | tooDeep routine =>
    cases hstep
    exact Or.inr rfl
  | enter routine lines => cases hstep
  | leave routine => cases hstep
  | unknown routine => cases hstep

theorem exists_dispatches_of_fault {p : Program} {limit : Nat} {entry : String} {x : Fault}
    (h : (p.runWithin limit entry).fault = some x) :
    (∃ before line s m, p.Dispatches limit entry before line s m ∧
      (s.runAlone line m).fault = some x) ∨
      x = .halt (.callDepth entry) ∧
        (p.runRoutine limit entry p.freshMachine).fault = some .nesting := by
  by_cases hnesting : (p.runRoutine limit entry p.freshMachine).fault = some .nesting
  · rw [runWithin, fault_closeRun_of_nesting hnesting] at h
    cases h
    exact Or.inr ⟨rfl, hnesting⟩
  · rw [runWithin, closeRun_of_fault_ne hnesting] at h
    obtain hstep | rfl := exists_dispatches_of_fault_runRoutine h
    · exact Or.inl hstep
    · exact absurd h hnesting

/-- Whatever the program, these are the faults that a run can end in. -/
theorem fault_cases {p : Program} {limit : Nat} {entry : String} {x : Fault}
    (h : (p.runWithin limit entry).fault = some x) :
    x = .halt (.callDepth entry) ∨ (∃ op line, x = .halt (.stackUnderflow op line)) ∨
      (∃ line, x = .halt (.divisionByZero line)) ∨ ∃ excess, x = .digits excess := by
  obtain ⟨before, line, s, m, -, hx⟩ | ⟨rfl, -⟩ := exists_dispatches_of_fault h
  · cases Statement.stops_of_fault hx with
    | underflow op stack => exact Or.inr (Or.inl ⟨_, _, rfl⟩)
    | zeroDivisor op stack => exact Or.inr (Or.inr (Or.inl ⟨_, rfl⟩))
    | port resolves index => exact Or.inr (Or.inr (Or.inr ⟨_, rfl⟩))
    | text op operands value => exact Or.inr (Or.inr (Or.inr ⟨_, rfl⟩))
  · exact Or.inl rfl

section Read

variable {text : String} {tilde : Bool} {p : Program}

theorem withinLimit_freshMachine (p : Program) : p.freshMachine.WithinLimit := by
  have hzero : Decimal.fits 0 = true := by decide
  refine ⟨rfl, ?_, hzero, ?_⟩
  · intro n hn
    rw [List.eq_of_mem_replicate hn, hzero]
  · intro name n hn
    cases hn

theorem fits_of_mem_script (hp : (Program.read text tilde).result = .ok p) {limit : Nat}
    {entry : String} {line : Line} {s : Statement}
    (h : Step.statement line s ∈ p.script limit entry) : ∀ t ∈ s.operands, t.Fits := by
  obtain ⟨r, hr, hl, hs⟩ := mem_routines_of_mem_script h
  exact fits_of_mem_operands hp hr hl hs

theorem withinLimit_of_reaches (hp : (Program.read text tilde).result = .ok p) {limit : Nat}
    {entry : String} {before : List Step} {step : Step} {m : Machine}
    (h : Step.Reaches (p.script limit entry) p.freshMachine before step m) : m.WithinLimit := by
  apply h.invariant (P := fun _ n => n.WithinLimit) (withinLimit_freshMachine p)
  intro _ step hstep n hn _
  cases step with
  | statement line s => exact Statement.withinLimit_runAlone hn (fits_of_mem_script hp hstep) line
  | leave routine => exact hn.clearVariables
  | unknown routine => exact hn.countError
  | enter routine lines => exact hn
  | tooDeep routine => exact hn

theorem exists_line_of_dispatches (hp : (Program.read text tilde).result = .ok p) {limit : Nat}
    {entry : String} {before : List Step} {line : Line} {s : Statement} {m : Machine}
    (h : p.Dispatches limit entry before line s m) :
    ∃ l ∈ p.lines, line.number = l.number ∧ ∀ t ∈ s.operands, t.Denotes := by
  obtain ⟨r, hr, hline, hs⟩ := mem_routines_of_mem_script (Step.Reaches.mem h)
  obtain ⟨listing, hread, rfl⟩ := exists_listing_of_read hp
  obtain ⟨l, hl, hpart⟩ := Extraction.exists_partOf hr hline
  refine ⟨l, hl, hpart.number, ?_⟩
  intro t ht
  have htokens : t ∈ line.tokens := by
    rw [← Statement.flatMap_split line.tokens]
    exact List.mem_flatMap.mpr ⟨s, hs, List.mem_cons_of_mem _ ht⟩
  have htl := hpart.tokens.subset htokens
  rw [(hread.lines l hl).tokens_eq] at htl
  exact denotes_of_mem_tokens htl

theorem safe_of_dispatches (hp : (Program.read text tilde).result = .ok p) {limit : Nat}
    {entry : String} {before : List Step} {line : Line} {s : Statement} {m : Machine}
    (h : p.Dispatches limit entry before line s m) : s.Safe line m := by
  have hm := withinLimit_of_reaches hp h
  have hfits := fits_of_mem_script hp (Step.Reaches.mem h)
  obtain ⟨-, -, -, hnumbers⟩ := exists_line_of_dispatches hp h
  refine ⟨hnumbers, ?_, ?_⟩
  · intro t i _ hi
    have hlt := Machine.portIndex_lt hi
    exact ⟨hm.length_ports ▸ hlt, by simp [Machine.port, hlt]⟩
  · intro t op operand hstack hport
    exact Statement.fault_of_print hm hfits op operand hstack hport line

end Read

/-- The ways in which a run may fail, each with what it comes to there. -/
inductive Fails (p : Program) (limit : Nat) (entry : String) : Fault → Prop where
  | underflow {before : List Step} {line l : Line} {s : Statement} {m : Machine} {o : Arithmetic}
      (dispatches : p.Dispatches limit entry before line s m) (mem : l ∈ p.lines)
      (number : line.number = l.number) (op : s.operation? = some (.arithmetic o))
      (stack : m.stack.length < 2) : Fails p limit entry (.halt (.stackUnderflow o.name l.number))
  | zeroDivisor {before : List Step} {line l : Line} {s : Statement} {m : Machine} {a : Int}
      {below : List Int} (dispatches : p.Dispatches limit entry before line s m) (mem : l ∈ p.lines)
      (number : line.number = l.number) (op : s.operation? = some (.arithmetic .divs))
      (stack : m.stack = a :: 0 :: below) : Fails p limit entry (.halt (.divisionByZero l.number))
  | callDepth : Fails p limit entry (.halt (.callDepth entry))
  /-- The numeral of a port, which stands behind the first character, is over the limit. -/
  | port {before : List Step} {line : Line} {s : Statement} {m : Machine} {t : Token}
      (dispatches : p.Dispatches limit entry before line s m) (resolves : s.Resolves t)
      (numeral : Decimal.isNumeral (t.value.toList.drop 1) = true)
      (digits : Decimal.limit < (t.value.toList.drop 1).length)
      (fault : (s.runAlone line m).fault =
        some (.digits (.reading (t.value.toList.drop 1).length))) :
      Fails p limit entry (.digits (.reading (t.value.toList.drop 1).length))
  | stack {before : List Step} {line : Line} {s : Statement} {m : Machine} {n : Int}
      (dispatches : p.Dispatches limit entry before line s m) (prints : s.PrintsStack)
      (mem : n ∈ m.stack) (digits : Decimal.limit < (Decimal.digits n.natAbs).length)
      (fault : (s.runAlone line m).fault = some (.digits .writing)) :
      Fails p limit entry (.digits .writing)

theorem fails_of_dispatches {text : String} {tilde : Bool} {p : Program}
    (hp : (Program.read text tilde).result = .ok p) {limit : Nat} {entry : String}
    {before : List Step} {line : Line} {s : Statement} {m : Machine} {x : Fault}
    (h : p.Dispatches limit entry before line s m) (hx : (s.runAlone line m).fault = some x) :
    p.Fails limit entry x := by
  obtain ⟨l, hl, hnumber, -⟩ := exists_line_of_dispatches hp h
  -- the lookup of a port and the text of an operand share their cause
  have hdigits : ∀ excess, (s.runAlone line m).fault = some (.digits excess) →
      p.Fails limit entry (.digits excess) := by
    intro excess hx
    have hm := withinLimit_of_reaches hp h
    have hfits := fits_of_mem_script hp (Step.Reaches.mem h)
    obtain ⟨t, ht, hindex⟩ | ⟨rfl, hprints, n, hn, hlong⟩ :=
      (Statement.stops_of_fault hx).digits_cases hm hfits
    · obtain ⟨hnumeral, hlength, rfl⟩ := Machine.portIndex_eq_error.mp hindex
      exact .port h ht hnumeral hlength hx
    · exact .stack h hprints hn (by simpa [Decimal.fits] using hlong) hx
  cases Statement.stops_of_fault hx with
  | underflow op stack =>
    rw [hnumber]
    exact .underflow h hl hnumber op stack
  | zeroDivisor op stack =>
    rw [hnumber]
    exact .zeroDivisor h hl hnumber op stack
  | port resolves index => exact hdigits _ hx
  | text op operands value => exact hdigits _ hx

/-- A run of a program that was read returns, or it fails in one of these ways. Every statement on
the way finds what it takes. -/
theorem runWithin_returns_or_fails {text : String} {tilde : Bool} {p : Program}
    (hp : (Program.read text tilde).result = .ok p) (limit : Nat) (entry : String) :
    ((p.runWithin limit entry).fault = none ∨
      ∃ x, (p.runWithin limit entry).fault = some x ∧ p.Fails limit entry x) ∧
    ∀ before line s m, p.Dispatches limit entry before line s m → s.Safe line m := by
  refine ⟨?_, fun before line s m h => safe_of_dispatches hp h⟩
  cases hx : (p.runWithin limit entry).fault with
  | none => exact Or.inl rfl
  | some x =>
    refine Or.inr ⟨x, rfl, ?_⟩
    obtain ⟨before, line, s, m, h, hstep⟩ | ⟨rfl, -⟩ := exists_dispatches_of_fault hx
    · exact fails_of_dispatches hp h hstep
    · exact .callDepth

/-- Printing the port goes well, and `adds` then finds a single value. -/
theorem runWithin_fails_of_adds :
    let reading := Program.read "fn main ( )\npush 1\nprnt P3\nadds\n" false
    let x : Fault := .halt (.stackUnderflow "adds" 4)
    ∃ p, reading.result = .ok p ∧ (p.runWithin 1 "main").fault = some x ∧ p.Fails 1 "main" x := by
  intro reading x
  have hfails : ∀ p, reading.result = .ok p → (p.runWithin 1 "main").fault = some x →
      p.Fails 1 "main" x := by
    intro p hp hfault
    obtain hnone | ⟨y, hy, hfails⟩ := (runWithin_returns_or_fails hp 1 "main").1
    · cases hfault.symm.trans hnone
    · cases hfault.symm.trans hy
      exact hfails
  have hp : reading.result = .ok _ := rfl
  refine ⟨_, hp, ?_, hfails _ hp ?_⟩ <;> decide +kernel

end Program
end LineAssembly
