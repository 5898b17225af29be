import LineAssembly.Proofs.Run.Congruence
import LineAssembly.Proofs.Source.Blocks
import LineAssembly.Proofs.Source.Listing

/-! Noninterference. But for its stack, a machine has no say in how a run ends or in the stack that
the run leaves. Ports, accumulator and variables bear on what is written and reported only, and what
could fault there, a number too long to be written, never gets into them. -/
namespace LineAssembly

/-- No port is missing, and ports, accumulator and number variables keep the digit limit. -/
structure Machine.WithinLimit (m : Machine) : Prop where
  length_ports : m.ports.length = portCount
  ports : ∀ n ∈ m.ports, Decimal.fits n = true
  accumulator : Decimal.fits m.accumulator = true
  vars : ∀ name n, Variable.number name n ∈ m.vars → Decimal.fits n = true

def Token.Fits (t : Token) : Prop := ∀ n, t.kind = .number n → Decimal.fits n = true

namespace Machine.WithinLimit

variable {m : Machine}

theorem countError (h : m.WithinLimit) : m.countError.WithinLimit :=
  ⟨h.length_ports, h.ports, h.accumulator, h.vars⟩

theorem withStack (h : m.WithinLimit) (stack : List Int) :
    WithinLimit { m with stack := stack } :=
  ⟨h.length_ports, h.ports, h.accumulator, h.vars⟩

theorem clearVariables (h : m.WithinLimit) : m.clearVariables.WithinLimit :=
  ⟨h.length_ports, h.ports, h.accumulator, fun _ _ hn => by simp [Machine.clearVariables] at hn⟩

theorem setAccumulator (h : m.WithinLimit) {n : Int} (hn : Decimal.fits n = true) :
    (m.setAccumulator n).WithinLimit :=
  ⟨h.length_ports, h.ports, hn, h.vars⟩

theorem setPort (h : m.WithinLimit) (i : Nat) {n : Int} (hn : Decimal.fits n = true) :
    (m.setPort i n).WithinLimit where
  length_ports := by simp [h.length_ports]
  ports := by
    intro k hk
    rcases List.mem_or_eq_of_mem_set hk with hk | hk
    · exact h.ports k hk
    · exact hk ▸ hn
  accumulator := h.accumulator
  vars := h.vars

theorem define (h : m.WithinLimit) {v : Variable}
    (hv : ∀ name n, v = .number name n → Decimal.fits n = true) : (m.define v).WithinLimit where
  length_ports := h.length_ports
  ports := h.ports
  accumulator := h.accumulator
  vars := by
    intro name n hn
    rcases List.mem_cons.mp hn with hn | hn
    · exact hv name n hn.symm
    · exact h.vars name n hn

theorem fits_port (h : m.WithinLimit) (i : Nat) : Decimal.fits (m.port i) = true := by
  unfold port
  cases hi : m.ports[i]? with
  | none => simp only [List.getD, hi, Option.getD_none]; decide
  | some n => simpa [List.getD, hi] using h.ports n (List.mem_of_getElem? hi)

theorem fits_of_lookup (h : m.WithinLimit) {name key : Json} {n : Int}
    (hn : m.lookup name = some (.number key n)) : Decimal.fits n = true :=
  h.vars key n (List.mem_of_find?_eq_some hn)

end Machine.WithinLimit

/-- Machines with the same stack, both within the limit. -/
structure Machine.SameStack (m n : Machine) : Prop where
  stack : m.stack = n.stack
  left : m.WithinLimit
  right : n.WithinLimit

theorem Machine.SameStack.mapStack {m n : Machine} (h : m.SameStack n) (f : List Int → List Int) :
    SameStack { m with stack := f m.stack } { n with stack := f n.stack } :=
  ⟨congrArg f h.stack, h.left.withStack _, h.right.withStack _⟩

namespace Effect

/-- Effects that end the same way, on machines with the same stack. -/
structure SameEnd (e f : Effect) : Prop where
  fault : e.fault = f.fault
  machine : e.machine.SameStack f.machine

theorem sameEnd_congruence : Congruence Machine.SameStack SameEnd where
  none h := ⟨rfl, h⟩
  traced _ _ _ h := ⟨h.fault, h.machine⟩
  andThen := by
    intro e f next next' h hnext
    cases he : e.fault with
    | some g =>
      have hf : f.fault = some g := h.fault.symm.trans he
      rw [andThen_of_fault he, andThen_of_fault hf]
      exact h
    | none =>
      have hf : f.fault = Option.none := h.fault.symm.trans he
      have hrest := hnext h.machine
      rw [andThen_of_fault_eq_none he, andThen_of_fault_eq_none hf]
      exact ⟨hrest.fault, hrest.machine⟩

/-- An effect on a machine that goes on, does not touch the stack and keeps the limit. -/
structure Quiet (m : Machine) (e : Effect) : Prop where
  fault : e.fault = Option.none
  stack : e.machine.stack = m.stack
  withinLimit : e.machine.WithinLimit

variable {m n : Machine}

theorem quiet_write (hm : m.WithinLimit) (text : String) : Quiet m (.write m text) := ⟨rfl, rfl, hm⟩

theorem quiet_report (hm : m.WithinLimit) (p : Problem) : Quiet m (.report m p) :=
  ⟨rfl, rfl, hm.countError⟩

theorem Quiet.andThen {e : Effect} {next : Machine → Effect} (he : Quiet m e)
    (hnext : ∀ {m}, m.WithinLimit → Quiet m (next m)) : Quiet m (e.andThen next) := by
  have hrest := hnext he.withinLimit
  rw [andThen_of_fault_eq_none he.fault]
  exact ⟨hrest.fault, hrest.stack.trans he.stack, hrest.withinLimit⟩

theorem Quiet.sameEnd {e f : Effect} (he : Quiet m e) (hf : Quiet n f) (h : m.SameStack n) :
    e.SameEnd f where
  fault := he.fault.trans hf.fault.symm
  machine :=
    { stack := by rw [he.stack, hf.stack, h.stack]
      left := he.withinLimit
      right := hf.withinLimit }

theorem sameEnd_report (h : m.SameStack n) (p q : Problem) : (report m p).SameEnd (report n q) :=
  (quiet_report h.left p).sameEnd (quiet_report h.right q) h

theorem sameEnd_fail (h : m.SameStack n) (f : Fault) : (fail m f).SameEnd (fail n f) := ⟨rfl, h⟩

theorem sameEnd_halt (h : m.SameStack n) (x : Halt) : (halt m x).SameEnd (halt n x) :=
  ⟨rfl, h.stack, h.left.countError, h.right.countError⟩

end Effect

namespace Fetch

variable {α β : Type}

def fault? : Fetch α → Option Fault
  | .fault f => some f
  | _ => none

theorem fault?_bind {x : Fetch α} {f : α → Fetch β} (h : ∀ a, (f a).fault? = none) :
    (x.bind f).fault? = x.fault? := by
  cases x with
  | value a => exact h a
  | problem p => rfl
  | fault g => rfl

theorem fault?_write {n : Int} (h : Decimal.fits n = true) :
    (ofWriting (Decimal.write n)).fault? = none := by
  simp [Decimal.write, h, ofWriting, fault?]

theorem eq_fault {x : Fetch α} {f : Fault} (h : x.fault? = some f) : x = .fault f := by
  cases x with
  | value a => cases h
  | problem p => cases h
  | fault g => cases h; rfl

theorem quiet_run {m : Machine} (hm : m.WithinLimit) {x : Fetch α} (hx : x.fault? = none)
    {next : α → Effect} (hnext : ∀ a, x = .value a → (next a).Quiet m) :
    (x.run m next).Quiet m := by
  cases x with
  | value a => exact hnext a rfl
  | problem p => exact Effect.quiet_report hm p
  | fault f => cases hx

/-- Runs that look for a value end the same way if the same fault or none is met on the way and
what is done with a value is quiet. One may find a value where the other meets a problem. -/
theorem sameEnd_run {m n : Machine} (h : m.SameStack n) {x y : Fetch α}
    (hxy : x.fault? = y.fault?) {next next' : α → Effect}
    (hx : ∀ a, x = .value a → (next a).Quiet m) (hy : ∀ a, y = .value a → (next' a).Quiet n) :
    (x.run m next).SameEnd (y.run n next') := by
  cases hf : x.fault? with
  | none =>
    have hf' : y.fault? = none := hxy.symm.trans hf
    exact (quiet_run h.left hf hx).sameEnd (quiet_run h.right hf' hy) h
  | some f =>
    rw [eq_fault hf, eq_fault (hxy.symm.trans hf)]
    exact Effect.sameEnd_fail h f

end Fetch

namespace Statement

open Effect

variable {m n : Machine}

theorem fetchPort_congr (h : m.SameStack n) (line : Line) (t : Token) :
    fetchPort m line t = fetchPort n line t := by
  simp only [fetchPort, Machine.portIndex, h.left.length_ports, h.right.length_ports]

theorem fault?_fetchSource (m : Machine) (line : Line) (target : Target) (t : Token) :
    (fetchSource m line target t).fault? =
      if t.kind = .port then (fetchPort m line t).fault? else none := by
  unfold fetchSource
  split
  · simp [*, Fetch.fault?]
  · rename_i hport
    rw [if_pos hport]
    exact Fetch.fault?_bind fun _ => rfl
  · rename_i hport
    exact (if_neg hport).symm

theorem fits_of_fetchSource (hm : m.WithinLimit) {t : Token} (ht : t.Fits) {line : Line}
    {target : Target} {k : Int} (hk : fetchSource m line target t = .value k) :
    Decimal.fits k = true := by
  unfold fetchSource at hk
  split at hk
  · rename_i hn
    cases hk
    exact ht k hn
  · cases hp : fetchPort m line t with
    | value i =>
      simp only [hp, Fetch.bind] at hk
      cases hk
      exact hm.fits_port i
    | problem p => simp [hp, Fetch.bind] at hk
    | fault f => simp [hp, Fetch.bind] at hk
  · cases hk

theorem fault?_fetchText (hm : m.WithinLimit) {t : Token} (ht : t.Fits) (line : Line) :
    (fetchText m line t).fault? =
      if t.kind = .port then (fetchPort m line t).fault?
      else if t.kind = .stack then (Fetch.ofWriting (Decimal.writeList m.stack.reverse)).fault?
      else none := by
  unfold fetchText
  split
  · simp [*, Fetch.fault?]
  · rename_i n hn
    simp [hn, Fetch.fault?_write (ht n hn)]
  · simp [*, Fetch.fault?_write hm.accumulator]
  · simp [*]
  · rename_i hport
    rw [if_pos hport]
    exact Fetch.fault?_bind fun i => Fetch.fault?_write (hm.fits_port i)
  · rename_i hstack hport
    rw [if_neg hport, if_neg hstack]
    split
    · rfl
    · rename_i key value hvalue
      exact Fetch.fault?_write (hm.fits_of_lookup hvalue)
    · rfl

theorem sameEnd_runPush (h : m.SameStack n) (line : Line) (operands : List Token) :
    (runPush line operands m).effect.SameEnd (runPush line operands n).effect := by
  unfold runPush
  split
  · exact sameEnd_report h _ _
  · split
    · rename_i k _
      exact sameEnd_congruence.none (h.mapStack fun stack => k :: stack)
    · exact sameEnd_report h _ _

theorem sameEnd_runArithmetic (h : m.SameStack n) (line : Line) (op : Arithmetic) :
    (runArithmetic line op m).SameEnd (runArithmetic line op n) := by
  rw [runArithmetic_eq, runArithmetic_eq, h.stack]
  split
  · split
    · exact sameEnd_halt h _
    · exact ⟨rfl, rfl, h.left.withStack _, h.right.withStack _⟩
  · exact sameEnd_halt h _

theorem sameEnd_runPrint (h : m.SameStack n) (line : Line) (head : Token) {operands : List Token}
    (hfits : ∀ t ∈ operands, t.Fits) :
    (runPrint line head operands m).effect.SameEnd (runPrint line head operands n).effect := by
  unfold runPrint
  split
  · exact sameEnd_report h _ _
  · rename_i t _
    have ht : t.Fits := hfits t (by simp)
    have hfault : (fetchText m line t).fault? = (fetchText n line t).fault? := by
      rw [fault?_fetchText h.left ht, fault?_fetchText h.right ht, fetchPort_congr h, h.stack]
    exact Fetch.sameEnd_run h hfault (fun text _ => quiet_write h.left text)
      fun text _ => quiet_write h.right text

/-- What a move takes from a port differs between the machines and goes into a port or the
accumulator, where it does not show. -/
theorem sameEnd_runMove (h : m.SameStack n) (line : Line) (dest : Token) {source : Token}
    (hsource : source.Fits) :
    (runMove line dest source m).SameEnd (runMove line dest source n) := by
  have hfault : ∀ target, (fetchSource m line target source).fault? =
      (fetchSource n line target source).fault? := by
    intro target
    rw [fault?_fetchSource, fault?_fetchSource, fetchPort_congr h]
  unfold runMove
  split
  · rw [fetchPort_congr h]
    cases fetchPort n line dest with
    | value i =>
      refine Fetch.sameEnd_run h (hfault .port) (fun k hk => ?_) fun k hk => ?_
      · exact ⟨rfl, rfl, h.left.setPort i (fits_of_fetchSource h.left hsource hk)⟩
      · exact ⟨rfl, rfl, h.right.setPort i (fits_of_fetchSource h.right hsource hk)⟩
    | problem p => exact sameEnd_report h p p
    | fault f => exact sameEnd_fail h f
  · refine Fetch.sameEnd_run h (hfault .accumulator) (fun k hk => ?_) fun k hk => ?_
    · exact ⟨rfl, rfl, h.left.setAccumulator (fits_of_fetchSource h.left hsource hk)⟩
    · exact ⟨rfl, rfl, h.right.setAccumulator (fits_of_fetchSource h.right hsource hk)⟩
  · exact sameEnd_report h _ _

theorem sameEnd_runMov (h : m.SameStack n) (line : Line) {operands : List Token}
    (hfits : ∀ t ∈ operands, t.Fits) :
    (runMov line operands m).effect.SameEnd (runMov line operands n).effect := by
  unfold runMov
  split
  · rename_i dest comma source _
    have hcomma : (runComma line comma m).SameEnd (runComma line comma n) := by
      unfold runComma
      split
      · exact sameEnd_congruence.none h
      · exact sameEnd_report h _ _
    exact sameEnd_congruence.andThen hcomma fun hmn =>
      sameEnd_runMove hmn line dest (hfits source (by simp))
  · exact sameEnd_report h _ _

theorem sameEnd_runCall {call : Caller} (hcall : call.Respects Machine.SameStack SameEnd)
    (h : m.SameStack n) (line : Line) (operands : List Token) :
    (runCall call line operands m).effect.SameEnd (runCall call line operands n).effect := by
  unfold runCall
  split
  · exact sameEnd_report h _ _
  · split
    · exact hcall _ h
    · exact sameEnd_report h _ _

theorem quiet_bindValue (hm : m.WithinLimit) (level : Nat) (name : Token) {value : Token}
    (hv : value.Fits) : Quiet m (bindValue level name value m) := by
  unfold bindValue
  split
  · exact ⟨rfl, rfl, hm.define (by simp)⟩
  · rename_i k hk
    refine ⟨rfl, rfl, hm.define ?_⟩
    rintro _ _ ⟨⟩
    exact hv k hk
  · exact quiet_report hm _

theorem quiet_runBinding (hm : m.WithinLimit) (level : Nat) (line : Line) {operands : List Token}
    (hfits : ∀ t ∈ operands, t.Fits) : Quiet m (runBinding level line operands m).effect := by
  unfold runBinding
  split
  · exact quiet_report hm _
  · split
    · exact quiet_report hm _
    · split
      · exact (quiet_report hm _).andThen fun hm => quiet_report hm _
      · split
        · split
          · exact quiet_report hm _
          · exact quiet_bindValue hm _ _ (hfits _ (by simp))
        · exact (quiet_report hm _).andThen fun hm => quiet_bindValue hm _ _ (hfits _ (by simp))

theorem sameEnd_runOperation {call : Caller} (hcall : call.Respects Machine.SameStack SameEnd)
    (h : m.SameStack n) (line : Line) {s : Statement} (hfits : ∀ t ∈ s.operands, t.Fits) :
    (runOperation call line s.head s.operands m).effect.SameEnd
      (runOperation call line s.head s.operands n).effect := by
  unfold runOperation
  split
  · exact sameEnd_runPush h line s.operands
  · exact sameEnd_congruence.none (h.mapStack List.tail)
  · exact sameEnd_runMov h line hfits
  · exact sameEnd_runArithmetic h line _
  · exact sameEnd_runPrint h line s.head hfits
  · exact sameEnd_runCall hcall h line s.operands
  · exact sameEnd_congruence.none h

theorem sameEnd_act {call : Caller} (hcall : call.Respects Machine.SameStack SameEnd)
    (h : m.SameStack n) (line : Line) {s : Statement} (hfits : ∀ t ∈ s.operands, t.Fits) :
    (s.act call line m).SameEnd (s.act call line n) := by
  unfold act
  split
  · exact sameEnd_runOperation hcall h line hfits
  · unfold runKeyword
    split
    · exact (quiet_runBinding h.left _ line hfits).sameEnd (quiet_runBinding h.right _ line hfits) h
    · exact sameEnd_congruence.none h
  all_goals first
    | exact sameEnd_congruence.none h
    | exact (quiet_write h.left _).sameEnd (quiet_write h.right _) h
    | exact sameEnd_report h _ _

end Statement

namespace Program

theorem fits_of_mem_operands {text : String} {tilde : Bool} {p : Program}
    (hp : (Program.read text tilde).result = .ok p) {r : Routine} (hr : r ∈ p.routines) {x : Line}
    (hx : x ∈ r.lines) {s : Statement} (hs : s ∈ Statement.split x.tokens) :
    ∀ t ∈ s.operands, t.Fits := by
  intro t ht n hn
  obtain ⟨listing, hread, rfl⟩ := exists_listing_of_read hp
  obtain ⟨l, hl, hpart⟩ := Extraction.exists_partOf hr hx
  have htx : t ∈ x.tokens := by
    rw [← Statement.flatMap_split x.tokens]
    exact List.mem_flatMap.mpr ⟨s, hs, List.mem_cons_of_mem _ ht⟩
  exact (hread.lines l hl).number_fits (hpart.tokens.subset htx) hn

/-- Runs of a routine from machines with the same stack end the same way and leave the same stack,
whatever ports, accumulator, variables, labels and error counts the machines have. -/
theorem runRoutine_noninterference {text : String} {tilde : Bool} {p : Program}
    (hp : (Program.read text tilde).result = .ok p) (depth : Nat) (name : String) {m n : Machine}
    (hm : m.WithinLimit) (hn : n.WithinLimit) (hstack : m.stack = n.stack) :
    (p.runRoutine depth name m).fault = (p.runRoutine depth name n).fault ∧
      (p.runRoutine depth name m).machine.stack = (p.runRoutine depth name n).machine.stack := by
  have hend : (p.runRoutine depth name m).SameEnd (p.runRoutine depth name n) :=
    Effect.sameEnd_congruence.runRoutine p (fun _ _ _ h => Effect.sameEnd_report h _ _)
      (fun h => Effect.sameEnd_fail h _)
      (fun h => ⟨h.stack, h.left.clearVariables, h.right.clearVariables⟩)
      (fun hcall _ hr l hl _ hs _ _ h =>
        Statement.sameEnd_act hcall h l (fits_of_mem_operands hp hr hl hs))
      depth name ⟨hstack, hm, hn⟩
  exact ⟨hend.fault, hend.machine.stack⟩

/-- The first machine knows the variable and the second one does not, so that they print different
things; the second `adds` stops them both. -/
theorem runRoutine_two_machines :
    let m : Machine :=
      { stack := [1, 2], ports := [9, 8, 7, 6, 5, 4, 3, 2], vars := [.number (.string "x") 5] }
    let n : Machine := { stack := [1, 2], errorCount := 3 }
    ∃ p, (Program.read "fn main ( )\nprnt x\nadds\nadds\n" false).result = .ok p ∧
      m.WithinLimit ∧ n.WithinLimit ∧
      (p.runRoutine 1 "main" m).output ≠ (p.runRoutine 1 "main" n).output ∧
      (p.runRoutine 1 "main" m).fault = (p.runRoutine 1 "main" n).fault ∧
      (p.runRoutine 1 "main" m).machine.stack = (p.runRoutine 1 "main" n).machine.stack := by
  intro m n
  have hp : (Program.read "fn main ( )\nprnt x\nadds\nadds\n" false).result = .ok _ := rfl
  have hvars : ∀ name k, Variable.number name k ∈ m.vars → Decimal.fits k = true := by
    intro name k hk
    cases List.mem_singleton.mp hk
    decide
  have hm : m.WithinLimit := ⟨rfl, by decide, by decide, hvars⟩
  have hn : n.WithinLimit := ⟨rfl, by decide, by decide, fun _ _ hk => by cases hk⟩
  exact ⟨_, hp, hm, hn, by decide +kernel, runRoutine_noninterference hp 1 "main" hm hn rfl⟩

end Program
end LineAssembly
