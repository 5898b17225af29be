import LineAssembly.Machine.Snapshot
import LineAssembly.Proofs.Json.RoundTrip

/-! Restoring a machine from the text of its snapshot. -/
namespace LineAssembly

theorem mapM_map_eq_ok {α β ε : Type} {f : β → Except ε α} {g : α → β} {xs : List α}
    (h : ∀ x ∈ xs, f (g x) = .ok x) : (xs.map g).mapM f = .ok xs := by
  induction xs with
  | nil => rfl
  | cons x xs ih =>
    have hrest := ih fun y hy => h y (by simp [hy])
    rw [List.map_cons, List.mapM_cons, h x (by simp), hrest]
    rfl

namespace Json

theorem toVariable_ofVariable (v : Variable) : (ofVariable v).toVariable = .ok v := by
  cases v <;> rfl

theorem toLabel_ofLabel (l : Label) : (ofLabel l).toLabel = .ok l := rfl

theorem toMachine_ofMachine {m : Machine} (hports : m.ports.length = portCount) :
    (ofMachine m).toMachine = .ok m := by
  have hint : ∀ ns : List Int, (ns.map Json.int).mapM integer = .ok ns :=
    fun ns => mapM_map_eq_ok fun n _ => rfl
  have hvars : (m.vars.reverse.map ofVariable).mapM toVariable = .ok m.vars.reverse :=
    mapM_map_eq_ok fun v _ => toVariable_ofVariable v
  have hlabels : (m.labels.map ofLabel).mapM toLabel = .ok m.labels :=
    mapM_map_eq_ok fun l _ => toLabel_ofLabel l
  simp [ofMachine, toMachine, readList, readInteger, readPorts, field?, elements, hint, hvars,
    hlabels, hports, bind, Except.bind, pure, Except.pure, integer, toInt, -List.map_reverse]

theorem itemsPlain_iff (vs : List Json) : itemsPlain vs = true ↔ ∀ v ∈ vs, v.isPlain = true := by
  induction vs with
  | nil => simp [itemsPlain]
  | cons v vs ih => simp [itemsPlain, ih]

theorem fitsItems_iff (vs : List Json) : fitsItems vs = true ↔ ∀ v ∈ vs, v.fits = true := by
  induction vs with
  | nil => simp [fitsItems]
  | cons v vs ih => simp [fitsItems, ih]

end Json

namespace Machine

/-- A machine as a run leaves it, up to the length of its numbers: names are texts, there are as
many ports as there should be, and all numbers can be written. -/
structure IsWritable (m : Machine) : Prop where
  ports : m.ports.length = portCount
  variableNames : ∀ v ∈ m.vars, ∃ name, v.name = .string name
  labelNames : ∀ l ∈ m.labels, ∃ name, l.name = .string name
  stackFits : ∀ n ∈ m.stack, Decimal.fits n = true
  portsFit : ∀ n ∈ m.ports, Decimal.fits n = true
  accumulatorFits : Decimal.fits m.accumulator = true
  variablesFit : ∀ name n, .number name n ∈ m.vars → Decimal.fits n = true
  labelsFit : ∀ l ∈ m.labels, Decimal.fits l.line = true
  errorCountFits : Decimal.fits m.errorCount = true

namespace IsWritable

variable {m : Machine}

theorem isPlain_ofVariable (h : m.IsWritable) {v : Variable} (hv : v ∈ m.vars) :
    (Json.ofVariable v).isPlain = true := by
  obtain ⟨name, hname⟩ := h.variableNames v hv
  cases v with
  | string n value => cases hname; rfl
  | number n value => cases hname; rfl

theorem fits_ofVariable (h : m.IsWritable) {v : Variable} (hv : v ∈ m.vars) :
    (Json.ofVariable v).fits = true := by
  obtain ⟨name, hname⟩ := h.variableNames v hv
  cases v with
  | string n value => cases hname; rfl
  | number n value =>
    cases hname
    simp [Json.ofVariable, Json.fits, Json.fitsFields, h.variablesFit _ value hv]

theorem isPlain_ofLabel (h : m.IsWritable) {l : Label} (hl : l ∈ m.labels) :
    (Json.ofLabel l).isPlain = true := by
  obtain ⟨name, hname⟩ := h.labelNames l hl
  simp [Json.ofLabel, Json.isPlain, Json.fieldsPlain, hname]

theorem fits_ofLabel (h : m.IsWritable) {l : Label} (hl : l ∈ m.labels) :
    (Json.ofLabel l).fits = true := by
  obtain ⟨name, hname⟩ := h.labelNames l hl
  simp [Json.ofLabel, Json.fits, Json.fitsFields, hname, h.labelsFit l hl]

theorem isPlain_ofMachine (h : m.IsWritable) : (Json.ofMachine m).isPlain = true := by
  have hint : ∀ ns : List Int, Json.itemsPlain (ns.map .int) = true := fun ns => by
    simp [Json.itemsPlain_iff, Json.isPlain]
  have hvars : Json.itemsPlain (m.vars.reverse.map Json.ofVariable) = true := by
    simpa [Json.itemsPlain_iff] using fun v => h.isPlain_ofVariable
  have hlabels : Json.itemsPlain (m.labels.map Json.ofLabel) = true := by
    simpa [Json.itemsPlain_iff] using fun l => h.isPlain_ofLabel
  simp [Json.ofMachine, Json.isPlain, Json.fieldsPlain, hint, hvars, hlabels, -List.map_reverse]

theorem fits_ofMachine (h : m.IsWritable) : (Json.ofMachine m).fits = true := by
  have hstack : Json.fitsItems (m.stack.reverse.map .int) = true := by
    simpa [Json.fitsItems_iff, Json.fits] using h.stackFits
  have hports : Json.fitsItems (m.ports.map .int) = true := by
    simpa [Json.fitsItems_iff, Json.fits] using h.portsFit
  have hvars : Json.fitsItems (m.vars.reverse.map Json.ofVariable) = true := by
    simpa [Json.fitsItems_iff] using fun v => h.fits_ofVariable
  have hlabels : Json.fitsItems (m.labels.map Json.ofLabel) = true := by
    simpa [Json.fitsItems_iff] using fun l => h.fits_ofLabel
  simp [Json.ofMachine, Json.fits, Json.fitsFields, hstack, hports, hvars, hlabels,
    h.accumulatorFits, h.errorCountFits, -List.map_reverse]

end IsWritable

/-- The text of a snapshot, with any indent, restores the machine it was taken of. -/
theorem restore_dump {m : Machine} (hm : m.IsWritable) (indent : Option Int) :
    ∃ text snapshot, m.dump indent = .ok text ∧ Json.parse? text = some snapshot ∧
      snapshot.toMachine = .ok m := by
  refine ⟨Json.render (.ofIndent indent) (Json.ofMachine m), Json.ofMachine m, ?_, ?_, ?_⟩
  · rw [dump, Json.write, if_pos hm.fits_ofMachine]
  · exact Json.parse?_render _ hm.isPlain_ofMachine
  · exact Json.toMachine_ofMachine hm.ports

/-- Quotes, control characters, line separators, an empty name, negative numbers and a shadowed
variable of the other kind all come back, from lines that are broken but not indented. -/
theorem restore_dump_mixed :
    let m : Machine :=
      { stack := [-7, 0, 1234567890123456789012], ports := [0, -1, 2, 0, 0, 0, 0, 255],
        accumulator := -1,
        vars := [.string (.string "x") "\"\\ \n\t\x01\u2028", .number (.string "x") (-12),
          .string (.string "") "é"],
        labels := [⟨.string "loop:", 3⟩], errorCount := 2 }
    ∃ text snapshot, m.dump (some (-4)) = .ok text ∧ Json.parse? text = some snapshot ∧
      snapshot.toMachine = .ok m := by
  refine restore_dump ⟨rfl, ?_, ?_, by decide, by decide, by decide, ?_, by decide, by decide⟩ _
  · simp [Variable.name]
  · simp
  · intro name n hmem
    simp only [List.mem_cons, Variable.number.injEq, List.not_mem_nil, reduceCtorEq, or_false,
      false_or] at hmem
    rw [hmem.2]
    decide

end Machine
end LineAssembly
