import LineAssembly.Proofs.Run.Reachability
import LineAssembly.Proofs.Source.Definitions
import Mathlib.Data.List.Find

/-! The order of definitions. A run finds routines by name, and where each name has one definition
it finds the same routine wherever the definition stands. -/
namespace LineAssembly
namespace Program

/-- Two programs that find the same bodies, but for their places, run alike but for these. -/
theorem runWithin_rebase_of_find? {p q : Program} {ρ : Relocation}
    (hfind : ∀ name, (q.relocate ρ).find? name = (p.relocate ρ).find? name)
    (hcount : q.errorCount = p.errorCount) (limit : Nat) (entry : String) :
    let σ : Setting := { places := ρ, labels := fun _ => [] }
    (q.runWithin limit entry).rebase σ = (p.runWithin limit entry).rebase σ := by
  intro σ
  have hshared (r : Program) (hr : ∀ name, (r.relocate ρ).find? name = (p.relocate ρ).find? name) :
      (p.relocate ρ).runRoutine limit entry (r.freshMachine.rebase σ) =
        (r.runRoutine limit entry r.freshMachine).rebase σ := by
    refine runRoutine_of_shared σ r.freshMachine fun name _ => ?_
    rw [SharesBody, ← hr name, find?_relocate, Option.map_map]
    rfl
  have hfresh : q.freshMachine.rebase σ = p.freshMachine.rebase σ := by
    simp [freshMachine, Machine.rebase, σ, hcount]
  rw [runWithin, runWithin, ← closeRun_rebase, ← closeRun_rebase, ← hshared q hfind,
    ← hshared p fun _ => rfl, hfresh]

theorem find?_of_perm {rs rs' : List Routine} (h : rs.Perm rs')
    (hnames : (rs.map Routine.name).Nodup) (name : String) :
    rs'.find? (fun r => r.name = name) = rs.find? fun r => r.name = name := by
  refine (List.find?_eq_find?_of_perm h ?_).symm
  rintro r ⟨hr, hname⟩ r' ⟨hr', hname'⟩
  have hsame : r.name = r'.name := by simp_all
  exact List.inj_on_of_nodup_map hnames hr hr' hsame

end Program

/-- Definitions of different names may stand in any order. If a text of them can be read, so can the
text of every other order, and runs of any entry then write the same and leave the same stack,
ports, accumulator, variables and count of errors. They return both or end in the same fault, but
for the line that it names. -/
theorem Definition.run_of_perm {tilde : Bool} {ds ds' : List (Definition tilde)}
    (hperm : ds.Perm ds') (hnames : (ds.map Definition.name).Nodup) {p : Program}
    (hp : (Program.read (Definition.text ds) tilde).result = .ok p) :
    ∃ q, (Program.read (Definition.text ds') tilde).result = .ok q ∧ ∀ limit entry,
      let e := p.runWithin limit entry
      let f := q.runWithin limit entry
      f.output = e.output ∧ f.machine.stack = e.machine.stack ∧ f.machine.ports = e.machine.ports ∧
        f.machine.accumulator = e.machine.accumulator ∧ f.machine.vars = e.machine.vars ∧
        f.machine.errorCount = e.machine.errorCount ∧
        f.fault.map (Fault.relocate .anywhere) = e.fault.map (Fault.relocate .anywhere) := by
  have hreads := reads_of_read hp
  obtain ⟨p', hp', hroutines, hcount⟩ := exists_read_text hreads
  cases Except.ok.inj (hp.symm.trans hp')
  obtain ⟨q, hq, hroutines', hcount'⟩ :=
    exists_read_text fun d hd => hreads d (hperm.mem_iff.mpr hd)
  have hfind : ∀ name, (q.relocate .anywhere).find? name = (p.relocate .anywhere).find? name := by
    intro name
    rw [Program.find?, Program.find?, Program.relocate, Program.relocate, hroutines, hroutines']
    refine Program.find?_of_perm ((hperm.map block).filterMap Block.routine?) ?_ name
    rw [names_routines]
    exact hnames
  have hcounts : q.errorCount = p.errorCount := by
    rw [hcount, hcount', (hperm.map errors).sum_nat]
  refine ⟨q, hq, fun limit entry => ?_⟩
  have hrun := Program.runWithin_rebase_of_find? hfind hcounts limit entry
  simp only [Effect.rebase, Machine.rebase, Effect.mk.injEq, Machine.mk.injEq, Int.add_zero]
    at hrun
  obtain ⟨⟨hstack, hports, haccumulator, hvars, -, herrors⟩, houtput, -, -, hfault⟩ := hrun
  exact ⟨houtput, hstack, hports, haccumulator, hvars, herrors, hfault⟩

/-- In either order `main` calls `f` and is then stopped by `adds`, which stands on another line. -/
theorem Definition.run_of_swapped_definitions :
    ∃ (main f : Definition false) (p q : Program),
      main.sources = ["fn main ( )", "call f\r", "adds"] ∧
      f.sources = ["fn f ( x (", "prnt Stack"] ∧
      (Program.read (text [main, f]) false).result = .ok p ∧
      (Program.read (text [f, main]) false).result = .ok q ∧
      (p.runWithin callLimit "main").fault = some (.halt (.stackUnderflow "adds" 3)) ∧
      (q.runWithin callLimit "main").output = (p.runWithin callLimit "main").output ∧
      (q.runWithin callLimit "main").fault.map (Fault.relocate .anywhere) =
        (p.runWithin callLimit "main").fault.map (Fault.relocate .anywhere) := by
  let main : Definition false :=
    { name := "main"
      header := "fn main ( )"
      body := ["call f\r", "adds"]
      opens := ⟨_, rfl, rfl, rfl⟩
      inside := by
        intro raw hraw l hl
        rcases List.mem_pair.mp hraw with rfl | rfl
        · cases hl
          rfl
        · cases hl
          rfl
      oneLine := by decide }
  let f : Definition false :=
    { name := "f"
      header := "fn f ( x ("
      body := ["prnt Stack"]
      opens := ⟨_, rfl, rfl, rfl⟩
      inside := by
        intro raw hraw l hl
        cases List.mem_singleton.mp hraw
        cases hl
        rfl
      oneLine := by decide }
  have htext : text [main, f] =
      "fn main ( )\ncall f\r\nadds\nfn f ( x (\nprnt Stack\n" := by
    decide +kernel
  have hread : (Program.read "fn main ( )\ncall f\r\nadds\nfn f ( x (\nprnt Stack\n"
      false).result = .ok _ := rfl
  have hp := (congrArg (fun t => (Program.read t false).result) htext).trans hread
  obtain ⟨q, hq, hrun⟩ := run_of_perm (List.Perm.swap f main []) (by decide) hp
  obtain ⟨houtput, -, -, -, -, -, hfault⟩ := hrun callLimit "main"
  exact ⟨main, f, _, q, rfl, rfl, hp, hq, by decide +kernel, houtput, hfault⟩

end LineAssembly
