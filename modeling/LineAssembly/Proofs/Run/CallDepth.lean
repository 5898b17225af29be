import LineAssembly.Proofs.Run.Failure
import Mathlib.Data.List.Chain
import Mathlib.Logic.Relation

/-! The depth of calls. A run that returns has seen every call that its routines have, so that it
outlasts each chain of calls, while calls nested too deep are a chain that it went down. A run that
meets a cycle of calls therefore never returns, and one whose chains are short is never stopped for
their depth. -/
namespace LineAssembly
namespace Program

def callees (p : Program) (f : Routine) : List Routine :=
  (Line.statements f.lines).filterMap fun x => x.2.callee?.bind p.find?

/-- The body of `f` has a call of `g`. -/
def HasCall (p : Program) (f g : Routine) : Prop := g ∈ p.callees f

instance (p : Program) : DecidableRel p.HasCall := fun f g =>
  inferInstanceAs (Decidable (g ∈ p.callees f))

/-- Running the body of `f` on the machine `m` comes to a call of `g` with a machine. Calls in the
body may be nested up to a depth. -/
inductive CallsOn (p : Program) (depth : Nat) (f : Routine) (m : Machine) (g : Routine) :
    Machine → Prop where
  | intro {before after : List (Line × Statement)} {line : Line} {s : Statement} {name : String}
      (body : Line.statements f.lines = before ++ (line, s) :: after)
      (returns : (runBody (p.runRoutine depth) before m).fault = none)
      (callee : s.callee? = some name) (find : p.find? name = some g) :
      CallsOn p depth f m g (runBody (p.runRoutine depth) before m).machine

/-- A run calls a routine, by its entry or by a call that it comes to, on a machine and with a depth
left to which calls may be nested. -/
inductive Enters (p : Program) (limit : Nat) (entry : String) : Nat → Routine → Machine → Prop where
  | entry {r : Routine} (find : p.find? entry = some r) :
      Enters p limit entry limit r p.freshMachine
  | call {depth : Nat} {f g : Routine} {m n : Machine}
      (caller : Enters p limit entry (depth + 1) f m) (call : p.CallsOn depth f m g n) :
      Enters p limit entry depth g n

/-- In a run, running the body of `f` comes to a call of `g`. -/
def Calls (p : Program) (limit : Nat) (entry : String) (f g : Routine) : Prop :=
  ∃ depth m n, p.Enters limit entry (depth + 1) f m ∧ p.CallsOn depth f m g n

variable {p : Program}

theorem hasCall_iff {f g : Routine} :
    p.HasCall f g ↔ ∃ line s name, (line, s) ∈ Line.statements f.lines ∧
      s.callee? = some name ∧ p.find? name = some g := by
  simp only [HasCall, callees, List.mem_filterMap, Option.bind_eq_some_iff, Prod.exists]
  constructor
  · rintro ⟨line, s, hs, name, hname, hg⟩
    exact ⟨line, s, name, hs, hname, hg⟩
  · rintro ⟨line, s, name, hs, hname, hg⟩
    exact ⟨line, s, hs, name, hname, hg⟩

theorem Calls.hasCall {limit : Nat} {entry : String} {f g : Routine}
    (h : p.Calls limit entry f g) : p.HasCall f g := by
  obtain ⟨depth, m, n, -, hcall⟩ := h
  obtain @⟨before, after, line, s, name, hbody, -, hcallee, hg⟩ := hcall
  exact hasCall_iff.mpr ⟨line, s, name, by simp [hbody], hcallee, hg⟩

/-- A routine that returns has every chain of calls behind it, so that none of them is longer than
calls may be nested. -/
theorem length_lt_of_returns {depth : Nat} {name : String} {m : Machine} {r : Routine}
    {rs : List Routine} (h : (p.runRoutine depth name m).fault = none) (hr : p.find? name = some r)
    (hchain : (r :: rs).IsChain p.HasCall) : rs.length < depth := by
  induction depth generalizing name m r rs with
  | zero => simp [runRoutine_zero, hr, Effect.fail] at h
  | succ depth ih =>
    cases rs with
    | nil => exact Nat.succ_pos depth
    | cons g rs =>
      obtain ⟨hcall, hrest⟩ := List.isChain_cons_cons.mp hchain
      obtain ⟨line, s, callee, hs, hcallee, hg⟩ := hasCall_iff.mp hcall
      -- the body returned, so the call of `g` in it did, with one level less to go
      rw [fault_runRoutine_succ hr] at h
      obtain ⟨n, hn⟩ := Effect.exists_of_mem_sequence h hs
      simp only [Statement.run_of_callee?_eq_some hcallee] at hn
      exact Nat.succ_lt_succ (ih hn hg hrest)

theorem callee?_ne_none_of_nesting {call : Statement.Caller} {line : Line} {s : Statement}
    {m : Machine} (h : (s.run call line m).fault = some .nesting) : s.callee? ≠ none := by
  intro hnone
  rw [Statement.run_of_callee?_eq_none hnone] at h
  cases Statement.stops_of_fault h

/-- Calls nested too deep are a chain of calls that is longer than they may be nested. -/
theorem exists_chain_of_nesting {limit : Nat} {entry : String} {depth : Nat} {name : String}
    {r : Routine} {m : Machine} (hr : p.find? name = some r)
    (henters : p.Enters limit entry depth r m)
    (h : (p.runRoutine depth name m).fault = some .nesting) :
    ∃ rs, (r :: rs).IsChain (p.Calls limit entry) ∧ rs.length = depth := by
  induction depth generalizing name m r with
  | zero => exact ⟨[], .singleton r, rfl⟩
  | succ depth ih =>
    rw [fault_runRoutine_succ hr] at h
    obtain ⟨before, ⟨line, s⟩, after, hbody, hbefore, hs, -⟩ := Effect.exists_of_fault_sequence h
    obtain ⟨callee, hcallee⟩ := Option.ne_none_iff_exists'.mp (callee?_ne_none_of_nesting hs)
    simp only [Statement.run_of_callee?_eq_some hcallee] at hs
    cases hg : p.find? callee with
    | none =>
      rw [runRoutine_of_find?_eq_none hg] at hs
      cases hs
    | some g =>
      have hcall := CallsOn.intro hbody hbefore hcallee hg
      obtain ⟨rs, hchain, hlength⟩ := ih hg (.call henters hcall) hs
      have hcalls : p.Calls limit entry r g := ⟨depth, m, _, henters, hcall⟩
      exact ⟨g :: rs, List.isChain_cons_cons.mpr ⟨hcalls, hchain⟩, by simp [hlength]⟩

theorem exists_chain_of_cycle {α : Type} {R : α → α → Prop} {a b : α}
    (hreach : Relation.ReflTransGen R a b) (hcycle : Relation.TransGen R b b) (n : Nat) :
    ∃ l, (a :: l).IsChain R ∧ l.length = n := by
  induction n generalizing a with
  | zero => exact ⟨[], .singleton a, rfl⟩
  | succ n ih =>
    have hnext : ∃ c, R a c ∧ Relation.ReflTransGen R c b := by
      obtain rfl | hnext := hreach.cases_head
      · exact Relation.TransGen.head'_iff.mp hcycle
      · exact hnext
    obtain ⟨c, hac, hcb⟩ := hnext
    obtain ⟨l, hchain, hlength⟩ := ih hcb
    exact ⟨c :: l, List.isChain_cons_cons.mpr ⟨hac, hchain⟩, by simp [hlength]⟩

theorem fault_ne_none_of_cycle {entry : String} {r f : Routine} (hr : p.find? entry = some r)
    (hreach : Relation.ReflTransGen p.HasCall r f) (hcycle : Relation.TransGen p.HasCall f f)
    (limit : Nat) : (p.runWithin limit entry).fault ≠ none := by
  intro h
  have hreturns := h
  rw [runWithin_of_returns h] at hreturns
  -- a chain through the cycle that is as long as the limit is already too long
  obtain ⟨rs, hchain, hlength⟩ := exists_chain_of_cycle hreach hcycle limit
  exact absurd (length_lt_of_returns hreturns hr hchain) (by omega)

/-- A run ends for the depth of calls only if a chain of calls took it deeper than the limit. -/
theorem exists_chain_of_callDepth {limit : Nat} {entry : String} {h : Halt}
    (hfault : (p.runWithin limit entry).fault = some (.halt h)) (hkind : h.kind = .callDepth) :
    ∃ r rs, p.find? entry = some r ∧ (r :: rs).IsChain (p.Calls limit entry) ∧
      rs.length = limit := by
  obtain ⟨before, line, s, m, -, hx⟩ | ⟨-, hnesting⟩ := exists_dispatches_of_fault hfault
  · cases Statement.stops_of_fault hx <;> cases hkind
  · cases hr : p.find? entry with
    | none =>
      rw [runRoutine_of_find?_eq_none hr] at hnesting
      cases hnesting
    | some r =>
      obtain ⟨rs, hchain, hlength⟩ := exists_chain_of_nesting hr (.entry hr) hnesting
      exact ⟨r, rs, rfl, hchain, hlength⟩

/-- A run whose entry leads to a routine on a cycle of calls does not return: it ends for the depth
of calls, if not earlier for a short stack, a division by zero or a number that is too long. This
holds even of calls that no run comes to. If no chain of calls that the run comes to is longer than
the limit, it does not end for the depth of calls. -/
theorem runWithin_of_call_chains (p : Program) (limit : Nat) (entry : String) :
    (∀ r f, p.find? entry = some r → Relation.ReflTransGen p.HasCall r f →
      Relation.TransGen p.HasCall f f →
      ∃ x, (p.runWithin limit entry).fault = some x ∧
        (x = .halt (.callDepth entry) ∨ (∃ op line, x = .halt (.stackUnderflow op line)) ∨
          (∃ line, x = .halt (.divisionByZero line)) ∨ ∃ excess, x = .digits excess)) ∧
    ((∀ r rs, p.find? entry = some r → (r :: rs).IsChain (p.Calls limit entry) →
        (r :: rs).length ≤ limit) →
      ∀ h, (p.runWithin limit entry).fault = some (.halt h) → h.kind ≠ .callDepth) ∧
    ∀ f g, p.Calls limit entry f g → p.HasCall f g := by
  refine ⟨?_, ?_, fun f g => Calls.hasCall⟩
  · intro r f hr hreach hcycle
    obtain ⟨x, hx⟩ := Option.ne_none_iff_exists'.mp (fault_ne_none_of_cycle hr hreach hcycle limit)
    exact ⟨x, hx, fault_cases hx⟩
  · intro hchains h hfault hkind
    obtain ⟨r, rs, hr, hchain, hlength⟩ := exists_chain_of_callDepth hfault hkind
    have hle := hchains r rs hr hchain
    simp only [List.length_cons] at hle
    omega

/-- Of these routines `f` and `g` call each other, and `top` calls one that calls nothing. -/
theorem runWithin_of_mutual_calls :
    let call (name : String) : Line :=
      ⟨[⟨.opcode, "call", 0⟩, ⟨.routineName, name, 5⟩], "call " ++ name, 1, none⟩
    let p : Program :=
      { routines := [⟨"f", [], [call "g"]⟩, ⟨"g", [], [call "f"]⟩, ⟨"leaf", [], []⟩,
          ⟨"top", [], [call "leaf"]⟩] }
    (p.runWithin 3 "f").fault ≠ none ∧
      (p.runWithin 2 "top").fault ≠ some (.halt (.callDepth "top")) := by
  intro call p
  constructor
  · have hfg : p.HasCall ⟨"f", [], [call "g"]⟩ ⟨"g", [], [call "f"]⟩ := by decide +kernel
    have hgf : p.HasCall ⟨"g", [], [call "f"]⟩ ⟨"f", [], [call "g"]⟩ := by decide +kernel
    obtain ⟨x, hx, -⟩ := (runWithin_of_call_chains p 3 "f").1 _ _ (by decide +kernel) .refl
      (.tail (.single hfg) hgf)
    simp [hx]
  · intro h
    refine (runWithin_of_call_chains p 2 "top").2.1 ?_ _ h rfl
    intro r rs hr hchain
    have htop : p.find? "top" = some ⟨"top", [], [call "leaf"]⟩ := by decide +kernel
    have hcallees : p.callees ⟨"top", [], [call "leaf"]⟩ = [⟨"leaf", [], []⟩] := by decide +kernel
    have hleaf : p.callees ⟨"leaf", [], []⟩ = [] := by decide +kernel
    cases Option.some.inj (htop.symm.trans hr)
    match rs, hchain with
    | [], _ | [_], _ => simp
    | g :: k :: rs, hchain =>
      obtain ⟨hg, hk⟩ := List.isChain_cons_cons.mp hchain
      have hg : g ∈ p.callees _ := hg.hasCall
      rw [hcallees] at hg
      cases List.mem_singleton.mp hg
      have hk : k ∈ p.callees _ := (List.isChain_cons_cons.mp hk).1.hasCall
      rw [hleaf] at hk
      cases hk

end Program
end LineAssembly
