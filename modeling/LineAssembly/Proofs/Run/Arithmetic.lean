import LineAssembly.Proofs.Run.Halting

/-! Arithmetic on the stack. Sums, differences and products are exact, and quotients go toward zero.
An operation halts for want of two values or for a zero divisor, and for nothing else, and then
takes no value from the stack. -/
namespace LineAssembly
namespace Arithmetic

/-- A quotient toward zero: what is left over is smaller than the divisor, and has the sign of the
dividend if it is anything at all. -/
def IsQuotient (a b q : Int) : Prop :=
  ∃ r, a = b * q + r ∧ r.natAbs < b.natAbs ∧ (r = 0 ∨ r.sign = a.sign)

variable {a b q : Int}

/-- The absolute values give the quotient up to its sign, and the sign test gives the sign; where
the quotient is zero its sign says nothing. -/
theorem quotient_eq_tdiv (a b : Int) : quotient a b = a.tdiv b := by
  have hnat (n k : Nat) : ((n / k : Nat) : Int) = (n : Int).tdiv k := Int.ofNat_tdiv n k
  unfold quotient
  rcases Int.lt_or_le a 0 with ha | ha
  · obtain ⟨n, rfl⟩ : ∃ n : Nat, a = -n := ⟨a.natAbs, by omega⟩
    rcases Int.lt_or_le b 0 with hb | hb
    · obtain ⟨k, rfl⟩ : ∃ k : Nat, b = -k := ⟨b.natAbs, by omega⟩
      rw [if_pos (iff_of_true ha hb), Int.natAbs_neg, Int.natAbs_neg, Int.neg_tdiv_neg]
      exact hnat n k
    · obtain ⟨k, rfl⟩ : ∃ k : Nat, b = k := ⟨b.natAbs, by omega⟩
      rw [if_neg (by omega), Int.natAbs_neg, Int.neg_tdiv]
      exact congrArg (- ·) (hnat n k)
  · obtain ⟨n, rfl⟩ : ∃ n : Nat, a = n := ⟨a.natAbs, by omega⟩
    rcases Int.lt_or_le b 0 with hb | hb
    · obtain ⟨k, rfl⟩ : ∃ k : Nat, b = -k := ⟨b.natAbs, by omega⟩
      rw [if_neg (by omega), Int.natAbs_neg, Int.tdiv_neg]
      exact congrArg (- ·) (hnat n k)
    · obtain ⟨k, rfl⟩ : ∃ k : Nat, b = k := ⟨b.natAbs, by omega⟩
      rw [if_pos (by omega)]
      exact hnat n k

theorem isQuotient_tdiv (a : Int) (hb : b ≠ 0) : IsQuotient a b (a.tdiv b) := by
  refine ⟨a.tmod b, (Int.mul_tdiv_add_tmod a b).symm, ?_, ?_⟩
  · rw [Int.natAbs_tmod]
    exact Nat.mod_lt _ (Int.natAbs_pos.mpr hb)
  · by_cases hdvd : b ∣ a
    · exact Or.inl (Int.tmod_eq_zero_of_dvd hdvd)
    · right
      rw [Int.sign_tmod, if_neg hdvd]

theorem IsQuotient.eq_tdiv (h : IsQuotient a b q) (hb : b ≠ 0) : q = a.tdiv b := by
  obtain ⟨r, hsum, hsmall, hsign⟩ := h
  have hcomm : r + b * q = a := by omega
  -- a dividend that is not negative leaves over nothing negative, and one that is not positive
  -- nothing positive
  rcases Int.le_total 0 a with ha | ha
  · have hr : 0 ≤ r := by
      rcases hsign with rfl | hsign
      · exact Int.le_refl 0
      · rw [← Int.sign_nonneg_iff, hsign, Int.sign_nonneg_iff]
        exact ha
    exact ((Int.tdiv_tmod_unique ha hb).mpr ⟨hcomm, hr, by omega⟩).1.symm
  · have hr : r ≤ 0 := by
      rcases hsign with rfl | hsign
      · exact Int.le_refl 0
      · rw [← Int.sign_nonpos_iff, hsign, Int.sign_nonpos_iff]
        exact ha
    exact ((Int.tdiv_tmod_unique' ha hb).mpr ⟨hcomm, by omega, hr⟩).1.symm

/-- What an operation makes of `a`, the last value of the stack, and `b`, the one before it. -/
def Computes (a b r : Int) : Arithmetic → Prop
  | .adds => r = a + b
  | .subs => r = a - b
  | .muls => r = a * b
  | .divs => IsQuotient a b r ∧ ∀ q, IsQuotient a b q → q = r

theorem computes_apply {op : Arithmetic} (h : ¬(op = .divs ∧ b = 0)) :
    op.Computes a b (op.apply a b) := by
  cases op with
  | adds | subs | muls => rfl
  | divs =>
    have hb : b ≠ 0 := fun hb => h ⟨rfl, hb⟩
    rw [apply, quotient_eq_tdiv]
    exact ⟨isQuotient_tdiv a hb, fun q hq => hq.eq_tdiv hb⟩

end Arithmetic

namespace Effect

def HaltsFor (e : Effect) (kind : Halt.Kind) : Prop :=
  ∃ h, e.fault = some (.halt h) ∧ h.kind = kind

theorem haltsFor_halt (m : Machine) (h : Halt) (kind : Halt.Kind) :
    (halt m h).HaltsFor kind ↔ h.kind = kind := by
  simp [HaltsFor, halt, fail]

theorem not_haltsFor_none (m : Machine) (kind : Halt.Kind) : ¬(none m).HaltsFor kind := by
  simp [HaltsFor, none]

end Effect

namespace Statement

variable {m : Machine} {a b : Int} {below : List Int}

theorem runArithmetic_of_divisor {op : Arithmetic} (hstack : m.stack = a :: b :: below)
    (hdivisor : ¬(op = .divs ∧ b = 0)) (line : Line) :
    runArithmetic line op m = .none { m with stack := op.apply a b :: below } := by
  simp [runArithmetic_eq, hstack, hdivisor]

/-- All that arithmetic can do, by what it finds on the stack. -/
theorem runArithmetic_cases (line : Line) (op : Arithmetic) (m : Machine) :
    (m.stack.length < 2 ∧
      runArithmetic line op m = .halt m (.stackUnderflow op.name line.number)) ∨
    (∃ a below, op = .divs ∧ m.stack = a :: 0 :: below ∧
      runArithmetic line op m = .halt m (.divisionByZero line.number)) ∨
    ∃ a b below, ¬(op = .divs ∧ b = 0) ∧ m.stack = a :: b :: below ∧
      runArithmetic line op m = .none { m with stack := op.apply a b :: below } := by
  match hm : m.stack with
  | [] | [_] =>
    have hshort : m.stack.length < 2 := by simp [hm]
    exact Or.inl ⟨by simp, runArithmetic_of_length_lt hshort line op⟩
  | a :: b :: below =>
    by_cases hdivisor : op = .divs ∧ b = 0
    · obtain ⟨rfl, rfl⟩ := hdivisor
      exact Or.inr (Or.inl ⟨a, below, rfl, rfl, runArithmetic_of_zero hm line⟩)
    · exact Or.inr (Or.inr ⟨a, b, below, hdivisor, rfl, runArithmetic_of_divisor hm hdivisor line⟩)

theorem haltsFor_stackUnderflow_iff (line : Line) (op : Arithmetic) (m : Machine) :
    (runArithmetic line op m).HaltsFor .stackUnderflow ↔ m.stack.length < 2 := by
  obtain ⟨hshort, heq⟩ | ⟨a, below, rfl, hstack, heq⟩ | ⟨a, b, below, -, hstack, heq⟩ :=
    runArithmetic_cases line op m
  · rw [heq, Effect.haltsFor_halt]
    exact iff_of_true rfl hshort
  · rw [heq, Effect.haltsFor_halt]
    exact iff_of_false (by simp [Halt.divisionByZero]) (by simp [hstack])
  · rw [heq]
    exact iff_of_false (Effect.not_haltsFor_none _ _) (by simp [hstack])

theorem haltsFor_divisionByZero_iff (line : Line) (op : Arithmetic) (m : Machine) :
    (runArithmetic line op m).HaltsFor .divisionByZero ↔
      op = .divs ∧ ∃ a below, m.stack = a :: 0 :: below := by
  obtain ⟨hshort, heq⟩ | ⟨a, below, rfl, hstack, heq⟩ | ⟨a, b, below, hdivisor, hstack, heq⟩ :=
    runArithmetic_cases line op m
  · have hnot : ¬∃ a below, m.stack = a :: 0 :: below := by
      rintro ⟨a, below, hstack⟩
      rw [hstack, List.length_cons, List.length_cons] at hshort
      omega
    rw [heq, Effect.haltsFor_halt]
    exact iff_of_false (by simp [Halt.stackUnderflow]) fun h => hnot h.2
  · rw [heq, Effect.haltsFor_halt]
    exact iff_of_true rfl ⟨rfl, a, below, hstack⟩
  · rw [heq, hstack]
    refine iff_of_false (Effect.not_haltsFor_none _ _) ?_
    rintro ⟨hop, x, low, hx⟩
    cases hx
    exact hdivisor ⟨hop, rfl⟩

theorem stack_of_fault {line : Line} {op : Arithmetic}
    (h : (runArithmetic line op m).fault ≠ none) :
    (runArithmetic line op m).machine.stack = m.stack ∧
      ((runArithmetic line op m).HaltsFor .stackUnderflow ∨
        (runArithmetic line op m).HaltsFor .divisionByZero) := by
  obtain ⟨-, heq⟩ | ⟨a, below, -, -, heq⟩ | ⟨a, b, below, -, -, heq⟩ :=
    runArithmetic_cases line op m
  · rw [heq]
    exact ⟨rfl, Or.inl ⟨_, rfl, rfl⟩⟩
  · rw [heq]
    exact ⟨rfl, Or.inr ⟨_, rfl, rfl⟩⟩
  · rw [heq] at h
    exact absurd rfl h

/-- The stack is written here with its top last. On `b` and then `a`, arithmetic leaves the exact
result in their place and changes nothing else. It halts for a short stack just when there are less
than two values, for a zero divisor just when it divides by a `b` that is zero, and for nothing
else; then the stack is what it was. -/
theorem runArithmetic_exact (line : Line) (op : Arithmetic) (m : Machine) :
    (∀ below a b, m.stack.reverse = below ++ [b, a] → ¬(op = .divs ∧ b = 0) →
      ∃ r, op.Computes a b r ∧
        runArithmetic line op m = .none { m with stack := (below ++ [r]).reverse }) ∧
    ((runArithmetic line op m).HaltsFor .stackUnderflow ↔ m.stack.length < 2) ∧
    ((runArithmetic line op m).HaltsFor .divisionByZero ↔
      op = .divs ∧ ∃ below a, m.stack.reverse = below ++ [0, a]) ∧
    ((runArithmetic line op m).fault ≠ none →
      (runArithmetic line op m).machine.stack = m.stack ∧
        ((runArithmetic line op m).HaltsFor .stackUnderflow ∨
          (runArithmetic line op m).HaltsFor .divisionByZero)) := by
  have hreverse (below : List Int) (a b : Int) :
      m.stack.reverse = below ++ [b, a] ↔ m.stack = a :: b :: below.reverse := by
    rw [List.reverse_eq_iff]
    simp
  refine ⟨?_, haltsFor_stackUnderflow_iff line op m, ?_, stack_of_fault⟩
  · intro below a b hstack hdivisor
    refine ⟨op.apply a b, Arithmetic.computes_apply hdivisor, ?_⟩
    rw [runArithmetic_of_divisor ((hreverse below a b).mp hstack) hdivisor]
    simp
  · rw [haltsFor_divisionByZero_iff]
    constructor
    · rintro ⟨hop, a, below, hstack⟩
      exact ⟨hop, below.reverse, a, by simp [hstack]⟩
    · rintro ⟨hop, below, a, hstack⟩
      exact ⟨hop, a, below.reverse, (hreverse below a 0).mp hstack⟩

/-- Seven below zero by two is three below zero with one below zero left over, and nothing by three
below zero is nothing. A zero divisor stays where it was. -/
theorem runArithmetic_exact_negative :
    let line : Line := ⟨[], "", 4, none⟩
    (∃ r, Arithmetic.divs.Computes (-7) 2 r ∧ r = -3 ∧
      runArithmetic line .divs { stack := [-7, 2, 5] } = .none { stack := [r, 5] }) ∧
    (∃ r, Arithmetic.divs.Computes 0 (-3) r ∧ r = 0 ∧
      runArithmetic line .divs { stack := [0, -3] } = .none { stack := [r] }) ∧
    (runArithmetic line .divs { stack := [7, 0] }).machine.stack = [7, 0] := by
  intro line
  obtain ⟨q, hq, hquotient⟩ :=
    (runArithmetic_exact line .divs { stack := [-7, 2, 5] }).1 [5] (-7) 2 rfl (by decide)
  obtain ⟨z, hz, hzero⟩ :=
    (runArithmetic_exact line .divs { stack := [0, -3] }).1 [] 0 (-3) rfl (by decide)
  have hq3 : q = -3 := (hq.2 (-3) ⟨-1, by decide, by decide, by decide⟩).symm
  have hz0 : z = 0 := (hz.2 0 ⟨0, by decide, by decide, by decide⟩).symm
  refine ⟨⟨q, hq, hq3, hquotient⟩, ⟨z, hz, hz0, hzero⟩, ?_⟩
  exact ((runArithmetic_exact line .divs { stack := [7, 0] }).2.2.2 (by decide)).1

end Statement
end LineAssembly
