import LineAssembly.Number.Decimal
import Mathlib.Algebra.Order.Ring.Nat
import Mathlib.Data.List.Induction

/-! Numerals. A number that was read under the digit limit never exceeds the limit on writing, and
the decimal text of a number denotes it again. -/
namespace LineAssembly
namespace Decimal

theorem digit_lt {c : Char} (hc : isDigit c = true) : c.toNat - '0'.toNat < 10 := by
  simp only [isDigit, Bool.and_eq_true, decide_eq_true_eq] at hc
  have hle : c.toNat ≤ '9'.toNat := hc.2
  have h9 : '9'.toNat = 57 := rfl
  have h0 : '0'.toNat = 48 := rfl
  omega

theorem value_lt {cs : List Char} (hcs : cs.all isDigit = true) : value cs < 10 ^ cs.length := by
  induction cs using List.reverseRecOn with
  | nil => simp
  | append_singleton cs c ih =>
    simp only [List.all_append, List.all_cons, List.all_nil, Bool.and_true, Bool.and_eq_true] at hcs
    have hv := ih hcs.1
    have hd := digit_lt hcs.2
    rw [value_append_singleton, List.length_append, List.length_singleton, Nat.pow_succ]
    omega

theorem fits_of_read {cs : List Char} {n : Nat} (hcs : isNumeral cs = true)
    (hn : read cs = .ok n) : fits n = true := by
  simp only [isNumeral, Bool.and_eq_true] at hcs
  simp only [read] at hn
  split at hn
  · rename_i hle
    cases hn
    have hpow : value cs < 10 ^ limit :=
      Nat.lt_of_lt_of_le (value_lt hcs.2) (Nat.pow_le_pow_right (by decide) hle)
    have hlen := (Nat.length_toDigits_le_iff (by decide) (by decide)).2 hpow
    exact decide_eq_true hlen
  · cases hn

theorem value_digits (n : Nat) : value (digits n) = n := by
  have hvalue : ∀ cs, value cs = Nat.ofDigitChars 10 cs 0 := fun cs =>
    (Nat.ofDigitChars_eq_foldl).symm
  rw [hvalue, digits, Nat.ofDigitChars_ten_toDigits]

theorem isDigit_of_mem_digits {n : Nat} {c : Char} (h : c ∈ digits n) : isDigit c = true := by
  have hc := Nat.isDigit_of_mem_toDigits (by decide) (by decide) h
  simp only [Char.isDigit, Bool.and_eq_true, decide_eq_true_eq] at hc
  simp only [isDigit, Bool.and_eq_true, decide_eq_true_eq]
  exact hc

theorem mem_ofInt {n : Int} {c : Char} (h : c ∈ ofInt n) : c = '-' ∨ isDigit c = true := by
  unfold ofInt at h
  split at h
  · exact (List.mem_cons.mp h).imp_right isDigit_of_mem_digits
  · exact .inr (isDigit_of_mem_digits h)

theorem not_mem_ofInt {c : Char} (hsign : c ≠ '-') (hdigit : isDigit c = false) (n : Int) :
    c ∉ ofInt n := by
  intro h
  rcases mem_ofInt h with h | h
  · exact hsign h
  · rw [hdigit] at h
    cases h

theorem ofInt_ne_nil (n : Int) : ofInt n ≠ [] := by
  unfold ofInt
  split
  · exact List.cons_ne_nil _ _
  · exact Nat.toDigits_ne_nil

theorem digits_injective : Function.Injective digits := by
  intro m n h
  rw [← value_digits m, ← value_digits n, h]

/-- The sign is there for negative numbers only, and the digits give the absolute value. -/
theorem ofInt_injective : Function.Injective ofInt := by
  have hsign (k l : Nat) : '-' :: digits k ≠ digits l := by
    intro h
    have hdash : '-' ∈ digits l := h ▸ List.mem_cons_self
    exact absurd (isDigit_of_mem_digits hdash) (by decide)
  intro m n h
  have hsame : m < 0 ↔ n < 0 := by
    by_cases hm : m < 0 <;> by_cases hn : n < 0 <;>
      simp [ofInt, hm, hn, hsign, (hsign _ _).symm] at h ⊢
  have hdigits : digits m.natAbs = digits n.natAbs := by
    by_cases hm : m < 0
    · simpa [ofInt, hm, hsame.mp hm] using h
    · simpa [ofInt, hm, mt hsame.mpr hm] using h
  have habs := digits_injective hdigits
  omega

theorem head?_digits_ne {n : Nat} (hn : 0 < n) : (digits n).head? ≠ some '0' := by
  have hdigit : ∀ k < 10, Nat.digitChar k = '0' → k = 0 := by decide
  induction n using Nat.strongRecOn with
  | ind n ih =>
    rw [digits, Nat.toDigits_eq_if (by decide)]
    split
    · rename_i hlt
      intro hhead
      have hzero := hdigit n hlt (Option.some.inj hhead)
      omega
    · rename_i hge
      have hrest := ih (n / 10) (by omega) (by omega)
      obtain ⟨c, cs, hcs⟩ := List.exists_cons_of_ne_nil (@Nat.toDigits_ne_nil (n / 10) 10)
      rw [digits, hcs] at hrest
      rw [hcs]
      exact hrest

end Decimal
end LineAssembly
