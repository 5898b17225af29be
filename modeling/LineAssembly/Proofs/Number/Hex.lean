import LineAssembly.Number.Hex
import Mathlib.Algebra.Order.Ring.Nat
import Mathlib.Data.Nat.Basic

/-! Hexadecimal texts. They are read back to the number they were written for, with or without zeros
in front. -/
namespace LineAssembly
namespace Hex

theorem digit?_digitChar : ∀ k < 16, digit? (Nat.digitChar k) = some k := by decide

theorem value?_append_singleton (cs : List Char) (c : Char) :
    value? (cs ++ [c]) = (value? cs).bind fun v => (digit? c).map (16 * v + ·) := by
  simp [value?, List.foldlM_append]

theorem value?_digits (n : Nat) : value? (digits n) = some n := by
  induction n using Nat.strongRecOn with
  | ind n ih =>
    rw [digits, Nat.toDigits_eq_if (by decide)]
    split
    · rename_i hlt
      simp [value?, digit?_digitChar n hlt]
    · rename_i hge
      have hrest := ih (n / 16) (by omega)
      rw [digits] at hrest
      rw [value?_append_singleton, hrest, digit?_digitChar _ (Nat.mod_lt n (by decide)),
        Option.bind_some, Option.map_some, Nat.div_add_mod]

theorem value?_zeros (k : Nat) (cs : List Char) :
    value? (List.replicate k '0' ++ cs) = value? cs := by
  have hzeros : value? (List.replicate k '0') = some 0 := by
    induction k with
    | zero => rfl
    | succ k ih =>
      rw [List.replicate_succ', value?_append_singleton, ih]
      rfl
  unfold value? at hzeros ⊢
  rw [List.foldlM_append, hzeros]
  rfl

theorem value?_padded (width n : Nat) : value? (padded width n) = some n := by
  rw [padded, value?_zeros, value?_digits]

theorem length_padded {width n : Nat} (hwidth : 0 < width) (hn : n < 16 ^ width) :
    (padded width n).length = width := by
  have hlength : (digits n).length ≤ width :=
    (Nat.length_toDigits_le_iff (by decide) hwidth).mpr hn
  rw [padded, List.length_append, List.length_replicate]
  omega

theorem digits_injective : Function.Injective digits := by
  intro m n h
  have hvalue := congrArg value? h
  rw [value?_digits, value?_digits] at hvalue
  exact Option.some.inj hvalue

theorem isSome_digit?_of_mem_digits {n : Nat} {c : Char} (h : c ∈ digits n) :
    (digit? c).isSome = true := by
  induction n using Nat.strongRecOn with
  | ind n ih =>
    rw [digits, Nat.toDigits_eq_if (by decide)] at h
    split at h
    · rename_i hlt
      rw [List.mem_singleton.mp h, digit?_digitChar n hlt]
      rfl
    · rename_i hge
      rcases List.mem_append.mp h with h | h
      · exact ih (n / 16) (by omega) h
      · rw [List.mem_singleton.mp h, digit?_digitChar _ (Nat.mod_lt n (by decide))]
        rfl

theorem isSome_digit?_of_mem_padded {width n : Nat} {c : Char} (h : c ∈ padded width n) :
    (digit? c).isSome = true := by
  rcases List.mem_append.mp h with h | h
  · rw [List.eq_of_mem_replicate h]
    rfl
  · exact isSome_digit?_of_mem_digits h

theorem mem_ofInt {n : Int} {c : Char} (h : c ∈ ofInt n) :
    c = '-' ∨ c = 'x' ∨ (digit? c).isSome = true := by
  have hcases : c = '-' ∨ c = '0' ∨ c = 'x' ∨ c ∈ digits n.natAbs := by
    unfold ofInt at h
    split at h
    · simpa using h
    · exact .inr (by simpa using h)
  obtain h | rfl | h | h := hcases
  · exact .inl h
  · exact .inr (.inr rfl)
  · exact .inr (.inl h)
  · exact .inr (.inr (isSome_digit?_of_mem_digits h))

theorem not_mem_ofInt {c : Char} (hsign : c ≠ '-') (hmark : c ≠ 'x') (hdigit : digit? c = none)
    (n : Int) : c ∉ ofInt n := by
  intro h
  obtain h | h | h := mem_ofInt h
  · exact hsign h
  · exact hmark h
  · rw [hdigit] at h
    cases h

theorem ofInt_injective : Function.Injective ofInt := by
  intro m n h
  have hsame : m < 0 ↔ n < 0 := by
    by_cases hm : m < 0 <;> by_cases hn : n < 0 <;> simp [ofInt, hm, hn] at h ⊢
  have hdigits : digits m.natAbs = digits n.natAbs := by
    by_cases hm : m < 0
    · simpa [ofInt, hm, hsame.mp hm] using h
    · simpa [ofInt, hm, mt hsame.mpr hm] using h
  have habs := digits_injective hdigits
  omega

end Hex
end LineAssembly
