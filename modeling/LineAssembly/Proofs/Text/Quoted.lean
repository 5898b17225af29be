import LineAssembly.Proofs.Number.Hex
import LineAssembly.Text.Quoted
import Mathlib.Tactic.SplitIfs

/-! Texts that can be read in one way only. A run ends at the first of a character that it does not
have, runs between separators are told apart again, and a quoted text is that of one text alone. -/
namespace LineAssembly
namespace Text

section Runs

variable {α : Type} {c : α}

theorem eq_of_append_cons_eq {xs ys s t : List α} (hxs : c ∉ xs) (hys : c ∉ ys)
    (h : xs ++ c :: s = ys ++ c :: t) : xs = ys ∧ s = t := by
  induction xs generalizing ys with
  | nil =>
    cases ys with
    | nil => exact ⟨rfl, (List.cons.inj h).2⟩
    | cons y ys =>
      obtain ⟨rfl, -⟩ := List.cons.inj h
      exact absurd List.mem_cons_self hys
  | cons x xs ih =>
    cases ys with
    | nil =>
      obtain ⟨rfl, -⟩ := List.cons.inj h
      exact absurd List.mem_cons_self hxs
    | cons y ys =>
      obtain ⟨rfl, htail⟩ := List.cons.inj h
      obtain ⟨rfl, rfl⟩ := ih (fun hc => hxs (List.mem_cons_of_mem x hc))
        (fun hc => hys (List.mem_cons_of_mem x hc)) htail
      exact ⟨rfl, rfl⟩

theorem not_mem_intercalate {sep : List α} {xs : List (List α)} (hsep : c ∉ sep)
    (hxs : ∀ x ∈ xs, c ∉ x) : c ∉ sep.intercalate xs := by
  induction xs with
  | nil => simp
  | cons x xs ih =>
    have hx := hxs x List.mem_cons_self
    have hrest := ih fun y hy => hxs y (List.mem_cons_of_mem x hy)
    cases xs with
    | nil => simpa using hx
    | cons y xs => simp [hx, hsep, hrest]

/-- A run that may stand between separators that begin with `c`. -/
structure IsRun (c : α) (xs : List α) : Prop where
  ne_nil : xs ≠ []
  not_mem : c ∉ xs

instance [DecidableEq α] (c : α) (xs : List α) : Decidable (IsRun c xs) :=
  decidable_of_iff (xs ≠ [] ∧ c ∉ xs) ⟨fun h => ⟨h.1, h.2⟩, fun h => ⟨h.1, h.2⟩⟩

/-- Runs between separators are told apart, and so is their number. -/
theorem eq_of_intercalate_eq {sep : List α} {xs ys : List (List α)} (hxs : ∀ x ∈ xs, IsRun c x)
    (hys : ∀ y ∈ ys, IsRun c y) (h : (c :: sep).intercalate xs = (c :: sep).intercalate ys) :
    xs = ys := by
  have hnil {x : List α} (hx : IsRun c x) (zs : List (List α)) :
      (c :: sep).intercalate (x :: zs) ≠ [] := by
    cases zs <;> simp [hx.ne_nil]
  have hsingle {x : List α} (hx : IsRun c x) (y z : List α) (zs : List (List α)) :
      x ≠ (c :: sep).intercalate (y :: z :: zs) := by
    intro heq
    refine hx.not_mem ?_
    rw [heq, List.intercalate_cons_cons]
    simp
  induction xs generalizing ys with
  | nil =>
    cases ys with
    | nil => rfl
    | cons y ys => exact absurd h.symm (hnil (hys y List.mem_cons_self) ys)
  | cons x xs ih =>
    have hx := hxs x List.mem_cons_self
    cases ys with
    | nil => exact absurd h (hnil hx xs)
    | cons y ys =>
      have hy := hys y List.mem_cons_self
      match xs, ys with
      | [], [] => simpa using h
      | [], z :: ys => exact absurd (by simpa using h) (hsingle hx y z ys)
      | z :: xs, [] => exact absurd (by simpa using h.symm) (hsingle hy x z xs)
      | z :: xs, z' :: ys =>
        rw [List.intercalate_cons_cons, List.intercalate_cons_cons, List.append_assoc,
          List.append_assoc] at h
        obtain ⟨rfl, hmore⟩ := eq_of_append_cons_eq hx.not_mem hy.not_mem h
        have hrest := ih (fun w hw => hxs w (List.mem_cons_of_mem x hw))
          (fun w hw => hys w (List.mem_cons_of_mem x hw)) (List.append_cancel_left hmore)
        rw [hrest]

end Runs

def readCode (width : Nat) (cs : List Char) : Option (Char × List Char) :=
  (Hex.value? (cs.take width)).map fun n => (Char.ofNat n, cs.drop width)

/-- The first character of a quoted text, and what follows. -/
def readChar : List Char → Option (Char × List Char)
  | [] => none
  | '\\' :: 'n' :: cs => some ('\n', cs)
  | '\\' :: 'r' :: cs => some ('\r', cs)
  | '\\' :: 't' :: cs => some ('\t', cs)
  | '\\' :: 'x' :: cs => readCode 2 cs
  | '\\' :: 'u' :: cs => readCode 4 cs
  | '\\' :: 'U' :: cs => readCode 8 cs
  | '\\' :: c :: cs => some (c, cs)
  | c :: cs => some (c, cs)

theorem readChar_of_ne {c : Char} (hc : c ≠ '\\') (cs : List Char) :
    readChar (c :: cs) = some (c, cs) := by
  unfold readChar
  split <;> simp_all

theorem readCode_padded {width : Nat} (hwidth : 0 < width) {c : Char} (hc : c.toNat < 16 ^ width)
    (rest : List Char) : readCode width (Hex.padded width c.toNat ++ rest) = some (c, rest) := by
  have hlength := Hex.length_padded hwidth hc
  rw [readCode, List.take_left' hlength, List.drop_left' hlength, Hex.value?_padded,
    Option.map_some, Char.ofNat_toNat]

theorem readChar_escapeCode (c : Char) (rest : List Char) :
    readChar (escapeCode c.toNat ++ rest) = some (c, rest) := by
  unfold escapeCode
  split
  · exact readCode_padded (by decide) (by omega) rest
  · split
    · exact readCode_padded (by decide) (by omega) rest
    · have hlt : c.toNat < 2 ^ 32 := c.val.toNat_lt
      exact readCode_padded (by decide) (by omega) rest

def IsQuote (q : Char) : Prop := q = '\'' ∨ q = '"'

theorem isQuote_quoteFor (cs : List Char) : IsQuote (quoteFor cs) := by
  unfold quoteFor
  split
  · exact .inr rfl
  · exact .inl rfl

/-- The first character of a quoted text is read back, whatever follows it. -/
theorem readChar_escapeChar {q : Char} (hq : IsQuote q) (c : Char) (rest : List Char) :
    readChar (escapeChar q c ++ rest) = some (c, rest) := by
  unfold escapeChar
  split_ifs with hquote hbackslash hnewline hreturn htab
  · obtain rfl | rfl := hq <;> rw [hquote] <;> rfl
  · rw [hbackslash]
    rfl
  · rw [hnewline]
    rfl
  · rw [hreturn]
    rfl
  · rw [htab]
    rfl
  · exact readChar_of_ne hbackslash rest
  · exact readChar_escapeCode c rest

theorem eq_of_flatMap_escapeChar_eq {q : Char} (hq : IsQuote q) {cs ds : List Char}
    (h : cs.flatMap (escapeChar q) = ds.flatMap (escapeChar q)) : cs = ds := by
  induction cs generalizing ds with
  | nil =>
    cases ds with
    | nil => rfl
    | cons d ds =>
      have hread := readChar_escapeChar hq d (ds.flatMap (escapeChar q))
      rw [← List.flatMap_cons, ← h] at hread
      cases hread
  | cons c cs ih =>
    have hc := readChar_escapeChar hq c (cs.flatMap (escapeChar q))
    cases ds with
    | nil =>
      rw [← List.flatMap_cons, h] at hc
      cases hc
    | cons d ds =>
      have hd := readChar_escapeChar hq d (ds.flatMap (escapeChar q))
      rw [← List.flatMap_cons, h, List.flatMap_cons, hd] at hc
      obtain ⟨rfl, hrest⟩ := Prod.mk.inj (Option.some.inj hc)
      rw [ih hrest.symm]

/-- A quoted text shows its quote first, and between the quotes its characters one by one. -/
theorem quoteChars_injective : Function.Injective quoteChars := by
  intro cs ds h
  obtain ⟨hquote, hinner⟩ := List.cons.inj h
  rw [hquote] at hinner
  exact eq_of_flatMap_escapeChar_eq (isQuote_quoteFor ds) (List.append_cancel_right hinner)

theorem newline_not_mem_escapeCode (n : Nat) : '\n' ∉ escapeCode n := by
  have hpadded (width : Nat) : '\n' ∉ Hex.padded width n := fun h =>
    absurd (Hex.isSome_digit?_of_mem_padded h) (by decide)
  unfold escapeCode
  split
  · simp [hpadded]
  · split <;> simp [hpadded]

theorem newline_not_mem_escapeChar {q : Char} (hq : IsQuote q) (c : Char) :
    '\n' ∉ escapeChar q c := by
  unfold escapeChar
  split_ifs with hquote hbackslash hnewline
  · obtain rfl | rfl := hq <;> rw [hquote] <;> decide
  · decide
  · decide
  · decide
  · decide
  · simpa using fun h => hnewline h.symm
  · exact newline_not_mem_escapeCode c.toNat

theorem newline_not_mem_quoteChars (cs : List Char) : '\n' ∉ quoteChars cs := by
  have hq := isQuote_quoteFor cs
  have hne : '\n' ≠ quoteFor cs := by
    intro h
    obtain hq | hq := hq <;> rw [hq] at h <;> exact absurd h (by decide)
  simp [quoteChars, quoteWith, hne, newline_not_mem_escapeChar hq]

end Text
end LineAssembly
