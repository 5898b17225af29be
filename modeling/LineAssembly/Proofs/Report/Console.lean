import LineAssembly.Proofs.Number.Decimal
import LineAssembly.Report.Console

/-! What the console does to a text. It shows a text as it is, apart from tabs and the characters
that it removes, and takes one line after the other. -/
namespace LineAssembly
namespace Console

def keeps (c : Char) : Bool := !isRemoved c && c ≠ '\t'

/-- A text on one line of which the console removes nothing. -/
def IsWhole (s : String) : Prop := ∀ c ∈ s.toList, c ≠ '\n' ∧ isRemoved c = false

instance (s : String) : Decidable (IsWhole s) := List.decidableBAll _ _

theorem IsWhole.newline_not_mem {s : String} (h : IsWhole s) : '\n' ∉ s.toList :=
  fun hmem => (h '\n' hmem).1 rfl

theorem isRemoved_of_keeps {c : Char} (h : keeps c = true) : isRemoved c = false := by
  simp only [keeps, Bool.and_eq_true, Bool.not_eq_true'] at h
  exact h.1

theorem mem_of_mem_clean {c : Char} {cs : List Char} (h : c ∈ clean cs) : c ∈ cs :=
  (List.mem_filter.mp h).1

theorem clean_eq_self {cs : List Char} (h : ∀ c ∈ cs, isRemoved c = false) : clean cs = cs := by
  apply List.filter_eq_self.mpr
  intro c hc
  simp [h c hc]

theorem IsWhole.clean_eq {s : String} (h : IsWhole s) : clean s.toList = s.toList :=
  clean_eq_self fun c hc => (h c hc).2

theorem clean_replicate {c : Char} (h : isRemoved c = false) (n : Nat) :
    clean (List.replicate n c) = List.replicate n c := by
  apply clean_eq_self
  intro d hd
  rwa [List.eq_of_mem_replicate hd]

theorem expandTabs_of_no_tab (g : Text.Gauge) {cs : List Char} (h : '\t' ∉ cs) :
    expandTabs g cs = cs := by
  induction cs generalizing g with
  | nil => rfl
  | cons c cs ih =>
    have hc : c ≠ '\t' := fun heq => h (by simp [heq])
    have hrest : '\t' ∉ cs := fun hmem => h (by simp [hmem])
    by_cases hnewline : c = '\n'
    · rw [expandTabs, if_pos hnewline, ih {} hrest]
    · rw [expandTabs, if_neg hnewline, if_neg hc, ih (g.add c) hrest]

theorem keeps_of_isDigit {c : Char} (h : Decimal.isDigit c = true) : keeps c = true := by
  simp only [Decimal.isDigit, Bool.and_eq_true, decide_eq_true_eq] at h
  have hle : '0'.toNat ≤ c.toNat := h.1
  have h0 : '0'.toNat = 48 := rfl
  have htab : c ≠ '\t' := by
    rintro rfl
    exact absurd hle (by decide)
  have hremoved : isRemoved c = false := by
    simp only [isRemoved, Bool.or_eq_false_iff, decide_eq_false_iff_not]
    omega
  simp [keeps, hremoved, htab]

theorem keeps_of_mem_ofInt {n : Int} {c : Char} (h : c ∈ Decimal.ofInt n) : keeps c = true := by
  rcases Decimal.mem_ofInt h with rfl | hdigit
  · decide
  · exact keeps_of_isDigit hdigit

theorem expandTabs_append_newline (g : Text.Gauge) (cs ds : List Char) :
    expandTabs g (cs ++ '\n' :: ds) = expandTabs g cs ++ '\n' :: expandTabs {} ds := by
  induction cs generalizing g with
  | nil => simp [expandTabs]
  | cons c cs ih =>
    simp only [List.cons_append, expandTabs]
    split
    · rw [ih, List.cons_append]
    · split
      · rw [ih, List.append_assoc]
      · rw [ih, List.cons_append]

/-- Tabs are measured from the start of their line, so each line is expanded by itself. -/
theorem expandTabs_intercalate (rows : List (List Char)) :
    expandTabs {} (['\n'].intercalate rows) = ['\n'].intercalate (rows.map (expandTabs {})) := by
  induction rows with
  | nil => rfl
  | cons row rows ih =>
    cases rows with
    | nil => simp
    | cons next rows =>
      rw [List.intercalate_cons_cons, List.append_assoc, List.singleton_append,
        expandTabs_append_newline, ih]
      simp only [List.map_cons, List.intercalate_cons_cons, List.append_assoc,
        List.singleton_append]

theorem newline_not_mem_expandTabs (g : Text.Gauge) {cs : List Char} (h : '\n' ∉ cs) :
    '\n' ∉ expandTabs g cs := by
  induction cs generalizing g with
  | nil => exact h
  | cons c cs ih =>
    rw [List.mem_cons, not_or] at h
    simp only [expandTabs, Ne.symm h.1, if_false]
    split
    · simp [ih {} h.2]
    · simp [h.1, ih (g.add c) h.2]

theorem exists_expandTabs_append (g : Text.Gauge) (cs ds : List Char) :
    ∃ g', expandTabs g (cs ++ ds) = expandTabs g cs ++ expandTabs g' ds := by
  induction cs generalizing g with
  | nil => exact ⟨g, rfl⟩
  | cons c cs ih =>
    simp only [List.cons_append, expandTabs]
    split
    · obtain ⟨g', hg⟩ := ih {}
      exact ⟨g', by rw [hg, List.cons_append]⟩
    · split
      · obtain ⟨g', hg⟩ := ih {}
        exact ⟨g', by rw [hg, List.append_assoc]⟩
      · obtain ⟨g', hg⟩ := ih (g.add c)
        exact ⟨g', by rw [hg, List.cons_append]⟩

end Console
end LineAssembly
