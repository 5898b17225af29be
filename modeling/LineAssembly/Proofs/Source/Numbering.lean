import LineAssembly.Proofs.Source.Concatenation

/-! Numbers of lines. Lines may be added to a listing also behind one that could not be read. That
one is left out as if it had never been tried, so that the others are numbered without gaps and each
label carries the number of its line. Of a program that was read, no token is anywhere but on its
lines. -/
namespace LineAssembly

def LineReading.line? (r : LineReading) : Option Line := r.result.toOption

namespace Listing

/-- The listing after an attempt to add each of some lines. -/
def after (l : Listing) (raws : List String) : Listing :=
  raws.foldl (fun l raw => (l.add raw).1) l

/-- The lines that were tried, each with what reading it gave when its turn came. -/
def attempts (l : Listing) : List String → List (String × LineReading)
  | [] => []
  | raw :: raws => (raw, (l.add raw).2) :: (l.add raw).1.attempts raws

variable {l : Listing} {raw : String} {line : Line} {excess : Decimal.TooLong}

theorem after_cons (l : Listing) (raw : String) (raws : List String) :
    l.after (raw :: raws) = (l.add raw).1.after raws := rfl

theorem add_snd (l : Listing) (raw : String) : (l.add raw).2 = Line.read l.next raw := by
  simp only [add]
  split <;> rfl

theorem lines_add_of_ok (h : (l.add raw).2.result = .ok line) :
    (l.add raw).1.lines = l.lines ++ [line] := by
  rw [add_snd] at h
  simp only [add, h]

theorem lines_add_of_error (h : (l.add raw).2.result = .error excess) :
    (l.add raw).1.lines = l.lines := by
  rw [add_snd] at h
  simp only [add, h]

theorem eq_of_add (h : (l.add raw).2.result = .ok line) :
    line.number = l.next ∧ line.source = raw := by
  rw [add_snd] at h
  exact Line.eq_of_read h

theorem lines_after (l : Listing) (raws : List String) :
    (l.after raws).lines.map (fun line => (line.source, line)) =
      l.lines.map (fun line => (line.source, line)) ++
        (l.attempts raws).filterMap fun a => a.2.line?.map fun line => (a.1, line) := by
  induction raws generalizing l with
  | nil => simp [after, attempts]
  | cons raw raws ih =>
    rw [after_cons, ih, attempts]
    cases hr : (l.add raw).2.result with
    | ok line =>
      have hline : (l.add raw).2.line? = some line := by rw [LineReading.line?, hr]; rfl
      simp [lines_add_of_ok hr, hline, (eq_of_add hr).2]
    | error excess =>
      have hline : (l.add raw).2.line? = none := by rw [LineReading.line?, hr]; rfl
      simp [lines_add_of_error hr, hline]

/-- A listing of lines that were read and are numbered without gaps, whatever it has counted. What
lines that were left out have reported stays in the count, so that this says less than `IsRead`. -/
def IsNumbered (l : Listing) : Prop := ∃ count, IsRead { l with errorCount := count }

theorem isNumbered_of_lines_eq {l' : Listing} (hl : l.IsNumbered) (h : l'.lines = l.lines) :
    l'.IsNumbered := by
  obtain ⟨count, hcount⟩ := hl
  rw [← h] at hcount
  exact ⟨count, hcount⟩

theorem IsNumbered.add (hl : l.IsNumbered) (raw : String) : (l.add raw).1.IsNumbered := by
  cases hr : (l.add raw).2.result with
  | error excess => exact isNumbered_of_lines_eq hl (lines_add_of_error hr)
  | ok line =>
    -- the line is read alike whatever was counted, so it is added where the count is right
    obtain ⟨count, hcount⟩ := hl
    have hr' : (({ l with errorCount := count } : Listing).add raw).2.result = .ok line := by
      rw [add_snd] at hr ⊢
      exact hr
    have hnumbered : (({ l with errorCount := count } : Listing).add raw).1.IsNumbered :=
      ⟨_, isRead_add hcount hr'⟩
    exact isNumbered_of_lines_eq hnumbered
      ((lines_add_of_ok hr).trans (lines_add_of_ok hr').symm)

theorem IsNumbered.after (hl : l.IsNumbered) (raws : List String) : (l.after raws).IsNumbered := by
  induction raws generalizing l with
  | nil => exact hl
  | cons raw raws ih => exact ih (hl.add raw)

theorem isNumbered_after (raws : List String) : (after {} raws).IsNumbered :=
  IsNumbered.after ⟨0, isRead_empty⟩ raws

theorem IsRead.pairwise_number (h : l.IsRead) : l.lines.Pairwise (·.number < ·.number) := by
  rw [← List.pairwise_map (f := Line.number) (R := (· < ·)), h.numbers, List.pairwise_map]
  refine List.pairwise_lt_range.imp fun hlt => ?_
  omega

end Listing

namespace Line.IsRead

variable {l : Line}

/-- Labels carry the number of their line: the line is as it would be if they all did. -/
theorem line_of_mem_labels (h : l.IsRead) {place : Label} (hplace : place ∈ l.labels) :
    place.line = l.number := by
  let ρ : Relocation := { number := fun _ => l.number }
  have hself : l.relocate ρ = l.relocate {} := h.relocate_congr rfl rfl rfl rfl rfl
  rw [relocate_default, id] at hself
  rw [← hself, labels_relocate] at hplace
  obtain ⟨place', -, rfl⟩ := List.mem_map.mp hplace
  rfl

theorem line_of_mem_tokens (h : l.IsRead) {t : Token} (ht : t ∈ l.tokens) {place : Label}
    (hkind : t.kind = .label place) : place.line = l.number :=
  h.line_of_mem_labels (List.mem_filterMap.mpr ⟨t, ht, Token.label?_eq_some.mpr hkind⟩)

end Line.IsRead

theorem Header.taken_sublist (ts : List Token) : (readArguments ts).taken.Sublist ts := by
  induction ts with
  | nil => exact List.Sublist.refl _
  | cons t ts ih =>
    simp only [readArguments]
    split
    · exact List.nil_sublist _
    · split
      · exact ih.cons t
      · exact ih.cons_cons t

theorem Extraction.exists_arguments {ls : List Line} {r : Routine}
    (hr : r ∈ (ofLines ls).routines) : ∃ l ∈ ls, r.arguments.Sublist l.tokens := by
  rw [routines_ofLines] at hr
  obtain ⟨b, hb, hbr⟩ := List.mem_filterMap.mp hr
  obtain ⟨r', hr', rfl⟩ := Option.map_eq_some_iff.mp hbr
  obtain ⟨first, name, bracket, tokens, htokens, -, -, rfl⟩ := Header.exists_of_routine hr'
  refine ⟨b.header, (Block.startsRoutine_header hb).1, ?_⟩
  rw [htokens]
  exact (((Header.taken_sublist tokens).cons bracket).cons name).cons first

namespace Program

/-- A token anywhere in a program. -/
inductive Holds (p : Program) (t : Token) : Prop where
  | line {l : Line} (line : l ∈ p.lines) (token : t ∈ l.tokens)
  | argument {r : Routine} (routine : r ∈ p.routines) (token : t ∈ r.arguments)
  | body {r : Routine} {l : Line} (routine : r ∈ p.routines) (line : l ∈ r.lines)
      (token : t ∈ l.tokens)
  | dangling {l : Line} (line : l ∈ p.dangling) (token : t ∈ l.tokens)

theorem Holds.exists_line {l : Listing} {t : Token} (h : (ofListing l).Holds t) :
    ∃ line ∈ l.lines, t ∈ line.tokens := by
  cases h with
  | line hline ht => exact ⟨_, hline, ht⟩
  | argument hr ht =>
    obtain ⟨line, hline, hsub⟩ := Extraction.exists_arguments hr
    exact ⟨line, hline, hsub.subset ht⟩
  | body hr hx ht =>
    obtain ⟨line, hline, hpart⟩ := Extraction.exists_partOf hr hx
    exact ⟨line, hline, hpart.tokens.subset ht⟩
  | dangling hx ht =>
    obtain ⟨line, hline, hkept⟩ := List.mem_flatMap.mp
      ((Extraction.perm_kept l.lines).mem_iff.mp (List.mem_append_right _ hx))
    exact ⟨line, hline, (Line.partOf_of_mem_kept hkept).tokens.subset ht⟩

theorem labels_eq_filterMap (p : Program) :
    p.labels = (p.lines.flatMap Line.tokens).filterMap Token.label? :=
  (List.filterMap_flatMap ..).symm

theorem mem_labels_ofListing {l : Listing} {place : Label} :
    place ∈ (ofListing l).labels ↔ ∃ t, (ofListing l).Holds t ∧ t.kind = .label place := by
  rw [labels_eq_filterMap]
  constructor
  · intro h
    obtain ⟨t, ht, hplace⟩ := List.mem_filterMap.mp h
    obtain ⟨line, hline, ht⟩ := List.mem_flatMap.mp ht
    exact ⟨t, .line hline ht, Token.label?_eq_some.mp hplace⟩
  · rintro ⟨t, ht, hkind⟩
    obtain ⟨line, hline, ht⟩ := ht.exists_line
    exact List.mem_filterMap.mpr
      ⟨t, List.mem_flatMap.mpr ⟨line, hline, ht⟩, Token.label?_eq_some.mpr hkind⟩

theorem pairwise_labels_ofListing {l : Listing} (h : l.IsRead) :
    ((ofListing l).labels.map Label.line).Pairwise (· ≤ ·) := by
  have hline : ∀ line ∈ l.lines, ∀ place ∈ line.labels, place.line = line.number :=
    fun line hl place hplace => (h.lines line hl).line_of_mem_labels hplace
  rw [List.pairwise_map, labels, List.pairwise_flatMap]
  constructor
  · intro line hl
    rw [List.pairwise_iff_forall_sublist]
    intro x y hxy
    have hx := hline line hl x (hxy.subset (by simp))
    have hy := hline line hl y (hxy.subset (by simp))
    omega
  · refine h.pairwise_number.imp_of_mem fun {line line'} hl hl' hlt x hx y hy => ?_
    have hx := hline line hl x hx
    have hy := hline line' hl' y hy
    omega

end Program
end LineAssembly
