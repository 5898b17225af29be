import LineAssembly.Proofs.Source.Tidy

/-! Scanning in pieces. A line can be cut at a blank and at a delimiter, and what is cut off is
scanned as it would be on its own, but for its columns. -/
namespace LineAssembly
namespace Word

theorem scanFrom_append_delimiter {delimiter : Char → Bool} {d : Char}
    (hblank : Text.isBlank d = false) (hd : delimiter d = true) (column : Nat)
    (run cs ds : List Char) :
    scanFrom delimiter column run (cs ++ d :: ds) =
      scanFrom delimiter column run cs ++
        ⟨String.singleton d, column + cs.length⟩ ::
          scanFrom delimiter (column + cs.length + 1) [] ds := by
  induction cs generalizing column run with
  | nil => simp [scanFrom, hblank, hd]
  | cons c cs ih =>
    simp only [List.cons_append, scanFrom, List.length_cons]
    split
    · rw [ih]; simp [Nat.add_assoc, Nat.add_comm 1]
    · split
      · rw [ih]; simp [Nat.add_assoc, Nat.add_comm 1]
      · rw [ih]; simp [Nat.add_assoc, Nat.add_comm 1]

theorem map_text_scanFrom (delimiter : Char → Bool) (column column' : Nat) (run cs : List Char) :
    (scanFrom delimiter column run cs).map text = (scanFrom delimiter column' run cs).map text := by
  have hrun (column column' : Nat) (run : List Char) :
      (ofRun column run).map text = (ofRun column' run).map text := by
    unfold ofRun
    split <;> rfl
  induction cs generalizing column column' run with
  | nil => exact hrun column column' run
  | cons c cs ih =>
    simp only [scanFrom]
    split
    · rw [List.map_append, List.map_append, hrun column column', ih (column + 1) (column' + 1)]
    · split
      · rw [List.map_append, List.map_append, hrun column column', List.map_cons, List.map_cons,
          ih (column + 1) (column' + 1)]
      · exact ih (column + 1) (column' + 1) (run ++ [c])

theorem map_text_scanFrom_eq_split (column : Nat) (line : String) :
    (scanFrom isDelimiter column [] line.toList).map text = split line :=
  map_text_scanFrom isDelimiter column 0 [] line.toList

theorem split_append_space (line line' : String) :
    split (line ++ " " ++ line') = split line ++ split line' := by
  have hchars : (line ++ " " ++ line').toList = line.toList ++ ' ' :: line'.toList := by simp
  rw [split, scan, hchars, scanFrom_append_blank _ _ _ _ _ Text.isBlank_space, List.map_append,
    map_text_scanFrom_eq_split, map_text_scanFrom_eq_split]

theorem isWord_of_split_eq {w : String} (h : split w = [w]) : IsWord w.toList := by
  have hmem : w ∈ split w := by rw [h]; exact List.mem_singleton_self w
  exact (isWord_of_mem_split hmem).1

theorem scanFrom_of_isWord {cs : List Char} (h : IsWord cs) (column : Nat) :
    scanFrom isDelimiter column [] cs = [⟨String.ofList cs, column⟩] := by
  cases h with
  | delimiter hblank h => simp [scanFrom, hblank, h]
  | run hne h => simp [scanFrom_letters h, ofRun_of_ne_nil hne]

end Word
end LineAssembly
