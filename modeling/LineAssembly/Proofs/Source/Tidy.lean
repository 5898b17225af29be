import LineAssembly.Proofs.Text.Lines
import LineAssembly.Source.Word

/-! Tidy text: the words of each line one blank apart, and each line ended by a line feed. Tidying
keeps the lines of a text, and on each line its words. -/
namespace LineAssembly
namespace Word

def IsLetter (c : Char) : Prop := Text.isBlank c = false ∧ isDelimiter c = false

/-- The characters of one word: a delimiter alone, or a run of letters. -/
inductive IsWord : List Char → Prop where
  | delimiter {c : Char} (hblank : Text.isBlank c = false) (h : isDelimiter c = true) : IsWord [c]
  | run {cs : List Char} (hne : cs ≠ []) (h : ∀ c ∈ cs, IsLetter c) : IsWord cs

theorem IsWord.isBlank_eq_false {cs : List Char} (h : IsWord cs) {c : Char} (hc : c ∈ cs) :
    Text.isBlank c = false := by
  cases h with
  | delimiter hblank _ => rwa [List.mem_singleton.mp hc]
  | run _ h => exact (h c hc).1

theorem mem_ofRun {column : Nat} {run : List Char} {w : Word} (h : w ∈ ofRun column run) :
    run ≠ [] ∧ w.text.toList = run := by
  by_cases hrun : run = []
  · rw [hrun, ofRun_nil] at h
    cases h
  · rw [ofRun_of_ne_nil hrun, List.mem_singleton] at h
    rw [h]
    exact ⟨hrun, by simp⟩

theorem isWord_of_mem_scanFrom {column : Nat} {run cs : List Char} {w : Word}
    (hrun : ∀ c ∈ run, IsLetter c) (h : w ∈ scanFrom isDelimiter column run cs) :
    IsWord w.text.toList ∧ w.text.toList ⊆ run ++ cs := by
  induction cs generalizing column run with
  | nil =>
    obtain ⟨hne, htext⟩ := mem_ofRun h
    rw [htext, List.append_nil]
    exact ⟨.run hne hrun, List.Subset.refl run⟩
  | cons c cs ih =>
    have hgathered : w ∈ ofRun column run →
        IsWord w.text.toList ∧ w.text.toList ⊆ run ++ c :: cs := by
      intro hw
      obtain ⟨hne, htext⟩ := mem_ofRun hw
      rw [htext]
      exact ⟨.run hne hrun, List.subset_append_left run (c :: cs)⟩
    have hlater : w ∈ scanFrom isDelimiter (column + 1) [] cs →
        IsWord w.text.toList ∧ w.text.toList ⊆ run ++ c :: cs := by
      intro hw
      obtain ⟨hword, hsubset⟩ := ih (by simp) hw
      have hcs : cs ⊆ run ++ c :: cs := by simp
      exact ⟨hword, List.Subset.trans hsubset hcs⟩
    -- the word was gathered before `c`, or it is `c` itself, or it comes later
    simp only [scanFrom] at h
    split at h
    · exact (List.mem_append.mp h).elim hgathered hlater
    · rename_i hblank
      rw [Bool.not_eq_true] at hblank
      split at h
      · rename_i hdelimiter
        obtain hw | hw := List.mem_append.mp h
        · exact hgathered hw
        obtain rfl | hw := List.mem_cons.mp hw
        · simpa using IsWord.delimiter hblank hdelimiter
        · exact hlater hw
      · rename_i hdelimiter
        rw [Bool.not_eq_true] at hdelimiter
        have hletters : ∀ d ∈ run ++ [c], IsLetter d := by
          intro d hd
          obtain hd | hd := List.mem_append.mp hd
          · exact hrun d hd
          · rw [List.mem_singleton.mp hd]
            exact ⟨hblank, hdelimiter⟩
        simpa using ih hletters h

theorem isWord_of_mem_split {line w : String} (h : w ∈ split line) :
    IsWord w.toList ∧ w.toList ⊆ line.toList := by
  obtain ⟨v, hv, rfl⟩ := List.mem_map.mp h
  exact isWord_of_mem_scanFrom (by simp) hv

theorem scanFrom_letters {cs : List Char} (hcs : ∀ c ∈ cs, IsLetter c) (column : Nat)
    (run : List Char) :
    scanFrom isDelimiter column run cs = ofRun (column + cs.length) (run ++ cs) := by
  induction cs generalizing column run with
  | nil => simp [scanFrom]
  | cons c cs ih =>
    have hc := hcs c (by simp)
    have hrest := ih (fun d hd => hcs d (by simp [hd])) (column + 1) (run ++ [c])
    simp [scanFrom, hc.1, hc.2, hrest, Nat.add_assoc, Nat.add_comm 1]

theorem map_text_of_isWord {cs : List Char} (h : IsWord cs) (column : Nat) :
    (scanFrom isDelimiter column [] cs).map text = [String.ofList cs] := by
  cases h with
  | delimiter hblank h => simp [scanFrom, hblank, h]
  | run hne h => simp [scanFrom_letters h, ofRun_of_ne_nil hne]

theorem toList_intercalate_space (ws : List String) :
    (" ".intercalate ws).toList = [' '].intercalate (ws.map String.toList) := by
  rw [String.toList_intercalate]
  rfl

/-- Words one blank apart are scanned as those words. -/
theorem map_text_intercalate {ws : List String} (hws : ∀ w ∈ ws, IsWord w.toList) (column : Nat) :
    (scanFrom isDelimiter column [] (" ".intercalate ws).toList).map text = ws := by
  rw [toList_intercalate_space]
  induction ws generalizing column with
  | nil => rfl
  | cons w ws ih =>
    have hw := map_text_of_isWord (hws w (by simp))
    rw [String.ofList_toList] at hw
    have hrest := ih fun v hv => hws v (by simp [hv])
    cases ws with
    | nil => simpa using hw column
    | cons v ws =>
      rw [List.map_cons] at hrest ⊢
      rw [List.map_cons, List.intercalate_cons_cons, List.append_assoc, List.singleton_append,
        scanFrom_append_blank _ _ _ _ _ Text.isBlank_space, List.map_append, hw, hrest]
      rfl

theorem mem_intercalate_space {ws : List String} {c : Char}
    (h : c ∈ (" ".intercalate ws).toList) : c = ' ' ∨ ∃ w ∈ ws, c ∈ w.toList := by
  rw [toList_intercalate_space] at h
  induction ws with
  | nil => cases h
  | cons w ws ih =>
    cases ws with
    | nil => exact .inr ⟨w, by simp, by simpa using h⟩
    | cons v ws =>
      rw [List.map_cons, List.map_cons, List.intercalate_cons_cons, List.mem_append,
        List.mem_append, List.mem_singleton, ← List.map_cons] at h
      obtain (hc | hc) | hc := h
      · exact .inr ⟨w, by simp, hc⟩
      · exact .inl hc
      · exact (ih hc).imp_right fun ⟨u, hu, hcu⟩ => ⟨u, by simp [hu], hcu⟩

def tidyLine (line : String) : String := " ".intercalate (split line)

theorem split_tidyLine (line : String) : split (tidyLine line) = split line :=
  map_text_intercalate (fun _ hw => (isWord_of_mem_split hw).1) 0

theorem mem_tidyLine {line : String} {c : Char} (h : c ∈ (tidyLine line).toList) :
    c = ' ' ∨ Text.isBlank c = false ∧ c ∈ line.toList := by
  obtain hc | ⟨w, hw, hc⟩ := mem_intercalate_space h
  · exact .inl hc
  · obtain ⟨hword, hsubset⟩ := isWord_of_mem_split hw
    exact .inr ⟨hword.isBlank_eq_false hc, hsubset hc⟩

end Word

namespace Text

theorem mem_consFirst {c : Char} {ls : List (List Char)} {l : List Char} (h : l ∈ consFirst c ls) :
    l ∈ ls ∨ ∃ k, (k = [] ∨ k ∈ ls) ∧ l = c :: k := by
  cases ls with
  | nil => exact .inr ⟨[], .inl rfl, List.mem_singleton.mp h⟩
  | cons k ks =>
    obtain hl | hl := List.mem_cons.mp h
    · exact .inr ⟨k, .inr (by simp), hl⟩
    · exact .inl (List.mem_cons_of_mem k hl)

theorem subset_of_mem_pieces {cs l : List Char} (hl : l ∈ pieces cs) : l ⊆ cs := by
  fun_induction pieces cs generalizing l with
  | case1 =>
    rw [List.mem_singleton.mp hl]
    exact List.nil_subset []
  | case2 cs ih =>
    obtain rfl | hl := List.mem_cons.mp hl
    · exact List.nil_subset _
    · exact List.subset_cons_of_subset _ (List.subset_cons_of_subset _ (ih hl))
  | case3 cs ih =>
    obtain rfl | hl := List.mem_cons.mp hl
    · exact List.nil_subset _
    · exact List.subset_cons_of_subset _ (ih hl)
  | case4 c cs _ _ ih =>
    obtain hl | ⟨k, hk, rfl⟩ := mem_consFirst hl
    · exact List.subset_cons_of_subset c (ih hl)
    · have hsubset : k ⊆ cs := hk.elim (fun h => h ▸ List.nil_subset cs) ih
      exact List.cons_subset_cons c hsubset

theorem subset_of_mem_lines {cs l : List Char} (hl : l ∈ lines cs) : l ⊆ cs := by
  refine subset_of_mem_pieces ?_
  unfold lines dropEmptyLast at hl
  split at hl
  · exact List.dropLast_subset _ hl
  · exact hl

theorem tilde_not_mem {text line : String} (h : line ∈ sourceLines text true) :
    '~' ∉ line.toList := by
  obtain ⟨l, hl, rfl⟩ := List.mem_map.mp h
  intro htilde
  rw [String.toList_ofList] at htilde
  obtain ⟨c, _, hc⟩ := List.mem_map.mp (subset_of_mem_lines hl htilde)
  unfold tildeToNewline at hc
  split at hc
  · cases hc
  · contradiction

/-- A text with each of its lines tidy and ended by a line feed. -/
def tidy (text : String) (tilde : Bool) : String :=
  String.join ((sourceLines text tilde).map fun line => Word.tidyLine line ++ "\n")

theorem sourceLines_tidy (text : String) (tilde : Bool) :
    sourceLines (tidy text tilde) tilde = (sourceLines text tilde).map Word.tidyLine := by
  have htext : tidy text tilde = unlines ((sourceLines text tilde).map Word.tidyLine) := by
    rw [tidy, unlines, List.map_map]
    rfl
  -- a tidy line keeps no blank but the space, so neither a line feed nor a carriage return
  have hends : ∀ raw ∈ (sourceLines text tilde).map Word.tidyLine, ∀ c ∈ raw.toList,
      endsLine tilde c = false := by
    intro raw hraw c hc
    obtain ⟨line, hline, rfl⟩ := List.mem_map.mp hraw
    obtain rfl | ⟨hblank, hmem⟩ := Word.mem_tidyLine hc
    · cases tilde <;> decide
    · have hnewline : c ≠ '\n' := by
        rintro rfl
        exact absurd hblank (by decide)
      cases tilde with
      | false => simp [endsLine, hnewline]
      | true =>
        have htilde : c ≠ '~' := fun h => tilde_not_mem hline (h ▸ hmem)
        simp [endsLine, hnewline, htilde]
  rw [htext, sourceLines_unlines hends, List.map_map]
  refine List.map_congr_left fun line _ => ?_
  have hlast : (Word.tidyLine line).toList.getLast? ≠ some '\r' := by
    intro hlast
    obtain hspace | ⟨hblank, -⟩ := Word.mem_tidyLine (List.mem_of_getLast? hlast)
    · cases hspace
    · exact absurd hblank (by decide)
  rw [Function.comp_apply, dropReturn, if_neg hlast, String.ofList_toList]

example : tidy "push 1~prnt\u3000\"a  b\" ;x " true = "push 1\nprnt \" a b \" ;x\n" := by
  decide +kernel

end Text
end LineAssembly
