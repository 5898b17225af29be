import LineAssembly.Proofs.Source.Spelling

/-! Words as they stand in a line. Each word is found at its column and cannot be made longer, the
words follow one another, and what lies outside of them is blank. -/
namespace LineAssembly
namespace Word

/-- A character that ends the run in front of it. -/
def Breaks (delimiter : Char → Bool) (c : Char) : Prop :=
  Text.isBlank c = true ∨ delimiter c = true

/-- A word that stands in a line at its column: a delimiter alone, or a run of other characters that
cannot be made longer on either side. -/
inductive StandsIn (delimiter : Char → Bool) (line : List Char) (w : Word) : Prop where
  | single {before after : List Char} {c : Char} (line_eq : line = before ++ c :: after)
      (column : w.column = before.length) (text : w.text.toList = [c])
      (blank : Text.isBlank c = false) (delimits : delimiter c = true)
  | run {before after : List Char} (line_eq : line = before ++ w.text.toList ++ after)
      (column : w.column = before.length) (nonempty : w.text.toList ≠ [])
      (letters : ∀ c ∈ w.text.toList, ¬Breaks delimiter c)
      (left : ∀ c ∈ before.getLast?, Breaks delimiter c)
      (right : ∀ c ∈ after.head?, Breaks delimiter c)

variable {delimiter : Char → Bool} {front run cs : List Char} {w : Word}

theorem standsIn_of_mem_ofRun {after : List Char} (hrun : ∀ c ∈ run, ¬Breaks delimiter c)
    (hleft : ∀ c ∈ front.getLast?, Breaks delimiter c)
    (hright : ∀ c ∈ after.head?, Breaks delimiter c)
    (h : w ∈ ofRun (front.length + run.length) run) :
    StandsIn delimiter (front ++ run ++ after) w := by
  obtain ⟨hne, htext⟩ := mem_ofRun h
  rw [ofRun_of_ne_nil hne, List.mem_singleton] at h
  have hcolumn : w.column = front.length := by
    rw [h]
    exact Nat.add_sub_cancel _ _
  exact .run (by rw [htext]) hcolumn (by rwa [htext]) (by rwa [htext]) hleft hright

/-- What is scanned behind `front` and the run gathered so far stands in the line. -/
theorem standsIn_of_mem_scanFrom (hrun : ∀ c ∈ run, ¬Breaks delimiter c)
    (hleft : ∀ c ∈ front.getLast?, Breaks delimiter c)
    (h : w ∈ scanFrom delimiter (front.length + run.length) run cs) :
    StandsIn delimiter (front ++ run ++ cs) w := by
  induction cs generalizing front run with
  | nil => exact standsIn_of_mem_ofRun hrun hleft (by simp) h
  | cons c cs ih =>
    -- a character that breaks the run is the last one in front of what is scanned next
    have hlater (hc : Breaks delimiter c)
        (hw : w ∈ scanFrom delimiter (front.length + run.length + 1) [] cs) :
        StandsIn delimiter (front ++ run ++ c :: cs) w := by
      have hstands : StandsIn delimiter (front ++ run ++ [c] ++ [] ++ cs) w :=
        ih (by simp) (by simpa using hc) (by simpa [Nat.add_assoc] using hw)
      simpa using hstands
    simp only [scanFrom] at h
    split at h
    · rename_i hblank
      have hc : Breaks delimiter c := Or.inl hblank
      rcases List.mem_append.mp h with hw | hw
      · exact standsIn_of_mem_ofRun hrun hleft (by simpa using hc) hw
      · exact hlater hc hw
    · rename_i hblank
      rw [Bool.not_eq_true] at hblank
      split at h
      · rename_i hdelimiter
        have hc : Breaks delimiter c := Or.inr hdelimiter
        rcases List.mem_append.mp h with hw | hw
        · exact standsIn_of_mem_ofRun hrun hleft (by simpa using hc) hw
        · rcases List.mem_cons.mp hw with rfl | hw
          · have hline : front ++ run ++ c :: cs = (front ++ run) ++ c :: cs := rfl
            exact .single hline (by simp) (by simp) hblank hdelimiter
          · exact hlater hc hw
      · rename_i hdelimiter
        have hc : ¬Breaks delimiter c := by simp [Breaks, hblank, hdelimiter]
        have hrun' : ∀ d ∈ run ++ [c], ¬Breaks delimiter d := by
          intro d hd
          rcases List.mem_append.mp hd with hd | hd
          · exact hrun d hd
          · rw [List.mem_singleton.mp hd]
            exact hc
        have hstands := ih hrun' hleft
        rw [List.length_append, List.length_singleton, ← Nat.add_assoc] at hstands
        simpa using hstands h

theorem standsIn_of_mem_scanFrom_zero (h : w ∈ scanFrom delimiter 0 [] cs) :
    StandsIn delimiter cs w := by
  have hstands : StandsIn delimiter ([] ++ [] ++ cs) w :=
    standsIn_of_mem_scanFrom (by simp) (by simp) h
  exact hstands

theorem StandsIn.exists_getElem? (h : StandsIn delimiter cs w) :
    ∃ c, cs[w.column]? = some c ∧ Text.isBlank c = false := by
  cases h with
  | @single before after c line_eq column text blank delimits =>
    exact ⟨c, by simp [line_eq, column], blank⟩
  | run line_eq column nonempty letters left right =>
    obtain ⟨c, rest, hword⟩ := List.exists_cons_of_ne_nil nonempty
    refine ⟨c, by simp [line_eq, column, hword], ?_⟩
    have hc := letters c (by simp [hword])
    simp only [Breaks, not_or, Bool.not_eq_true] at hc
    exact hc.1

theorem bounds_of_mem_ofRun {base : Nat} (h : w ∈ ofRun (base + run.length) run) :
    w.column = base ∧ w.stop = base + run.length := by
  obtain ⟨hne, -⟩ := mem_ofRun h
  rw [ofRun_of_ne_nil hne, List.mem_singleton] at h
  rw [h]
  simp [stop]

theorem mem_ofRun_of_ne_nil (hne : run ≠ []) (base : Nat) :
    ∃ w ∈ ofRun (base + run.length) run, w.column = base ∧ w.stop = base + run.length := by
  have hmem : ⟨String.ofList run, base + run.length - run.length⟩ ∈
      ofRun (base + run.length) run := by
    rw [ofRun_of_ne_nil hne]
    exact List.mem_singleton_self _
  exact ⟨_, hmem, bounds_of_mem_ofRun hmem⟩

theorem add_length_concat (base : Nat) (run : List Char) (c : Char) :
    base + run.length + 1 = base + (run ++ [c]).length := by
  simp [Nat.add_assoc]

theorem base_le_of_mem_scanFrom {base : Nat}
    (h : w ∈ scanFrom delimiter (base + run.length) run cs) : base ≤ w.column := by
  induction cs generalizing base run with
  | nil => exact Nat.le_of_eq (bounds_of_mem_ofRun h).1.symm
  | cons c cs ih =>
    have hgathered (hw : w ∈ ofRun (base + run.length) run) : base ≤ w.column :=
      Nat.le_of_eq (bounds_of_mem_ofRun hw).1.symm
    have hlater (hw : w ∈ scanFrom delimiter (base + run.length + 1) [] cs) : base ≤ w.column := by
      have hle : base + run.length + 1 ≤ w.column := @ih [] (base + run.length + 1) hw
      omega
    simp only [scanFrom] at h
    split at h
    · exact (List.mem_append.mp h).elim hgathered hlater
    · split at h
      · rcases List.mem_append.mp h with hw | hw
        · exact hgathered hw
        · rcases List.mem_cons.mp hw with rfl | hw
          · exact Nat.le_add_right _ _
          · exact hlater hw
      · rw [add_length_concat base run c] at h
        exact ih h

/-- Each word ends before the next one begins. -/
theorem pairwise_scanFrom (delimiter : Char → Bool) (base : Nat) (run cs : List Char) :
    (scanFrom delimiter (base + run.length) run cs).Pairwise fun v w => v.stop ≤ w.column := by
  have hgathered (base : Nat) (run : List Char) :
      (ofRun (base + run.length) run).Pairwise fun v w => v.stop ≤ w.column := by
    by_cases hne : run = []
    · simp [hne]
    · simp [ofRun_of_ne_nil hne]
  induction cs generalizing base run with
  | nil => exact hgathered base run
  | cons c cs ih =>
    have hrest : (scanFrom delimiter (base + run.length + 1) [] cs).Pairwise
        fun v w => v.stop ≤ w.column := ih (base + run.length + 1) []
    have hbehind (w : Word) (hw : w ∈ scanFrom delimiter (base + run.length + 1) [] cs) :
        base + run.length + 1 ≤ w.column :=
      @base_le_of_mem_scanFrom delimiter [] cs w (base + run.length + 1) hw
    simp only [scanFrom]
    split
    · refine List.pairwise_append.mpr ⟨hgathered base run, hrest, ?_⟩
      intro v hv w hw
      have hstop := (bounds_of_mem_ofRun hv).2
      have hcolumn := hbehind w hw
      omega
    · split
      · refine List.pairwise_append.mpr ⟨hgathered base run, ?_, ?_⟩
        · refine List.pairwise_cons.mpr ⟨fun w hw => ?_, hrest⟩
          simpa [stop] using hbehind w hw
        · intro v hv w hw
          have hstop := (bounds_of_mem_ofRun hv).2
          rcases List.mem_cons.mp hw with rfl | hw
          · exact Nat.le_of_eq hstop
          · have hcolumn := hbehind w hw
            omega
      · rw [add_length_concat base run c]
        exact ih base (run ++ [c])

theorem exists_mem_scanFrom {base k : Nat} {c : Char} (hk : (run ++ cs)[k]? = some c)
    (hc : Text.isBlank c = false) :
    ∃ w ∈ scanFrom delimiter (base + run.length) run cs,
      w.column ≤ base + k ∧ base + k < w.stop := by
  have hgathered (base : Nat) {run : List Char} {k : Nat} (hlt : k < run.length) :
      ∃ w ∈ ofRun (base + run.length) run, w.column ≤ base + k ∧ base + k < w.stop := by
    obtain ⟨w, hw, hcolumn, hstop⟩ :=
      mem_ofRun_of_ne_nil (List.ne_nil_of_length_pos (Nat.zero_lt_of_lt hlt)) base
    exact ⟨w, hw, by omega, by omega⟩
  induction cs generalizing base run k with
  | nil =>
    rw [List.append_nil] at hk
    exact hgathered base (List.getElem?_eq_some_iff.mp hk).1
  | cons d cs ih =>
    have hlater (hle : run.length < k) :
        ∃ w ∈ scanFrom delimiter (base + run.length + 1) [] cs,
          w.column ≤ base + k ∧ base + k < w.stop := by
      obtain ⟨j, rfl⟩ := Nat.exists_eq_add_of_lt hle
      have hj : ([] ++ cs)[j]? = some c := by
        rw [List.getElem?_append_right (by omega)] at hk
        simpa [Nat.add_assoc] using hk
      obtain ⟨w, hw, hcolumn, hstop⟩ := @ih _ (base + run.length + 1) j hj
      exact ⟨w, hw, by omega, by omega⟩
    have hat (heq : k = run.length) : d = c := by simpa [heq] using hk
    simp only [scanFrom]
    split
    · rename_i hblank
      rcases Nat.lt_trichotomy k run.length with hlt | heq | hgt
      · obtain ⟨w, hw, hbounds⟩ := hgathered base hlt
        exact ⟨w, List.mem_append_left _ hw, hbounds⟩
      · rw [hat heq, hc] at hblank
        cases hblank
      · obtain ⟨w, hw, hbounds⟩ := hlater hgt
        exact ⟨w, List.mem_append_right _ hw, hbounds⟩
    · split
      · rcases Nat.lt_trichotomy k run.length with hlt | heq | hgt
        · obtain ⟨w, hw, hbounds⟩ := hgathered base hlt
          exact ⟨w, List.mem_append_left _ hw, hbounds⟩
        · refine ⟨_, List.mem_append_right _ (List.mem_cons_self ..), ?_⟩
          simp [stop, heq]
        · obtain ⟨w, hw, hbounds⟩ := hlater hgt
          exact ⟨w, List.mem_append_right _ (List.mem_cons_of_mem _ hw), hbounds⟩
      · rw [add_length_concat base run d]
        exact ih (by simpa using hk)

theorem standsIn_of_mem_scan {line : String} (h : w ∈ scan line) :
    StandsIn isDelimiter line.toList w :=
  standsIn_of_mem_scanFrom_zero h

/-- A part of a line that holds no blank, and that blanks or the ends of the line bound. -/
structure IsRun (before run after : List Char) : Prop where
  nonempty : run ≠ []
  letters : ∀ c ∈ run, Text.isBlank c = false
  left : ∀ c ∈ before.getLast?, Text.isBlank c = true
  right : ∀ c ∈ after.head?, Text.isBlank c = true

theorem exists_isRun_of_mem_runs {line : String} (h : w ∈ runs line) :
    ∃ before after, line.toList = before ++ w.text.toList ++ after ∧ w.column = before.length ∧
      IsRun before w.text.toList after := by
  have hstands : StandsIn (fun _ => false) line.toList w := standsIn_of_mem_scanFrom_zero h
  cases hstands with
  | single _ _ _ _ delimits => cases delimits
  | @run before after line_eq column nonempty letters left right =>
    exact ⟨before, after, line_eq, column, nonempty, by simpa [Breaks] using letters,
      by simpa [Breaks] using left, by simpa [Breaks] using right⟩

theorem pairwise_runs (line : String) : (runs line).Pairwise fun v w => v.stop ≤ w.column :=
  pairwise_scanFrom (fun _ => false) 0 [] line.toList

def unspaced (cs : List Char) : List (List Char) :=
  (cs.splitOnP Text.isBlank).filter fun part => !part.isEmpty

theorem modifyHead_nil_append (parts : List (List Char)) : parts.modifyHead ([] ++ ·) = parts :=
  congrFun List.modifyHead_id parts

/-- Scanning for runs alone takes apart what the blanks divide; what was gathered before belongs to
the first part. -/
theorem map_text_scanFrom_runs (column : Nat) (run cs : List Char) :
    (scanFrom (fun _ => false) column run cs).map (fun w => w.text.toList) =
      ((cs.splitOnP Text.isBlank).modifyHead (run ++ ·)).filter fun part => !part.isEmpty := by
  have hgathered (column : Nat) (run : List Char) :
      (ofRun column run).map (fun w => w.text.toList) = [run].filter fun part => !part.isEmpty := by
    by_cases hne : run = []
    · simp [hne]
    · simp [ofRun_of_ne_nil hne, hne]
  induction cs generalizing column run with
  | nil => simp [scanFrom, hgathered]
  | cons c cs ih =>
    rw [List.splitOnP_cons_eq_if_modifyHead]
    simp only [scanFrom, Bool.false_eq_true, if_false]
    split
    · rw [List.map_append, hgathered, ih, modifyHead_nil_append, List.modifyHead_cons,
        List.append_nil, ← List.filter_append, List.singleton_append]
    · rw [ih, List.modifyHead_modifyHead]
      simp [Function.comp_def]

theorem map_text_runs (line : String) :
    (runs line).map (fun w => w.text.toList) = unspaced line.toList := by
  rw [runs, map_text_scanFrom_runs, modifyHead_nil_append, unspaced]

theorem exists_mem_runs {line : String} {i : Nat} {c : Char} (hi : line.toList[i]? = some c)
    (hc : Text.isBlank c = false) : ∃ w ∈ runs line, w.column ≤ i ∧ i < w.stop := by
  obtain ⟨w, hw, hcolumn, hstop⟩ :=
    @exists_mem_scanFrom (fun _ => false) [] line.toList 0 i c hi hc
  exact ⟨w, hw, by omega, by omega⟩

end Word

/-- A token begins with a word: it stands at its column and reads what the word reads, or is a
literal that the word opens. -/
def Token.BeginsWith (t : Token) (w : Word) : Prop :=
  t.column = w.column ∧ w.text = if t.kind = .string then "\"" else t.value

namespace Mode

def openedAt? : Mode → Option Nat
  | .inString column _ => some column
  | _ => none

variable {number : Int} {mode : Mode} {w : Word} {t : Token}

theorem beginsWith_of_mem_tokenOf {kind : Token.Kind} (hkind : kind ≠ .string)
    (h : t ∈ Item.tokens [tokenOf kind w]) : t.BeginsWith w := by
  rw [List.mem_singleton.mp h]
  exact ⟨rfl, (if_neg hkind).symm⟩

theorem beginsWith_of_mem_plainStep {started : Bool}
    (h : t ∈ Item.tokens (plainStep number started w).1) : t.BeginsWith w := by
  unfold plainStep at h
  cases hc : Word.classOf w.text <;> simp only [hc] at h
  case numeral =>
    split at h
    · exact beginsWith_of_mem_tokenOf (by simp) h
    · cases h
  case other =>
    split at h
    · exact beginsWith_of_mem_tokenOf (by simp) h
    · cases h
  case quote => cases h
  case comment => cases h
  all_goals exact beginsWith_of_mem_tokenOf (by simp) h

theorem beginsWith_of_mem_step (h : t ∈ Item.tokens (mode.step number w).1) :
    t.BeginsWith w ∨ t.kind = .string ∧ mode.openedAt? = some t.column := by
  cases mode with
  | plain started => exact Or.inl (beginsWith_of_mem_plainStep h)
  | afterCall => exact Or.inl (beginsWith_of_mem_tokenOf (by simp) h)
  | afterFn =>
    simp only [step] at h
    split at h
    · exact Or.inl (beginsWith_of_mem_plainStep h)
    · exact Or.inl (beginsWith_of_mem_tokenOf (by simp) h)
  | afterLet => exact Or.inl (beginsWith_of_mem_tokenOf (by simp) h)
  | inString column parts =>
    simp only [step] at h
    split at h
    · rw [List.mem_singleton.mp h]
      exact Or.inr ⟨rfl, rfl⟩
    · cases h
  | inComment parts => cases h

theorem openedAt?_step {column : Nat} (h : (mode.step number w).2.openedAt? = some column) :
    (column = w.column ∧ w.text = "\"") ∨ mode.openedAt? = some column := by
  have hyields := yields_step number mode w
  generalize mode.step number w = out at h hyields
  cases hyields with
  | @token _ _ t =>
    rcases after_cases t with ha | ha | ha | ha
    all_goals simp [ha, openedAt?] at h
  | quote text => exact Or.inl ⟨(Option.some.inj h).symm, text⟩
  | literalPart => exact Or.inr h
  | _ => cases h

end Mode

/-- Every token begins with a word of its line, unless it is a literal that was open before. -/
theorem exists_beginsWith_of_mem_tokens {number : Int} {mode : Mode} {ws : List Word} {t : Token}
    (h : t ∈ Item.tokens (classify number mode ws)) :
    (∃ w ∈ ws, t.BeginsWith w) ∨ t.kind = .string ∧ mode.openedAt? = some t.column := by
  induction ws generalizing mode with
  | nil =>
    cases mode with
    | inString column parts =>
      rw [List.mem_singleton.mp h]
      exact Or.inr ⟨rfl, rfl⟩
    | _ => cases h
  | cons w ws ih =>
    rw [classify, Item.tokens_append] at h
    rcases List.mem_append.mp h with h | h
    · exact (Mode.beginsWith_of_mem_step h).imp_left fun hw => ⟨w, by simp, hw⟩
    · rcases ih h with ⟨v, hv, hbegins⟩ | ⟨hkind, hopened⟩
      · exact Or.inl ⟨v, by simp [hv], hbegins⟩
      · rcases Mode.openedAt?_step hopened with ⟨hcolumn, htext⟩ | hopened
        · exact Or.inl ⟨w, by simp, hcolumn, by rw [htext, if_pos hkind]⟩
        · exact Or.inr ⟨hkind, hopened⟩

theorem Line.IsRead.exists_beginsWith {l : Line} (h : l.IsRead) {t : Token} (ht : t ∈ l.tokens) :
    ∃ w ∈ Word.scan l.source, t.BeginsWith w := by
  rw [h.tokens_eq] at ht
  refine (exists_beginsWith_of_mem_tokens ht).resolve_right ?_
  rintro ⟨-, hopened⟩
  cases hopened

end LineAssembly
