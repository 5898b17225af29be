import LineAssembly.Proofs.Report.Pointing
import LineAssembly.Report.Message

/-! Carets on the console. They are set by the characters of the source, and the console shows less
than these where it removes some and more where it expands tabs. So the carets stand below their word
just when nothing in the word is removed and what is removed before it makes up for its tabs. -/
namespace LineAssembly
namespace Text

theorem Gauge.add_of_width_eq_one {g : Gauge} {c : Char} (hg : g.joined = false)
    (hc : width c = 1) : g.add c = { g with cells := g.cells + 1, last := some c } := by
  have hjoiner : c ≠ joiner := by
    rintro rfl
    exact absurd hc (by decide)
  have hselector : c ≠ pictureSelector := by
    rintro rfl
    exact absurd hc (by decide)
  simp [add, hg, hjoiner, hselector, hc]

end Text

namespace Console

/-- A tab adds what its column lacks to a multiple of eight, unless a joiner stands before it. -/
theorem tabWidth_eq {g : Text.Gauge} (h : g.joined = false) : tabWidth g = 8 - g.cells % 8 := by
  have hcells : (g.add ' ').cells = g.cells + 1 := by
    rw [Text.Gauge.add_of_width_eq_one h (by decide)]
  rw [tabWidth, hcells]
  omega

/-- The column behind a character if each takes one column and a tab goes on to the next multiple
of eight. -/
def advance (column : Nat) (c : Char) : Nat :=
  if c = '\t' then column + (8 - column % 8) else column + 1

/-- Tab stops are counted in cells and columns in characters. They agree as long as each character
fills one cell. -/
theorem length_expandTabs_of_narrow {cs : List Char}
    (hcs : ∀ c ∈ cs, c = '\t' ∨ Text.width c = 1) {g : Text.Gauge} (hg : g.joined = false)
    {column : Nat} (hcolumn : g.cells % 8 = column % 8) :
    column + (expandTabs g cs).length = cs.foldl advance column := by
  induction cs generalizing g column with
  | nil => rfl
  | cons c cs ih =>
    simp only [List.mem_cons, forall_eq_or_imp] at hcs
    obtain ⟨hc, hcs⟩ := hcs
    rw [List.foldl_cons]
    rcases hc with rfl | hc
    · -- behind a tab both counts stand at a multiple of eight
      have hstop : ({} : Text.Gauge).cells % 8 = (column + (8 - column % 8)) % 8 := by
        show 0 = _
        omega
      simp only [expandTabs, advance, reduceIte, Char.reduceEq, List.length_append,
        List.length_replicate, tabWidth_eq hg, hcolumn, ← ih hcs (g := {}) rfl hstop]
      omega
    · have hnewline : c ≠ '\n' := by
        rintro rfl
        exact absurd hc (by decide)
      have htab : c ≠ '\t' := by
        rintro rfl
        exact absurd hc (by decide)
      have hadd := Text.Gauge.add_of_width_eq_one hg hc
      have hcells : (g.add c).cells = g.cells + 1 := by rw [hadd]
      have hjoined : (g.add c).joined = false := by rw [hadd]; exact hg
      have hnext : (g.add c).cells % 8 = (column + 1) % 8 := by
        rw [hcells]
        omega
      simp only [expandTabs, advance, hnewline, htab, if_false, List.length_cons,
        ← ih hcs hjoined hnext]
      omega

/-- The blanks that tabs add to a text beyond one for each tab. -/
def stretch (g : Text.Gauge) : List Char → Nat
  | [] => 0
  | c :: cs =>
    if c = '\n' then stretch {} cs
    else if c = '\t' then (tabWidth g - 1) + stretch {} cs
    else stretch (g.add c) cs

theorem length_expandTabs (g : Text.Gauge) (cs : List Char) :
    (expandTabs g cs).length = cs.length + stretch g cs := by
  induction cs generalizing g with
  | nil => rfl
  | cons c cs ih =>
    have hwidth : 1 ≤ tabWidth g := Nat.le_add_right 1 _
    simp only [expandTabs, stretch]
    split
    · simp only [List.length_cons, ih]
      omega
    · split
      · simp only [List.length_append, List.length_replicate, List.length_cons, ih]
        omega
      · simp only [List.length_cons, ih]
        omega

theorem stretch_of_no_tab (g : Text.Gauge) {cs : List Char} (h : '\t' ∉ cs) : stretch g cs = 0 := by
  have hlength := length_expandTabs g cs
  rw [expandTabs_of_no_tab g h] at hlength
  omega

theorem length_clean (cs : List Char) : (clean cs).length + cs.countP isRemoved = cs.length := by
  rw [clean, ← List.countP_eq_length_filter]
  have hsplit := List.length_eq_countP_add_countP isRemoved (l := cs)
  simp only [Bool.not_eq_true, Bool.decide_eq_false] at hsplit
  omega

theorem length_clean_eq_iff {cs : List Char} :
    (clean cs).length = cs.length ↔ ∀ c ∈ cs, isRemoved c = false := by
  simp [clean, List.length_filter_eq_length_iff]

/-- The columns, counted in characters, of a part of a line that stands behind `left`. -/
def columns (left part : List Char) : List Nat := List.range' left.length part.length

theorem columns_eq_iff {left part left' part' : List Char} (h : part ≠ []) :
    columns left part = columns left' part' ↔
      left.length = left'.length ∧ part.length = part'.length := by
  constructor
  · intro heq
    have hlength : part.length = part'.length := by
      simpa [columns] using congrArg List.length heq
    have hpos : 0 < part.length := List.length_pos_iff.mpr h
    have hhead : (columns left part)[0]? = (columns left' part')[0]? := by rw [heq]
    have hleft : left.length = left'.length := by
      simpa [columns, List.getElem?_range', hpos, ← hlength] using hhead
    exact ⟨hleft, hlength⟩
  · rintro ⟨hleft, hlength⟩
    rw [columns, columns, hleft, hlength]

end Console

theorem Styled.clean_plain (pieces : List Piece) :
    Console.clean (plain pieces) = plain pieces := by
  induction pieces with
  | nil => rfl
  | cons p ps ih =>
    rw [plain_cons, Console.clean_append, ih, Piece.shown, Console.clean_clean]

namespace Caret

/-- What the console shows of the source line in front of a word. -/
def shownBefore (b : Caret) (w : Word) : List Char :=
  Console.expandTabs {} (b.number ++ [' ', '|', ' '] ++
    Console.clean (b.source.toList.take w.column))

/-- The carets stand in the columns of the console in which the line above shows the word. -/
def Aligned (b : Caret) (w : Word) : Prop :=
  Console.columns (b.gutter ++ ['|', ' '] ++ b.pad) b.carets =
    Console.columns (b.shownBefore w) (Console.clean w.text.toList)

/-- The lines of a block as the console shows them, behind the mark of an error. -/
def consoleRows (b : Caret) : List (List Char) :=
  ((Category.error.tag.toList ++ Console.clean b.message.toList) :: b.rows.tail).map
    (Console.expandTabs {})

theorem toList_console (b : Caret) :
    (Message.caret b).console.toList = ['\n'].intercalate (b.consoleRows ++ [[]]) := by
  have htag : Console.clean Category.error.tag.toList = Category.error.tag.toList := by decide
  have hplain : Console.clean b.plain.toList = b.plain.toList := by
    simpa [plain] using Styled.clean_plain b.pieces
  have hrows : Category.error.tag.toList ++ ['\n'].intercalate b.rows =
      ['\n'].intercalate ((Category.error.tag.toList ++ Console.clean b.message.toList) ::
        b.rows.tail) := by
    simp [rows, List.intercalate]
  have htext : (Message.caret b).text.toList = Category.error.tag.toList ++ b.plain.toList := by
    simp [Message.text, Message.category, Message.body]
  have hshown : (Console.shown (Message.caret b).text).toList =
      ['\n'].intercalate b.consoleRows := by
    rw [Console.shown, String.toList_ofList, htext, Console.clean_append, htag, hplain, toList_plain,
      hrows, Console.expandTabs_intercalate]
    rfl
  rw [Message.console, Console.line, String.toList_append, hshown]
  simp [consoleRows, rows, List.intercalate]

theorem splitOn_console {b : Caret} (hmessage : '\n' ∉ b.message.toList)
    (hsource : '\n' ∉ b.source.toList) (hlabel : '\n' ∉ b.label.toList) :
    (Message.caret b).console.toList.splitOn '\n' = b.consoleRows ++ [[]] := by
  have hrows := newline_not_mem_rows hmessage hsource hlabel
  have htag : '\n' ∉ Category.error.tag.toList := by decide
  have hfirst : '\n' ∉ Console.clean b.message.toList := hrows _ (List.mem_cons_self ..)
  have hconsole : ∀ row ∈ b.consoleRows ++ [[]], '\n' ∉ row := by
    intro row hrow
    rcases List.mem_append.mp hrow with hrow | hrow
    · obtain ⟨plain, hplain, rfl⟩ := List.mem_map.mp hrow
      apply Console.newline_not_mem_expandTabs
      rcases List.mem_cons.mp hplain with rfl | hplain
      · simp [htag, hfirst]
      · exact hrows plain (List.mem_of_mem_tail hplain)
    · simp [List.mem_singleton.mp hrow]
  rw [toList_console, List.splitOn_intercalate _ hconsole (by simp)]

theorem exists_expandTabs_carets (b : Caret) :
    ∃ tail, Console.expandTabs {} (b.gutter ++ ['|', ' '] ++ b.pad ++ b.carets ++ b.labelText) =
      b.gutter ++ ['|', ' '] ++ b.pad ++ b.carets ++ tail := by
  have htab : '\t' ∉ b.gutter ++ ['|', ' '] ++ b.pad ++ b.carets := by simp [gutter, pad, carets]
  obtain ⟨g, hg⟩ := Console.exists_expandTabs_append {} (b.gutter ++ ['|', ' '] ++ b.pad ++ b.carets)
    b.labelText
  exact ⟨_, by rw [hg, Console.expandTabs_of_no_tab {} htab]⟩

theorem width_of_mem_number {b : Caret} {c : Char} (h : c ∈ b.number) : Text.width c = 1 := by
  have hplain : Text.isPlain c = true := by
    rcases Decimal.mem_ofInt h with rfl | hdigit
    · decide
    · simp only [Decimal.isDigit, Bool.and_eq_true, decide_eq_true_eq] at hdigit
      have hlow : '0'.toNat ≤ c.toNat := hdigit.1
      have hhigh : c.toNat ≤ '9'.toNat := hdigit.2
      have h0 : '0'.toNat = 48 := rfl
      have h9 : '9'.toNat = 57 := rfl
      simp only [Text.isPlain, Bool.and_eq_true, decide_eq_true_eq]
      omega
  simp [Text.width, hplain]

theorem length_shownBefore {b : Caret} {w : Word}
    (h : ∀ c ∈ b.source.toList.take w.column,
      c = '\t' ∨ Console.isRemoved c = true ∨ Text.width c = 1) :
    (b.shownBefore w).length = (b.number ++ [' ', '|', ' '] ++
      Console.clean (b.source.toList.take w.column)).foldl Console.advance 0 := by
  have hnarrow : ∀ c ∈ b.number ++ [' ', '|', ' '] ++ Console.clean (b.source.toList.take w.column),
      c = '\t' ∨ Text.width c = 1 := by
    intro c hc
    simp only [List.mem_append, List.mem_cons, List.not_mem_nil, or_false, Console.clean,
      List.mem_filter, Bool.not_eq_true'] at hc
    rcases hc with (hnumber | hbar) | ⟨hmem, hkept⟩
    · exact .inr (width_of_mem_number hnumber)
    · rcases hbar with rfl | rfl | rfl <;> exact .inr (by decide)
    · rcases h c hmem with htab | hremoved | hwidth
      · exact .inl htab
      · simp [hremoved] at hkept
      · exact .inr hwidth
  rw [← Console.length_expandTabs_of_narrow hnarrow (g := {}) rfl rfl, shownBefore, Nat.zero_add]

section Marked

variable {b : Caret} {w : Word} {before after : List Char}

theorem exists_expandTabs_source (hmarks : b.Marks before w.text.toList after)
    (hcolumn : w.column = before.length) :
    ∃ right, Console.expandTabs {} (b.number ++ [' ', '|', ' '] ++ Console.clean b.source.toList) =
      b.shownBefore w ++ Console.clean w.text.toList ++ right := by
  have htab : '\t' ∉ Console.clean w.text.toList := by
    intro hmem
    have hblank := hmarks.isRun.letters '\t' (Console.mem_of_mem_clean hmem)
    revert hblank
    decide
  have hline : b.number ++ [' ', '|', ' '] ++ Console.clean b.source.toList =
      b.number ++ [' ', '|', ' '] ++ Console.clean before ++
        (Console.clean w.text.toList ++ Console.clean after) := by
    simp [hmarks.source]
  obtain ⟨g, hg⟩ := Console.exists_expandTabs_append {}
    (b.number ++ [' ', '|', ' '] ++ Console.clean before)
    (Console.clean w.text.toList ++ Console.clean after)
  obtain ⟨g', hg'⟩ := Console.exists_expandTabs_append g (Console.clean w.text.toList)
    (Console.clean after)
  refine ⟨Console.expandTabs g' (Console.clean after), ?_⟩
  rw [hline, hg, hg', Console.expandTabs_of_no_tab g htab, shownBefore, hcolumn, hmarks.take_source]
  exact (List.append_assoc _ _ _).symm

/-- The number and the bar hold no tab, so nothing is stretched unless there is one before the
word. -/
theorem stretch_of_no_tab_before (h : '\t' ∉ before) :
    Console.stretch {} (b.number ++ [' ', '|', ' '] ++ Console.clean before) = 0 := by
  have hnumber : '\t' ∉ b.number := fun hmem => ne_of_mem_number hmem (by decide) (by decide) rfl
  have hbefore : '\t' ∉ Console.clean before := fun hmem => h (Console.mem_of_mem_clean hmem)
  apply Console.stretch_of_no_tab
  simp [hnumber, hbefore]

theorem aligned_iff_of_marks (hmarks : b.Marks before w.text.toList after)
    (hcolumn : w.column = before.length) :
    b.Aligned w ↔ (∀ c ∈ w.text.toList, Console.isRemoved c = false) ∧
      Console.stretch {} (b.number ++ [' ', '|', ' '] ++ Console.clean before) =
        before.countP Console.isRemoved := by
  have hcarets : b.carets ≠ [] := by
    simpa [hmarks.carets] using hmarks.isRun.nonempty
  have hclean := Console.length_clean before
  rw [Aligned, Console.columns_eq_iff hcarets, shownBefore, hcolumn, hmarks.take_source,
    Console.length_expandTabs, hmarks.pad, hmarks.carets, ← Console.length_clean_eq_iff, and_comm]
  simp only [gutter, List.length_append, List.length_replicate, List.length_cons, List.length_nil]
  -- the number and the gutter are equally long, so only what stands before the word is left
  constructor
  · rintro ⟨hword, hleft⟩
    exact ⟨hword.symm, by omega⟩
  · rintro ⟨hword, hstretch⟩
    exact ⟨hword.symm, by omega⟩

end Marked

/-- The carets of a block stand below its word on the console just when no character of the word is
removed and as many are removed before it as its tabs add blanks. So without a tab before the word
they do just when no character up to its end is removed. Where each character before the word fills
one cell, the word stands where tabs that go to multiples of eight columns lead to. -/
theorem aligned_iff {b : Caret} {w : Word} (hmessage : '\n' ∉ b.message.toList)
    (hsource : '\n' ∉ b.source.toList) (hlabel : '\n' ∉ b.label.toList)
    (hw : b.target? = some w) :
    (∃ first bar right tail last,
      (Message.caret b).console.toList.splitOn '\n' =
        [first, bar, b.shownBefore w ++ Console.clean w.text.toList ++ right,
          b.gutter ++ ['|', ' '] ++ b.pad ++ b.carets ++ tail, last, []]) ∧
    (b.Aligned w ↔ (∀ c ∈ w.text.toList, Console.isRemoved c = false) ∧
      Console.stretch {} (b.number ++ [' ', '|', ' '] ++
          Console.clean (b.source.toList.take w.column)) =
        (b.source.toList.take w.column).countP Console.isRemoved) ∧
    ('\t' ∉ b.source.toList.take w.column →
      (b.Aligned w ↔ ∀ c ∈ b.source.toList.take w.stop, Console.isRemoved c = false)) ∧
    ((∀ c ∈ b.source.toList.take w.column,
        c = '\t' ∨ Console.isRemoved c = true ∨ Text.width c = 1) →
      (b.shownBefore w).length = (b.number ++ [' ', '|', ' '] ++
        Console.clean (b.source.toList.take w.column)).foldl Console.advance 0) := by
  obtain ⟨before, after, hmarks, hcolumn⟩ := exists_marks_of_target? hw
  have hbefore : b.source.toList.take w.column = before := by rw [hcolumn, hmarks.take_source]
  have hiff := aligned_iff_of_marks hmarks hcolumn
  refine ⟨?_, hbefore ▸ hiff, ?_, length_shownBefore⟩
  · obtain ⟨right, hright⟩ := exists_expandTabs_source hmarks hcolumn
    obtain ⟨tail, htail⟩ := b.exists_expandTabs_carets
    refine ⟨Console.expandTabs {} (Category.error.tag.toList ++ Console.clean b.message.toList),
      Console.expandTabs {} (b.gutter ++ ['|']), right, tail,
      Console.expandTabs {} (b.gutter ++ ['|']), ?_⟩
    rw [splitOn_console hmessage hsource hlabel, ← hright, ← htail]
    rfl
  · intro htab
    rw [hbefore] at htab
    have hstop : b.source.toList.take w.stop = before ++ w.text.toList := by
      rw [hmarks.source, Word.stop, hcolumn, ← String.length_toList, ← List.length_append,
        List.take_left]
    rw [hiff, hstop, stretch_of_no_tab_before htab, eq_comm, List.countP_eq_zero]
    simp only [List.forall_mem_append, Bool.not_eq_true, and_comm]

/-- The tab is shown as four blanks and the caret is set as if it were one. -/
theorem not_aligned_behind_tab :
    let b : Caret := ⟨"bad", "\tprnt y", 2, 1, ""⟩
    (Message.caret b).console =
        "[Error]: bad\n  |\n2 |     prnt y\n  |       ^\n  |\n" ∧
      b.target? = some ⟨"y", 6⟩ ∧ ¬b.Aligned ⟨"y", 6⟩ := by
  intro b
  have hw : b.target? = some ⟨"y", 6⟩ := by decide +kernel
  refine ⟨by decide +kernel, hw, fun haligned => ?_⟩
  have hstretch := ((aligned_iff (by decide) (by decide) (by decide) hw).2.1.mp haligned).2
  revert hstretch
  decide +kernel

end Caret
end LineAssembly
