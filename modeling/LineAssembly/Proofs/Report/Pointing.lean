import LineAssembly.Proofs.Report.Console
import LineAssembly.Proofs.Source.Spans
import LineAssembly.Report.Caret

/-! Caret blocks and the tokens that they point at. A block has five lines with their bars in one
column, and where its word is found by the column of a token, the carets stand below the run of the
line that holds the token. -/
namespace LineAssembly
namespace Caret

def labelText (b : Caret) : List Char :=
  if b.label.isEmpty then [] else ' ' :: Console.clean b.label.toList

def rows (b : Caret) : List (List Char) :=
  [Console.clean b.message.toList,
   b.gutter ++ ['|'],
   b.number ++ [' ', '|', ' '] ++ Console.clean b.source.toList,
   b.gutter ++ ['|', ' '] ++ b.pad ++ b.carets ++ b.labelText,
   b.gutter ++ ['|']]

theorem clean_number (b : Caret) : Console.clean b.number = b.number :=
  Console.clean_eq_self fun _ hc => Console.isRemoved_of_keeps (Console.keeps_of_mem_ofInt hc)

theorem plain_labelPiece (b : Caret) : Styled.plain b.labelPiece = b.labelText := by
  by_cases hlabel : b.label.isEmpty = true
  · simp [labelPiece, labelText, hlabel]
  · have hspace : Console.isRemoved ' ' = false := by decide
    simp [labelPiece, labelText, hlabel, Piece.shown, Console.clean, hspace]

theorem toList_plain (b : Caret) : b.plain.toList = ['\n'].intercalate b.rows := by
  have hcons {c : Char} {cs : List Char} (hc : Console.isRemoved c = false) :
      Console.clean (c :: cs) = c :: Console.clean cs := by simp [Console.clean, hc]
  have hspace : Console.isRemoved ' ' = false := by decide
  have hbar : Console.isRemoved '|' = false := by decide
  have hnewline : Console.isRemoved '\n' = false := by decide
  have hgutter : Console.clean b.gutter = b.gutter := Console.clean_replicate hspace _
  have hpad : Console.clean b.pad = b.pad := Console.clean_replicate hspace _
  have hcarets : Console.clean b.carets = b.carets := Console.clean_replicate (by decide) _
  have hlabel : b.labelPiece.flatMap Piece.shown = b.labelText := b.plain_labelPiece
  simp [plain, pieces, Styled.plain, Piece.shown, rows, hgutter, hpad, hcarets, hlabel, clean_number,
    hcons, hspace, hbar, hnewline, List.intercalate]

theorem ne_of_mem_number {b : Caret} {c d : Char} (h : c ∈ b.number) (hsign : d ≠ '-')
    (hdigit : Decimal.isDigit d = false) : c ≠ d := by
  rintro rfl
  rcases Decimal.mem_ofInt h with hc | hc
  · exact hsign hc
  · rw [hdigit] at hc
    cases hc

theorem idxOf?_bar (b : Caret) {row : List Char} (h : row ∈ b.rows.tail) :
    row.idxOf? '|' = some (b.number.length + 1) := by
  have hfind {before : List Char} (hbefore : '|' ∉ before) (after : List Char) :
      (before ++ '|' :: after).idxOf? '|' = some before.length := by
    induction before with
    | nil => simp [List.idxOf?_cons]
    | cons c before ih =>
      rw [List.mem_cons, not_or] at hbefore
      simp [List.idxOf?_cons, Ne.symm hbefore.1, ih hbefore.2]
  have hgutter : '|' ∉ b.gutter := by simp [gutter]
  have hnumber : '|' ∉ b.number ++ [' '] := by
    have hbar : '|' ∉ b.number := fun hmem => ne_of_mem_number hmem (by decide) (by decide) rfl
    simp [hbar]
  have hlength : b.gutter.length = b.number.length + 1 := by simp [gutter]
  have hbare (after : List Char) :
      (b.gutter ++ '|' :: after).idxOf? '|' = some (b.number.length + 1) := by
    rw [hfind hgutter, hlength]
  simp only [rows, List.tail_cons, List.mem_cons, List.not_mem_nil, or_false] at h
  rcases h with rfl | rfl | rfl | rfl
  · exact hbare []
  · simpa using hfind hnumber (' ' :: Console.clean b.source.toList)
  · simpa using hbare (' ' :: (b.pad ++ b.carets ++ b.labelText))
  · exact hbare []

theorem newline_not_mem_rows {b : Caret} (hmessage : '\n' ∉ b.message.toList)
    (hsource : '\n' ∉ b.source.toList) (hlabel : '\n' ∉ b.label.toList) :
    ∀ row ∈ b.rows, '\n' ∉ row := by
  have hclean {cs : List Char} (h : '\n' ∉ cs) : '\n' ∉ Console.clean cs :=
    fun hmem => h (Console.mem_of_mem_clean hmem)
  have hnumber : '\n' ∉ b.number := fun hmem => ne_of_mem_number hmem (by decide) (by decide) rfl
  have hgutter : '\n' ∉ b.gutter := by simp [gutter]
  have hpad : '\n' ∉ b.pad := by simp [pad]
  have hcarets : '\n' ∉ b.carets := by simp [carets]
  have htext : '\n' ∉ b.labelText := by
    by_cases hempty : b.label.isEmpty = true
    · simp [labelText, hempty]
    · simp [labelText, hempty, hclean hlabel]
  simp [rows, hclean hmessage, hclean hsource, hnumber, hgutter, hpad, hcarets, htext]

theorem splitOn_plain {b : Caret} (hmessage : '\n' ∉ b.message.toList)
    (hsource : '\n' ∉ b.source.toList) (hlabel : '\n' ∉ b.label.toList) :
    b.plain.toList.splitOn '\n' = b.rows := by
  rw [toList_plain, List.splitOn_intercalate _ (newline_not_mem_rows hmessage hsource hlabel)]
  simp [rows]

/-- The word that a block points at, in its source, with the blanks and carets below it. -/
structure Marks (b : Caret) (before run after : List Char) : Prop where
  source : b.source.toList = before ++ run ++ after
  isRun : Word.IsRun before run after
  pad : b.pad = List.replicate before.length ' '
  carets : b.carets = List.replicate run.length '^'

theorem Marks.take_source {b : Caret} {before run after : List Char} (h : b.Marks before run after) :
    b.source.toList.take before.length = before := by
  rw [h.source, List.append_assoc, List.take_left]

theorem exists_marks_of_target? {b : Caret} {w : Word} (h : b.target? = some w) :
    ∃ before after, b.Marks before w.text.toList after ∧ w.column = before.length := by
  have hmem : w ∈ Word.runs b.source := by
    unfold target? at h
    split at h
    · cases h
    · exact List.mem_of_getElem? h
  obtain ⟨before, after, hsource, hcolumn, hrun⟩ := Word.exists_isRun_of_mem_runs hmem
  refine ⟨before, after, ⟨hsource, hrun, ?_, ?_⟩, hcolumn⟩
  · simp [pad, h, hcolumn]
  · simp [carets, h, String.length_toList]

theorem exists_marks_of_wordIndex {b : Caret} {i : Nat} {c : Char}
    (hword : b.word = wordIndex b.source i) (hi : b.source.toList[i]? = some c)
    (hc : Text.isBlank c = false) :
    ∃ before run after, b.Marks before run after ∧ before.length ≤ i ∧
      i < before.length + run.length := by
  obtain ⟨w, hw, hcolumn, hstop⟩ := Word.exists_mem_runs hi hc
  obtain ⟨j, hj, rfl⟩ := List.getElem_of_mem hw
  -- the runs before this one end before it begins, so it is the first to end behind the column
  have hfirst : (Word.runs b.source).findIdx? (fun w => (i : Int) < w.stop) = some j := by
    refine List.findIdx?_eq_some_iff_getElem.mpr ⟨hj, by simpa using hstop, ?_⟩
    intro k hk
    have hbefore := List.pairwise_iff_getElem.mp (Word.pairwise_runs b.source) k j (by omega) hj hk
    simp only [decide_eq_true_eq]
    omega
  have hindex : b.word = (j : Int) := by rw [hword, wordIndex, hfirst, Option.getD_some]
  have htarget : b.target? = some (Word.runs b.source)[j] := by simp [target?, hindex, hj]
  obtain ⟨before, after, hmarks, hbefore⟩ := exists_marks_of_target? htarget
  rw [Word.stop, ← String.length_toList] at hstop
  exact ⟨before, _, after, hmarks, by omega, by omega⟩

/-- Below the run of a line that holds a token there are carets, in the same offsets and no others.
In front of them there are only the gutter, the bar and blanks, behind them only the label, and each
line but the first has its bar behind the room for the number. -/
theorem plain_points_at_token {number : Int} {raw message label : String} {line : Line} {t : Token}
    (hraw : Console.IsWhole raw) (hmessage : Console.IsWhole message)
    (hlabel : Console.IsWhole label) (hread : (Line.read number raw).result = .ok line)
    (ht : t ∈ line.tokens) (n : Int) :
    let b : Caret := ⟨message, raw, n, wordIndex raw t.column, label⟩
    ∃ before run after,
      raw.toList = before ++ run ++ after ∧ Word.IsRun before run after ∧
      before.length ≤ t.column ∧ t.column < before.length + run.length ∧
      b.plain.toList.splitOn '\n' =
        [message.toList,
         b.gutter ++ ['|'],
         b.number ++ [' ', '|', ' '] ++ before ++ run ++ after,
         b.gutter ++ ['|', ' '] ++ List.replicate before.length ' ' ++
           List.replicate run.length '^' ++ (if label.isEmpty then [] else ' ' :: label.toList),
         b.gutter ++ ['|']] ∧
      (b.number ++ [' ', '|', ' '] ++ before).length =
        (b.gutter ++ ['|', ' '] ++ List.replicate before.length ' ').length ∧
      ∀ row ∈ (b.plain.toList.splitOn '\n').tail,
        row.idxOf? '|' = some ((Decimal.ofInt n).length + 1) := by
  intro b
  obtain ⟨w, hw, hbegins⟩ : ∃ w ∈ Word.scan raw, t.BeginsWith w := by
    obtain ⟨rfl, rfl⟩ := Line.eq_of_read hread
    exact (Line.isRead_of_read hread).exists_beginsWith ht
  obtain ⟨c, hc, hblank⟩ := (Word.standsIn_of_mem_scan hw).exists_getElem?
  rw [← hbegins.1] at hc
  obtain ⟨before, run, after, hmarks, hle, hlt⟩ := exists_marks_of_wordIndex (b := b) rfl hc hblank
  have hrows : b.plain.toList.splitOn '\n' = b.rows :=
    splitOn_plain hmessage.newline_not_mem hraw.newline_not_mem hlabel.newline_not_mem
  have hsource : Console.clean b.source.toList = before ++ run ++ after :=
    hraw.clean_eq.trans hmarks.source
  have hlabelText : b.labelText = if label.isEmpty then [] else ' ' :: label.toList := by
    rw [labelText, hlabel.clean_eq]
  refine ⟨before, run, after, hmarks.source, hmarks.isRun, hle, hlt, ?_, ?_, ?_⟩
  · rw [hrows, rows, hmessage.clean_eq, hsource, hmarks.pad, hmarks.carets, hlabelText]
    simp
  · simp only [gutter, List.length_append, List.length_replicate, List.length_cons, List.length_nil]
  · rw [hrows]
    intro row hrow
    exact idxOf?_bar b hrow

/-- The token `y` stands in the run `=y,` of the line, and its line number has three digits. -/
theorem plain_points_at_token_in_run :
    let b : Caret := ⟨"no y", "  prnt =y, ^", 120, wordIndex "  prnt =y, ^" 8, "here"⟩
    b.plain = "no y\n    |\n120 |   prnt =y, ^\n    |        ^^^ here\n    |" ∧
    ∃ before run after, "  prnt =y, ^".toList = before ++ run ++ after ∧
      Word.IsRun before run after ∧ before.length ≤ 8 ∧ 8 < before.length + run.length ∧
      ∀ row ∈ (b.plain.toList.splitOn '\n').tail, row.idxOf? '|' = some 4 := by
  intro b
  have hread : (Line.read 7 "  prnt =y, ^").result =
      .ok ⟨[⟨.opcode, "prnt", 2⟩, ⟨.generic, "=", 7⟩, ⟨.generic, "y", 8⟩, ⟨.comma, ",", 9⟩,
        ⟨.generic, "^", 11⟩], "  prnt =y, ^", 7, none⟩ := by decide +kernel
  have hraw : Console.IsWhole "  prnt =y, ^" := by decide
  have hmessage : Console.IsWhole "no y" := by decide
  have hlabel : Console.IsWhole "here" := by decide
  have ht : (⟨.generic, "y", 8⟩ : Token) ∈ [⟨.opcode, "prnt", 2⟩, ⟨.generic, "=", 7⟩,
      ⟨.generic, "y", 8⟩, ⟨.comma, ",", 9⟩, ⟨.generic, "^", 11⟩] := by decide
  obtain ⟨before, run, after, hsource, hrun, hle, hlt, -, -, hbars⟩ :=
    plain_points_at_token hraw hmessage hlabel hread ht 120
  exact ⟨by decide +kernel, before, run, after, hsource, hrun, hle, hlt, hbars⟩

end Caret
end LineAssembly
