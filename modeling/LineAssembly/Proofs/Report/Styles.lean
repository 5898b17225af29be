import LineAssembly.Proofs.Report.Pointing

/-! Spans of styled text. The spans of some pieces follow one another in the text of the pieces, and
each marks what is shown of its own piece. In a caret block they mark the message, the bars with the
number, and the carets with the label, whatever the console removes. -/
namespace LineAssembly

def Span.part (s : Span) (cs : List Char) : List Char := cs.extract s.start s.stop

namespace Piece

variable {p : Piece} {offset : Nat} {s : Span}

/-- What a piece marks, and in which style. -/
def styled? (p : Piece) : Option (Style × List Char) :=
  if p.text.isEmpty then none else p.style.map fun style => (style, p.shown)

theorem bounds_of_mem_span? (h : s ∈ p.span? offset) :
    s.start = offset ∧ s.stop = offset + p.shown.length := by
  unfold span? at h
  split at h
  · cases h
  · obtain ⟨style, -, rfl⟩ := Option.map_eq_some_iff.mp h
    exact ⟨rfl, rfl⟩

theorem map_part_span? (p : Piece) (before after : List Char) :
    (p.span? before.length).map (fun s => (s.style, s.part (before ++ (p.shown ++ after)))) =
      p.styled? := by
  unfold span? styled?
  split
  · rfl
  · simp [Function.comp_def, Span.part]

end Piece

namespace Styled

theorem bounds_of_mem_spansFrom {offset : Nat} {ps : List Piece} {s : Span}
    (h : s ∈ spansFrom offset ps) :
    offset ≤ s.start ∧ s.stop ≤ offset + (plain ps).length := by
  induction ps generalizing offset with
  | nil => cases h
  | cons p ps ih =>
    rw [spansFrom, List.mem_append, Option.mem_toList] at h
    rw [plain_cons, List.length_append]
    rcases h with h | h
    · have hbounds := Piece.bounds_of_mem_span? h
      omega
    · have hlater := ih h
      omega

theorem pairwise_spansFrom (offset : Nat) (ps : List Piece) :
    (spansFrom offset ps).Pairwise fun s t => s.stop ≤ t.start := by
  induction ps generalizing offset with
  | nil => exact .nil
  | cons p ps ih =>
    refine List.pairwise_append.mpr ⟨?_, ih _, ?_⟩
    · cases p.span? offset <;> simp
    · intro s hs t ht
      have hstop := (Piece.bounds_of_mem_span? (Option.mem_toList.mp hs)).2
      have hstart := (bounds_of_mem_spansFrom ht).1
      omega

theorem map_part_spansFrom (before : List Char) (ps : List Piece) :
    (spansFrom before.length ps).map (fun s => (s.style, s.part (before ++ plain ps))) =
      ps.filterMap Piece.styled? := by
  induction ps generalizing before with
  | nil => rfl
  | cons p ps ih =>
    have hfirst := p.map_part_span? before (plain ps)
    have hrest := ih (before ++ p.shown)
    rw [List.length_append, List.append_assoc] at hrest
    rw [spansFrom, plain_cons, List.map_append, hrest, ← Option.toList_map, hfirst]
    cases h : p.styled? <;> simp [h]

theorem map_part_spans (ps : List Piece) :
    (spans ps).map (fun s => (s.style, s.part (plain ps))) = ps.filterMap Piece.styled? :=
  map_part_spansFrom [] ps

end Styled

namespace Caret

/-- The texts that the spans of a style mark, in order. -/
def marked (b : Caret) (style : Style) : List (List Char) :=
  (b.spans.filter fun s => s.style = style).map fun s => s.part b.plain.toList

def caretMarks (b : Caret) : List (List Char) :=
  [b.carets, b.labelText].filter fun cs => !cs.isEmpty

def styledTexts (b : Caret) : List (Style × List Char) :=
  [(.error, Console.clean b.message.toList ++ ['\n']), (.bar, ['|', '\n']), (.bar, b.number),
    (.bar, ['|']), (.bar, ['|'])] ++
  b.caretMarks.map (fun cs => (.caret, cs)) ++ [(.bar, ['|'])]

theorem number_ne_nil (b : Caret) : b.number ≠ [] := Decimal.ofInt_ne_nil b.line

theorem clean_carets (b : Caret) : Console.clean b.carets = b.carets :=
  Console.clean_replicate (by decide) _

theorem filterMap_styled?_carets (b : Caret) :
    (⟨b.carets, some .caret⟩ :: b.labelPiece).filterMap Piece.styled? =
      b.caretMarks.map fun cs => (.caret, cs) := by
  have hspace : Console.isRemoved ' ' = false := by decide
  have hlabel : b.labelPiece.filterMap Piece.styled? =
      ([b.labelText].filter fun cs => !cs.isEmpty).map fun cs => (.caret, cs) := by
    by_cases hempty : b.label.isEmpty = true
    · simp [labelPiece, labelText, hempty]
    · simp [labelPiece, labelText, hempty, Piece.styled?, Piece.shown, Console.clean, hspace]
  have hcarets : Piece.styled? ⟨b.carets, some .caret⟩ =
      if b.carets.isEmpty then none else some (.caret, b.carets) := by
    rw [Piece.styled?, Piece.shown, clean_carets]
    rfl
  by_cases hempty : b.carets.isEmpty = true
  · simp [hcarets, hlabel, caretMarks, hempty]
  · simp [hcarets, hlabel, caretMarks, hempty]

theorem filterMap_styled?_pieces (b : Caret) :
    b.pieces.filterMap Piece.styled? = b.styledTexts := by
  have hplain (cs : List Char) : Piece.styled? ⟨cs, none⟩ = none := by simp [Piece.styled?]
  have hpieces : b.pieces =
      [⟨b.message.toList ++ ['\n'], some .error⟩, ⟨b.gutter, none⟩, ⟨['|', '\n'], some .bar⟩,
        ⟨b.number, some .bar⟩, ⟨[' '], none⟩, ⟨['|'], some .bar⟩,
        ⟨' ' :: (b.source.toList ++ ['\n']), none⟩, ⟨b.gutter, none⟩, ⟨['|'], some .bar⟩,
        ⟨' ' :: b.pad, none⟩] ++
      (⟨b.carets, some .caret⟩ :: b.labelPiece) ++
      [⟨['\n'], none⟩, ⟨b.gutter, none⟩, ⟨['|'], some .bar⟩] := rfl
  have hmessage : Piece.styled? ⟨b.message.toList ++ ['\n'], some .error⟩ =
      some (.error, Console.clean b.message.toList ++ ['\n']) := by
    have hnewline : Console.clean ['\n'] = ['\n'] := by decide
    simp [Piece.styled?, Piece.shown, hnewline]
  have hnumber : Piece.styled? ⟨b.number, some .bar⟩ = some (.bar, b.number) := by
    simp [Piece.styled?, Piece.shown, clean_number, number_ne_nil]
  have hbar : Piece.styled? ⟨['|'], some .bar⟩ = some (.bar, ['|']) := by decide
  have htop : Piece.styled? ⟨['|', '\n'], some .bar⟩ = some (.bar, ['|', '\n']) := by decide
  rw [hpieces, List.filterMap_append, List.filterMap_append, filterMap_styled?_carets]
  simp only [List.filterMap_cons, List.filterMap_nil, hplain, hmessage, hnumber, hbar, htop,
    styledTexts]

theorem map_part_spans (b : Caret) :
    b.spans.map (fun s => (s.style, s.part b.plain.toList)) = b.styledTexts := by
  rw [← filterMap_styled?_pieces, ← Styled.map_part_spans, plain, String.toList_ofList, spans]

theorem marked_eq (b : Caret) (style : Style) :
    b.marked style = (b.styledTexts.filter fun x => x.1 = style).map Prod.snd := by
  rw [← map_part_spans, List.filter_map, List.map_map]
  rfl

theorem ne_nil_of_mem_styledTexts {b : Caret} {x : Style × List Char} (h : x ∈ b.styledTexts) :
    x.2 ≠ [] := by
  have hcarets : ∀ cs ∈ b.caretMarks, cs ≠ [] := by
    intro cs hcs
    simpa using (List.mem_filter.mp hcs).2
  simp only [styledTexts, List.mem_append, List.mem_cons, List.mem_map, List.not_mem_nil,
    or_false] at h
  rcases h with ((rfl | rfl | rfl | rfl | rfl) | ⟨cs, hcs, rfl⟩) | rfl
  · simp
  · simp
  · exact b.number_ne_nil
  · simp
  · simp
  · exact hcarets cs hcs
  · simp

/-- The length of the word with an index, or zero where there is none. -/
def wordLength (source : String) (index : Int) : Nat :=
  if index < 0 then 0 else (Word.unspaced source.toList)[index.toNat]?.elim 0 List.length

theorem carets_eq (b : Caret) : b.carets = List.replicate (wordLength b.source b.word) '^' := by
  rw [carets, target?, wordLength, ← Word.map_text_runs, List.getElem?_map]
  split
  · rfl
  · cases (Word.runs b.source)[b.word.toNat]? with
    | none => rfl
    | some w => simp [String.length_toList]

theorem lt_stop_of_mem_spans {b : Caret} {s : Span} (h : s ∈ b.spans) : s.start < s.stop := by
  have hmem : (s.style, s.part b.plain.toList) ∈ b.styledTexts := by
    rw [← map_part_spans]
    exact List.mem_map_of_mem h
  by_contra hle
  refine ne_nil_of_mem_styledTexts hmem ?_
  have hempty : s.stop - s.start = 0 := by omega
  simp [Span.part, List.extract_eq_take_drop, hempty]

/-- The spans of a block are not empty, follow one another and lie within its text, whatever its
message, source and label hold. They mark the message with its line feed, the bars with the number
between them, and the carets, as many as the word has characters, with the label behind them. -/
theorem spans_in_order (b : Caret) :
    (∀ s ∈ b.spans, s.start < s.stop ∧ s.stop ≤ b.plain.length) ∧
    (b.spans.Pairwise fun s t => s.stop ≤ t.start) ∧
    b.marked .error = [Console.clean b.message.toList ++ ['\n']] ∧
    b.marked .bar = [['|', '\n'], Decimal.ofInt b.line, ['|'], ['|'], ['|']] ∧
    (b.marked .caret).flatten = List.replicate (wordLength b.source b.word) '^' ++
      if b.label.isEmpty then [] else ' ' :: Console.clean b.label.toList := by
  refine ⟨fun s hs => ⟨lt_stop_of_mem_spans hs, ?_⟩, Styled.pairwise_spansFrom 0 b.pieces,
    ?_, ?_, ?_⟩
  · have hstop := (Styled.bounds_of_mem_spansFrom hs).2
    rwa [Nat.zero_add, ← String.length_ofList] at hstop
  · simp [marked_eq, styledTexts, List.filter_map, Function.comp_def]
  · simp [marked_eq, styledTexts, List.filter_map, Function.comp_def, number]
  · have hcaret : b.marked .caret = b.caretMarks := by
      simp [marked_eq, styledTexts, List.filter_map, Function.comp_def]
    rw [hcaret, caretMarks, List.flatten_filter_not_isEmpty, carets_eq]
    simp [labelText]

-- the word has three characters and shows two, and the label leaves its blank
example :
    let b : Caret := ⟨"m\x07", "x a\x08b", 3, 1, "\r"⟩
    b.plain = "m\n  |\n3 | x ab\n  |   ^^^ \n  |" ∧
      b.marked .caret = [['^', '^', '^'], [' ']] := by
  decide +kernel

end Caret
end LineAssembly
