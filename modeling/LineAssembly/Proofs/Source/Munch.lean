import LineAssembly.Proofs.Source.IdleLines
import LineAssembly.Proofs.Source.Spans

/-! Maximal munch. Scanning a line takes as much for a word as it can, and no other words stand in
the line in order and leave nothing but blanks out. The tokens of the line are spelled by these
words from left to right, so they stand in it at increasing columns. -/
namespace LineAssembly
namespace Word

variable {delimiter : Char → Bool} {cs : List Char} {v w : Word} {ws us : List Word}

namespace StandsIn

theorem exists_eq_append (h : StandsIn delimiter cs w) :
    ∃ before after, cs = before ++ w.text.toList ++ after ∧ w.column = before.length := by
  cases h with
  | @single before after c line_eq column text =>
    exact ⟨before, after, by rw [line_eq, text, List.append_assoc]; rfl, column⟩
  | @run before after line_eq column => exact ⟨before, after, line_eq, column⟩

theorem extract_eq (h : StandsIn delimiter cs w) :
    cs.extract w.column w.stop = w.text.toList := by
  obtain ⟨before, after, rfl, hcolumn⟩ := h.exists_eq_append
  simp [stop, hcolumn, ← String.length_toList, List.extract_eq_take_drop]

theorem text_ne_nil (h : StandsIn delimiter cs w) : w.text.toList ≠ [] := by
  cases h with
  | single _ _ text => simp [text]
  | run _ _ nonempty => exact nonempty

theorem column_lt_stop (h : StandsIn delimiter cs w) : w.column < w.stop := by
  have hlength : 0 < w.text.length := by
    rw [← String.length_toList]
    exact List.length_pos_of_ne_nil h.text_ne_nil
  exact Nat.lt_add_of_pos_right hlength

theorem getElem?_of_span (h : StandsIn delimiter cs w) {i : Nat} (hle : w.column ≤ i)
    (hlt : i < w.stop) : ∃ c ∈ w.text.toList, cs[i]? = some c := by
  obtain ⟨before, after, rfl, hcolumn⟩ := h.exists_eq_append
  rw [stop, ← String.length_toList] at hlt
  have hk : i - before.length < w.text.toList.length := by omega
  refine ⟨w.text.toList[i - before.length], List.getElem_mem hk, ?_⟩
  rw [List.append_assoc, List.getElem?_append_right (by omega), List.getElem?_append_left hk,
    List.getElem?_eq_getElem hk]

/-- A word by the places in its line: it is a delimiter alone, or nothing in it breaks a run while
what stands right beside it does. -/
theorem single_or_run (h : StandsIn delimiter cs w) :
    (w.stop = w.column + 1 ∧ ∃ c, cs[w.column]? = some c ∧ delimiter c = true) ∨
      ∀ i c, cs[i]? = some c →
        (w.column ≤ i → i < w.stop → ¬Breaks delimiter c) ∧
        (i + 1 = w.column ∨ i = w.stop → Breaks delimiter c) := by
  have hstands := h
  cases h with
  | @single before after c line_eq column text blank delimits =>
    have hstop : w.stop = w.column + 1 := by simp [stop, ← String.length_toList, text]
    exact Or.inl ⟨hstop, c, by simp [line_eq, column], delimits⟩
  | @run before after line_eq column nonempty letters left right =>
    refine Or.inr fun i c hc => ⟨fun hle hlt => ?_, fun hbeside => ?_⟩
    · obtain ⟨d, hd, hline⟩ := hstands.getElem?_of_span hle hlt
      rw [hc] at hline
      rw [Option.some.inj hline]
      exact letters d hd
    · rw [line_eq, List.append_assoc] at hc
      rcases hbeside with hi | hi
      · rw [List.getElem?_append_left (by omega)] at hc
        have hlast : i = before.length - 1 := by omega
        exact left c (by rwa [List.getLast?_eq_getElem?, ← hlast])
      · have hplace : i = before.length + (w.text.toList.length + 0) := by
          rw [hi, stop, column, String.length_toList]
          rfl
        rw [hplace, List.getElem?_append_right (Nat.le_add_right _ _), Nat.add_sub_cancel_left,
          List.getElem?_append_right (Nat.le_add_right _ _), Nat.add_sub_cancel_left] at hc
        exact right c (by rwa [List.head?_eq_getElem?])

/-- Of two words that share a character, each lies within the other. -/
theorem within (hv : StandsIn delimiter cs v) (hw : StandsIn delimiter cs w) {i : Nat}
    (hi : v.column ≤ i ∧ i < v.stop) (hj : w.column ≤ i ∧ i < w.stop) :
    w.column ≤ v.column ∧ v.stop ≤ w.stop := by
  rcases hv.single_or_run with ⟨hstop, -⟩ | hrun
  · omega
  -- no place of the run `v` holds a character that breaks it
  have hletter {k : Nat} (hle : v.column ≤ k) (hlt : k < v.stop)
      (hbreaks : ∀ c, cs[k]? = some c → Breaks delimiter c) : False := by
    obtain ⟨c, -, hc⟩ := hv.getElem?_of_span hle hlt
    exact (hrun k c hc).1 hle hlt (hbreaks c hc)
  rcases hw.single_or_run with ⟨hstop, c, hc, hdelimiter⟩ | hrun'
  · have hplace : i = w.column := by omega
    refine (hletter hi.1 hi.2 fun d hd => Or.inr ?_).elim
    rw [hplace, hc] at hd
    rwa [← Option.some.inj hd]
  · constructor
    · by_contra hlt
      refine hletter (k := w.column - 1) (by omega) (by omega) fun c hc => ?_
      exact (hrun' _ c hc).2 (Or.inl (by omega))
    · by_contra hlt
      exact hletter (k := w.stop) (by omega) (by omega) fun c hc => (hrun' _ c hc).2 (Or.inr rfl)

theorem eq_of_overlap (hv : StandsIn delimiter cs v) (hw : StandsIn delimiter cs w) {i : Nat}
    (hi : v.column ≤ i ∧ i < v.stop) (hj : w.column ≤ i ∧ i < w.stop) : v = w := by
  have hvw := hv.within hw hi hj
  have hwv := hw.within hv hj hi
  have hcolumn : v.column = w.column := Nat.le_antisymm hwv.1 hvw.1
  have hstop : v.stop = w.stop := Nat.le_antisymm hvw.2 hwv.2
  have htext : v.text = w.text := by
    apply String.toList_injective
    rw [← hv.extract_eq, ← hw.extract_eq, hcolumn, hstop]
  calc
    v = ⟨v.text, v.column⟩ := rfl
    _ = ⟨w.text, w.column⟩ := by rw [htext, hcolumn]
    _ = w := rfl

end StandsIn

/-- Words as maximal munch takes them from a line: each stands in it and ends before the next one
begins, and a character that is in none of them is blank. -/
structure Munch (delimiter : Char → Bool) (cs : List Char) (ws : List Word) : Prop where
  stands : ∀ w ∈ ws, StandsIn delimiter cs w
  ordered : ws.Pairwise fun v w => v.stop ≤ w.column
  outside : ∀ i c, cs[i]? = some c → (∀ w ∈ ws, i < w.column ∨ w.stop ≤ i) →
    Text.isBlank c = true

theorem munch_scanFrom (delimiter : Char → Bool) (cs : List Char) :
    Munch delimiter cs (scanFrom delimiter 0 [] cs) where
  stands w hw := standsIn_of_mem_scanFrom_zero hw
  ordered := pairwise_scanFrom delimiter 0 [] cs
  outside i c hc hout := by
    by_contra hblank
    obtain ⟨w, hw, hcolumn, hstop⟩ :=
      @exists_mem_scanFrom delimiter [] cs 0 i c hc (Bool.eq_false_iff.mpr hblank)
    rcases hout w hw with h | h <;> omega

namespace Munch

theorem pairwise_column (h : Munch delimiter cs ws) :
    ws.Pairwise fun v w => v.column < w.column := by
  refine h.ordered.imp_of_mem fun {v w} hv _ hvw => ?_
  exact Nat.lt_of_lt_of_le (h.stands v hv).column_lt_stop hvw

theorem nodup (h : Munch delimiter cs ws) : ws.Nodup := by
  refine h.pairwise_column.imp fun {v w} hlt heq => ?_
  rw [heq] at hlt
  exact Nat.lt_irrefl _ hlt

/-- The first character of a word is not blank, so a word of the other munch is over it. -/
theorem subset (h : Munch delimiter cs ws) (h' : Munch delimiter cs us) : ws ⊆ us := by
  intro w hw
  have hstands := h.stands w hw
  have hspan := hstands.column_lt_stop
  obtain ⟨c, hc, hblank⟩ := hstands.exists_getElem?
  by_contra hnot
  have hout : ∀ u ∈ us, w.column < u.column ∨ u.stop ≤ w.column := by
    intro u hu
    by_contra hover
    rw [not_or, Nat.not_lt, Nat.not_le] at hover
    rw [hstands.eq_of_overlap (h'.stands u hu) ⟨Nat.le_refl _, hspan⟩ hover] at hnot
    exact hnot hu
  rw [h'.outside _ c hc hout] at hblank
  cases hblank

theorem unique (h : Munch delimiter cs ws) (h' : Munch delimiter cs us) : ws = us := by
  have hperm : ws.Perm us := (List.perm_ext_iff_of_nodup h.nodup h'.nodup).mpr fun w =>
    ⟨fun hw => h.subset h' hw, fun hw => h'.subset h hw⟩
  -- both are ordered by their columns, so they list the same words in the same order
  refine hperm.eq_of_pairwise (fun v w _ _ hvw hwv => ?_) h.pairwise_column h'.pairwise_column
  exact absurd hvw (Nat.lt_asymm hwv)

end Munch

theorem munch_iff : Munch delimiter cs ws ↔ ws = scanFrom delimiter 0 [] cs := by
  constructor
  · intro h
    exact h.unique (munch_scanFrom delimiter cs)
  · rintro rfl
    exact munch_scanFrom delimiter cs

theorem munch_scan (line : String) : Munch isDelimiter line.toList (scan line) :=
  munch_scanFrom isDelimiter line.toList

end Word

/-- The words that spell a token. A literal begins with the quote at its column, takes its value from
the words behind it, none of them a quote, and may have a closing quote. Any other token is the one
word that it reads, at its column. -/
inductive Token.SpelledBy (t : Token) : List Word → Prop where
  | word (kind : t.kind ≠ .string) : SpelledBy t [⟨t.value, t.column⟩]
  | literal {parts : List Word} {closing : Option Word} (kind : t.kind = .string)
      (inner : ∀ w ∈ parts, w.text ≠ "\"") (value : t.value = literalValue (parts.map Word.text))
      (closes : ∀ w ∈ closing, w.text = "\"") :
      SpelledBy t (⟨"\"", t.column⟩ :: parts ++ closing.toList)

theorem Token.SpelledBy.exists_cons {t : Token} {ws : List Word} (h : t.SpelledBy ws) :
    ∃ w us, ws = w :: us ∧ w.column = t.column := by
  cases h with
  | word kind => exact ⟨_, _, rfl, rfl⟩
  | literal kind inner value closes => exact ⟨_, _, rfl, rfl⟩

theorem Token.sublist_map_column {ts : List Token} {groups : List (List Word)}
    (h : List.Forall₂ SpelledBy ts groups) :
    (ts.map Token.column).Sublist (groups.flatten.map Word.column) := by
  induction h with
  | nil => exact List.Sublist.refl _
  | @cons t group ts groups hfirst hrest ih =>
    obtain ⟨w, us, rfl, hcolumn⟩ := hfirst.exists_cons
    rw [List.map_cons, List.flatten_cons, List.cons_append, List.map_cons, hcolumn]
    refine List.Sublist.cons_cons _ ?_
    rw [List.map_append]
    exact ih.trans (List.sublist_append_right _ _)

namespace Mode

/-- The words of the literal that is open in a mode, if one is. -/
def Holds : Mode → List Word → Prop
  | .inString column parts, vs => ∃ us, vs = ⟨"\"", column⟩ :: us ∧ us.map Word.text = parts ∧
      ∀ u ∈ us, u.text ≠ "\""
  | _, vs => vs = []

/-- What a word does to the words held so far: with them it spells a token, or it is held too, or it
is no part of a token and nothing was held. -/
inductive Takes (mode : Mode) (vs : List Word) (w : Word) (out : List Item × Mode) : Prop where
  | token {t : Token} (tokens : Item.tokens out.1 = [t]) (spelled : t.SpelledBy (vs ++ [w]))
      (next : out.2 ≠ .plain false) (holds : out.2.Holds [])
  | held (tokens : Item.tokens out.1 = []) (next : out.2 ≠ .plain false)
      (holds : out.2.Holds (vs ++ [w]))
  | dropped (before : mode = .plain false) (empty : vs = []) (tokens : Item.tokens out.1 = [])
      (next : out.2 = .plain false)
  | comment (empty : vs = []) (tokens : Item.tokens out.1 = [])
      (next : ∃ parts, out.2 = .inComment parts)

variable {number : Int} {mode : Mode} {vs : List Word}

theorem takes_step (hvs : mode.Holds vs) (w : Word)
    (hlong : ∀ i ∈ (mode.step number w).1, i.overlong? = none) :
    mode.Takes vs w (mode.step number w) := by
  have hbegins {t : Token} (h : t ∈ Item.tokens (mode.step number w).1) :=
    beginsWith_of_mem_step h
  have hyields := yields_step number mode w
  generalize mode.step number w = out at hlong hyields hbegins
  have hword {t : Token} (hcolumn : t.column = w.column) (hvalue : t.value = w.text)
      (hkind : t.kind ≠ .string) : t.SpelledBy ([] ++ [w]) := by
    have hspelled := Token.SpelledBy.word hkind
    rwa [hcolumn, hvalue] at hspelled
  cases hyields with
  | @token started _ t stands value =>
    obtain rfl : vs = [] := hvs
    have hcolumn : t.column = w.column := by
      rcases hbegins (List.mem_singleton_self t) with h | ⟨-, h⟩
      · exact h.1
      · cases h
    refine .token rfl (hword hcolumn value stands.not_string) ?_ ?_
    all_goals
      rcases after_cases t with ha | ha | ha | ha
      all_goals simp [ha, Holds]
  | dropped => exact .dropped rfl hvs rfl rfl
  | overlong excess => cases hlong (.overlong excess) (by simp)
  | quote text =>
    obtain rfl : vs = [] := hvs
    refine .held rfl (by simp) ⟨[], ?_, rfl, by simp⟩
    rw [← text]
    rfl
  | literalPart text =>
    obtain ⟨us, rfl, rfl, hinner⟩ := hvs
    refine .held rfl (by simp) ⟨us ++ [w], rfl, by simp, ?_⟩
    intro u hu
    rcases List.mem_append.mp hu with hu | hu
    · exact hinner u hu
    · rwa [List.mem_singleton.mp hu]
  | literal text =>
    obtain ⟨us, rfl, rfl, hinner⟩ := hvs
    have hcloses : ∀ v ∈ some w, v.text = "\"" := by simpa using text
    exact .token rfl (.literal rfl hinner rfl hcloses) (by simp) rfl
  | comment => exact .comment hvs rfl ⟨_, rfl⟩
  | commentPart => exact .comment hvs rfl ⟨_, rfl⟩
  | routineName awaits =>
    obtain rfl : vs = [] := by rcases awaits with rfl | rfl <;> exact hvs
    exact .token rfl (hword rfl rfl (by simp)) (by simp) rfl
  | nameless =>
    obtain rfl : vs = [] := hvs
    exact .token rfl (hword rfl rfl (by simp)) (by simp) rfl
  | variableName =>
    obtain rfl : vs = [] := hvs
    exact .token rfl (hword rfl rfl (by simp)) (by simp) rfl

theorem spelledBy_finish (hvs : mode.Holds vs) :
    ∃ groups, vs = groups.flatten ∧
      List.Forall₂ Token.SpelledBy (Item.tokens mode.finish) groups := by
  cases mode with
  | inString column parts =>
    obtain ⟨us, rfl, rfl, hinner⟩ := hvs
    have hcloses : ∀ v ∈ (none : Option Word), v.text = "\"" := by simp
    exact ⟨[_], by simp, .cons (.literal rfl hinner rfl hcloses) .nil⟩
  | _ => exact ⟨[], hvs, .nil⟩

end Mode

/-- The words held before and those that follow: some are dropped, then groups spell the tokens one
by one, and the rest is a comment. -/
theorem exists_spelledBy_classify {number : Int} {mode : Mode} {vs ws : List Word}
    (hvs : mode.Holds vs) (hlong : ∀ i ∈ classify number mode ws, i.overlong? = none) :
    ∃ dropped groups comment, vs ++ ws = dropped ++ groups.flatten ++ comment ∧
      (mode ≠ .plain false → dropped = []) ∧
      List.Forall₂ Token.SpelledBy (Item.tokens (classify number mode ws)) groups := by
  -- on the words to come; what is held of an open literal is part of the group that it will end
  induction ws generalizing mode vs with
  | nil =>
    obtain ⟨groups, rfl, hgroups⟩ := Mode.spelledBy_finish hvs
    exact ⟨[], groups, [], by simp, fun _ => rfl, hgroups⟩
  | cons w ws ih =>
    simp only [classify, List.mem_append] at hlong
    have hrest {us : List Word} (holds : (mode.step number w).2.Holds us) :=
      ih holds fun i hi => hlong i (.inr hi)
    rw [classify, Item.tokens_append]
    cases Mode.takes_step hvs w fun i hi => hlong i (.inl hi) with
    | @token t tokens spelled next holds =>
      obtain ⟨dropped, groups, comment, hwords, hdropped, hgroups⟩ := hrest holds
      refine ⟨[], (vs ++ [w]) :: groups, comment, ?_, fun _ => rfl, ?_⟩
      · rw [hdropped next, List.nil_append] at hwords
        simp [hwords]
      · rw [tokens]
        exact .cons spelled hgroups
    | held tokens next holds =>
      obtain ⟨dropped, groups, comment, hwords, hdropped, hgroups⟩ := hrest holds
      refine ⟨dropped, groups, comment, ?_, fun _ => hdropped next, ?_⟩
      · rw [← hwords]
        simp
      · rw [tokens]
        exact hgroups
    | dropped before empty tokens next =>
      have holds : (mode.step number w).2.Holds [] := by rw [next]; rfl
      obtain ⟨dropped, groups, comment, hwords, -, hgroups⟩ := hrest holds
      refine ⟨w :: dropped, groups, comment, ?_, fun hne => absurd before hne, ?_⟩
      · rw [List.nil_append] at hwords
        simp [empty, hwords]
      · rw [tokens]
        exact hgroups
    | comment empty tokens next =>
      obtain ⟨parts, hparts⟩ := next
      refine ⟨[], [], w :: ws, by simp [empty], fun _ => rfl, ?_⟩
      rw [tokens, hparts, classify_inComment]
      exact .nil

namespace Line.IsRead

variable {l : Line}

theorem exists_spelledBy (h : l.IsRead) :
    ∃ groups, groups.flatten <:+: Word.scan l.source ∧
      List.Forall₂ Token.SpelledBy l.tokens groups := by
  have hlong : ∀ i ∈ l.items, i.overlong? = none :=
    List.findSome?_eq_none_iff.mp h.findSome?_overlong
  have hholds : (Mode.plain false).Holds [] := rfl
  obtain ⟨dropped, groups, comment, hwords, -, hgroups⟩ := exists_spelledBy_classify hholds hlong
  refine ⟨groups, ⟨dropped, comment, hwords.symm⟩, ?_⟩
  rw [h.tokens_eq]
  exact hgroups

theorem pairwise_column (h : l.IsRead) : l.tokens.Pairwise fun t u => t.column < u.column := by
  obtain ⟨groups, hwithin, hspelled⟩ := h.exists_spelledBy
  have hsublist : (l.tokens.map Token.column).Sublist ((Word.scan l.source).map Word.column) :=
    (Token.sublist_map_column hspelled).trans (hwithin.sublist.map Word.column)
  have hwords : ((Word.scan l.source).map Word.column).Pairwise (· < ·) :=
    List.pairwise_map.mpr (Word.munch_scan l.source).pairwise_column
  exact List.pairwise_map.mp (hwords.sublist hsublist)

theorem extract_column (h : l.IsRead) {t : Token} (ht : t ∈ l.tokens) (hkind : t.kind ≠ .string) :
    l.source.toList.extract t.column (t.column + t.value.length) = t.value.toList := by
  obtain ⟨w, hw, hcolumn, htext⟩ := h.exists_beginsWith ht
  rw [if_neg hkind] at htext
  rw [hcolumn, ← htext]
  exact (Word.standsIn_of_mem_scan hw).extract_eq

theorem quote_column (h : l.IsRead) {t : Token} (ht : t ∈ l.tokens) (hkind : t.kind = .string) :
    l.source.toList[t.column]? = some '"' := by
  obtain ⟨w, hw, hcolumn, htext⟩ := h.exists_beginsWith ht
  rw [if_pos hkind] at htext
  have hstands := Word.standsIn_of_mem_scan hw
  obtain ⟨c, hc, hline⟩ := hstands.getElem?_of_span (Nat.le_refl _) hstands.column_lt_stop
  have hquote : c = '"' := by simpa [htext] using hc
  rw [hcolumn, hline, hquote]

end Line.IsRead

namespace Word

/-- The words of a line are the only ones that maximal munch takes from it. They stand at increasing
columns, and each is what its span of the line reads. So the tokens of a line that was read stand at
increasing columns too, and each is what the line reads there, but for a literal: its column is that
of the quote that opens it. -/
theorem scan_is_maximal_munch (line : String) :
    (∀ ws, Munch isDelimiter line.toList ws ↔ ws = scan line) ∧
    ((scan line).Pairwise fun v w => v.column < w.column ∧ v.stop ≤ w.column) ∧
    (∀ w ∈ scan line, line.toList.extract w.column w.stop = w.text.toList) ∧
    ∀ number l, (Line.read number line).result = .ok l →
      (l.tokens.Pairwise fun t u => t.column < u.column) ∧
      (∀ t ∈ l.tokens, t.kind ≠ .string →
        line.toList.extract t.column (t.column + t.value.length) = t.value.toList) ∧
      (∀ t ∈ l.tokens, t.kind = .string → line.toList[t.column]? = some '"') ∧
      ∃ groups, groups.flatten <:+: scan line ∧
        List.Forall₂ Token.SpelledBy l.tokens groups := by
  have hmunch := munch_scan line
  refine ⟨fun ws => munch_iff, hmunch.pairwise_column.and hmunch.ordered,
    fun w hw => (hmunch.stands w hw).extract_eq, ?_⟩
  intro number l hread
  have hisRead := Line.isRead_of_read hread
  obtain ⟨rfl, rfl⟩ := Line.eq_of_read hread
  exact ⟨hisRead.pairwise_column, fun t ht => hisRead.extract_column ht,
    fun t ht => hisRead.quote_column ht, hisRead.exists_spelledBy⟩

/-- A blank beyond ASCII ends a word, a delimiter needs none, and the value of the literal is not
what the line reads. -/
theorem scan_is_maximal_munch_beside_literal :
    let line := "prnt\u00a0x=\"a,  b\"P0 ;c"
    let tokens : List Token := [⟨.opcode, "prnt", 0⟩, ⟨.generic, "x", 5⟩, ⟨.generic, "=", 6⟩,
      ⟨.string, "a , b", 7⟩, ⟨.port, "P0", 14⟩]
    Munch isDelimiter line.toList [⟨"prnt", 0⟩, ⟨"x", 5⟩, ⟨"=", 6⟩, ⟨"\"", 7⟩, ⟨"a", 8⟩, ⟨",", 9⟩,
      ⟨"b", 12⟩, ⟨"\"", 13⟩, ⟨"P0", 14⟩, ⟨";c", 17⟩] ∧
    (Line.read 4 line).result = .ok ⟨tokens, line, 4, some "c"⟩ ∧
    (tokens.Pairwise fun t u => t.column < u.column) ∧
    line.toList[7]? = some '"' ∧
    ∃ groups, groups.flatten <:+: scan line ∧ List.Forall₂ Token.SpelledBy tokens groups := by
  intro line tokens
  have hread : (Line.read 4 line).result = .ok ⟨tokens, line, 4, some "c"⟩ := by decide +kernel
  obtain ⟨hmunch, -, -, htokens⟩ := scan_is_maximal_munch line
  obtain ⟨hcolumns, -, hquote, hgroups⟩ := htokens 4 _ hread
  exact ⟨(hmunch _).mpr (by decide +kernel), hread, hcolumns,
    hquote ⟨.string, "a , b", 7⟩ (by decide) rfl, hgroups⟩

end Word
end LineAssembly
