import LineAssembly.Proofs.Source.Concatenation
import LineAssembly.Proofs.Source.Reading

/-! Idle lines. A source line that is blank or a comment has no tokens and reports nothing, and a line
without tokens is neither a header nor code outside of a routine. So it may be put in anywhere, and
of the other lines nothing changes but the numbers of those below it. -/
namespace LineAssembly

/-- A source line that has no words or begins with a comment. -/
def Word.isIdle (raw : String) : Bool :=
  (Word.split raw).head?.all fun text => text.toList.head? = some ';'

theorem Word.classOf_of_semicolon {text : String} (h : text.toList.head? = some ';') :
    classOf text = .comment := by
  have hne {word : String} (hword : word.toList.head? ≠ some ';') : text ≠ word := by
    rintro rfl
    exact hword h
  have hnotMem {words : List String} (hwords : ∀ word ∈ words, word.toList.head? ≠ some ';') :
      text ∉ words := fun hmem => hwords text hmem h
  have hopcodes : text ∉ opcodes := hnotMem (by decide)
  have hbrackets : text ∉ brackets := hnotMem (by decide)
  unfold classOf
  rw [if_neg hopcodes, if_neg (hne (by decide)), if_neg hbrackets, if_neg (hne (by decide)),
    if_neg (hne (by decide)), if_neg (hne (by decide)), if_neg (hne (by decide)),
    if_neg (hne (by decide)), if_neg (hne (by decide)), if_neg (hne (by decide)), h]
  rfl

theorem classify_inComment (number : Int) (parts : List String) (ws : List Word) :
    classify number (.inComment parts) ws = [.comment (commentText (parts ++ ws.map Word.text))] := by
  induction ws generalizing parts with
  | nil => simp [classify, Mode.finish]
  | cons w ws ih =>
    simp only [classify, Mode.step, List.nil_append, ih, List.map_cons, List.append_assoc,
      List.singleton_append]

theorem Item.ofLine_of_isIdle {raw : String} (h : Word.isIdle raw = true) (number : Int) :
    ∃ text : Option String, ofLine number raw = text.toList.map .comment := by
  rw [ofLine]
  cases hwords : Word.scan raw with
  | nil => exact ⟨none, rfl⟩
  | cons w ws =>
    have hsemicolon : w.text.toList.head? = some ';' := by
      simpa [Word.isIdle, Word.split, hwords] using h
    refine ⟨some (commentText ([w.text] ++ ws.map Word.text)), ?_⟩
    rw [classify, Mode.step, Mode.plainStep, Word.classOf_of_semicolon hsemicolon]
    exact classify_inComment number [w.text] ws

theorem Line.read_of_isIdle {raw : String} (h : Word.isIdle raw = true) (number : Int) :
    ∃ comment, Line.read number raw = ⟨[], 0, .ok ⟨[], raw, number, comment⟩⟩ := by
  obtain ⟨text, htext⟩ := Item.ofLine_of_isIdle h number
  refine ⟨text, ?_⟩
  rw [read_eq_ofItems, htext]
  cases text <;> rfl

def Line.compact (ls : List Line) : List Line := ls.filter fun l => !l.tokens.isEmpty

def Routine.compact (r : Routine) : Routine := { r with lines := Line.compact r.lines }

def Program.compact (p : Program) : Program :=
  { p with
    routines := p.routines.map Routine.compact
    dangling := Line.compact p.dangling
    lines := Line.compact p.lines }

def Listing.compact (l : Listing) : Listing := { l with lines := Line.compact l.lines }

namespace Line

theorem compact_append (ls ls' : List Line) : compact (ls ++ ls') = compact ls ++ compact ls' :=
  List.filter_append ..

theorem compact_cons_of_nil {l : Line} (h : l.tokens = []) (ls : List Line) :
    compact (l :: ls) = compact ls := by
  simp [compact, h]

theorem compact_cons_of_ne_nil {l : Line} (h : l.tokens ≠ []) (ls : List Line) :
    compact (l :: ls) = l :: compact ls := by
  simp [compact, h]

theorem flatMap_compact {α : Type} {f : Line → List α} (h : ∀ l, l.tokens = [] → f l = [])
    (ls : List Line) : (compact ls).flatMap f = ls.flatMap f := by
  induction ls with
  | nil => rfl
  | cons l ls ih =>
    by_cases htokens : l.tokens = []
    · rw [compact_cons_of_nil htokens, List.flatMap_cons, h l htokens, ih, List.nil_append]
    · rw [compact_cons_of_ne_nil htokens, List.flatMap_cons, List.flatMap_cons, ih]

theorem tokens_ne_nil_of_startsRoutine {l : Line} (h : l.startsRoutine = true) : l.tokens ≠ [] := by
  intro hnil
  simp [startsRoutine, hnil] at h

end Line

theorem Header.compact_inlineBody (l : Line) (rest : List Token) :
    Line.compact (inlineBody l rest) = inlineBody l rest := by
  simp only [inlineBody]
  split
  · rfl
  · rename_i hne
    exact Line.compact_cons_of_ne_nil (by simpa using hne) []

def Block.compact (b : Block) : Block := { b with body := Line.compact b.body }

namespace Block

theorem split_compact (ls : List Line) :
    split (Line.compact ls) = (Line.compact (split ls).1, (split ls).2.map compact) := by
  induction ls with
  | nil => rfl
  | cons l ls ih =>
    by_cases hheader : l.startsRoutine = true
    · rw [Line.compact_cons_of_ne_nil (Line.tokens_ne_nil_of_startsRoutine hheader),
        split_cons_header hheader, split_cons_header hheader, ih]
      rfl
    · have hbody : l.startsRoutine = false := by simpa using hheader
      rw [split_cons_body hbody]
      by_cases htokens : l.tokens = []
      · rw [Line.compact_cons_of_nil htokens, Line.compact_cons_of_nil htokens, ih]
      · rw [Line.compact_cons_of_ne_nil htokens, Line.compact_cons_of_ne_nil htokens,
          split_cons_body hbody, ih]

theorem routine?_compact (b : Block) : b.compact.routine? = b.routine?.map Routine.compact := by
  have hheader : b.compact.header = b.header := rfl
  rw [routine?, routine?, hheader, Option.map_map]
  cases hr : (Header.read b.header).routine with
  | none => rfl
  | some r =>
    obtain ⟨first, name, bracket, tokens, -, -, -, rfl⟩ := Header.exists_of_routine hr
    simp [Routine.compact, compact, Line.compact_append, Header.compact_inlineBody]

theorem dangling_compact (b : Block) : b.compact.dangling = Line.compact b.dangling := by
  rw [dangling, dangling, apply_ite Line.compact]
  rfl

end Block

namespace Extraction

theorem routines_compact (ls : List Line) :
    (ofLines (Line.compact ls)).routines = (ofLines ls).routines.map Routine.compact := by
  simp only [routines_ofLines, Block.split_compact, List.filterMap_map, List.map_filterMap,
    Function.comp_def, Block.routine?_compact]

theorem dangling_compact (ls : List Line) :
    (ofLines (Line.compact ls)).dangling = Line.compact (ofLines ls).dangling := by
  have hblocks (bs : List Block) : (bs.map Block.compact).flatMap Block.dangling =
      Line.compact (bs.flatMap Block.dangling) := by
    simp only [List.flatMap_map, Block.dangling_compact, Line.compact, List.filter_flatMap]
  simp only [dangling_ofLines, Block.split_compact, hblocks, Line.compact_append]

theorem errorCount_compact (ls : List Line) :
    (ofLines (Line.compact ls)).errorCount = (ofLines ls).errorCount := by
  have hnotes (b : Block) : b.compact.notes = b.notes := rfl
  have hbefore (before : List Line) : (Line.compact before).countP (fun l => !l.tokens.isEmpty) =
      before.countP fun l => !l.tokens.isEmpty := by
    rw [Line.compact, List.countP_filter]
    simp only [Bool.and_self]
  simp only [errorCount_ofLines, Block.split_compact, List.flatMap_map, hnotes, hbefore]

end Extraction

namespace Program

/-- The program of a listing does not hang on lines without tokens. -/
theorem ofListing_compact (l : Listing) : ofListing l.compact = (ofListing l).compact := by
  simp only [ofListing, Listing.compact, Extraction.routines_compact, Extraction.dangling_compact,
    Extraction.errorCount_compact]
  rfl

theorem labels_compact (p : Program) : p.compact.labels = p.labels :=
  Line.flatMap_compact (fun l hl => by rw [Line.labels, hl, List.filterMap_nil]) p.lines

end Program

/-- Numbers beyond `k` raised by one, as below a line that is put in behind line `k`. -/
def Relocation.gap (k : Int) : Relocation := { number := fun n => if n ≤ k then n else n + 1 }

namespace Listing

theorem IsRead.number_bounds {l : Listing} (h : l.IsRead) {line : Line} (hline : line ∈ l.lines) :
    1 ≤ line.number ∧ line.number ≤ l.lines.length := by
  have hmem : line.number ∈ l.lines.map Line.number := List.mem_map_of_mem hline
  rw [h.numbers, List.mem_map] at hmem
  obtain ⟨i, hi, hnumber⟩ := hmem
  have hlt := List.mem_range.mp hi
  omega

theorem relocate_gap_followedBy {l l' : Listing} (hl : l.IsRead) (hl' : l'.IsRead) :
    (l.followedBy l').relocate (.gap l.lines.length) =
      { lines := l.lines ++ l'.lines.map (Line.relocate (.shift (l.lines.length + 1)))
        errorCount := l.errorCount + l'.errorCount } := by
  have hbefore : l.lines.map (Line.relocate (.gap l.lines.length)) = l.lines := by
    refine (List.map_congr_left fun x hx => ?_).trans (List.map_id _)
    have hbound := (hl.number_bounds hx).2
    rw [← Line.relocate_default]
    refine (hl.lines x hx).relocate_congr rfl rfl rfl rfl ?_
    simp [Relocation.gap, hbound]
  have hafter : (l'.lines.map (Line.relocate (.shift l.lines.length))).map
        (Line.relocate (.gap l.lines.length)) =
      l'.lines.map (Line.relocate (.shift (l.lines.length + 1))) := by
    rw [List.map_map]
    refine List.map_congr_left fun x hx => ?_
    have hbound := (hl'.number_bounds hx).1
    have hread := (hl'.lines x hx).relocate (ρ := .shift l.lines.length) rfl rfl
    rw [Function.comp_apply, ← Line.relocate_shift_shift]
    refine hread.relocate_congr rfl rfl rfl rfl ?_
    have hbeyond : ¬ x.number + l.lines.length ≤ l.lines.length := by omega
    simp [Relocation.gap, Relocation.shift, hbeyond]
  simp only [relocate, followedBy, List.map_append, hbefore, hafter]

theorem compact_append_followedBy {l l' : Listing} (hl : l.IsRead) (hl' : l'.IsRead) {line : Line}
    (hline : line.tokens = []) :
    ((l.append line 0).followedBy l').compact =
      ((l.followedBy l').relocate (.gap l.lines.length)).compact := by
  have hidle : Line.compact [line] = [] := Line.compact_cons_of_nil hline []
  rw [relocate_gap_followedBy hl hl']
  simp only [compact, followedBy, append, Line.compact_append, hidle, List.append_nil,
    List.length_append, List.length_singleton, Int.natCast_add, Int.natCast_one, Nat.add_zero]

/-- Where an idle line is put in, the lines with tokens are read as before, and those below it are
numbered on by one more. -/
theorem addAll_insert_idle {raw : String} (h : Word.isIdle raw = true) (before after : List String) :
    (addAll {} (before ++ raw :: after)).2.map compact =
      (addAll {} (before ++ after)).2.map fun l => (l.relocate (.gap before.length)).compact := by
  rw [addAll_append, addAll_append]
  cases hbefore : (addAll {} before).2 with
  | error excess => rfl
  | ok l =>
    have hlength : l.lines.length = before.length := by
      simpa using congrArg List.length (sources_addAll hbefore)
    obtain ⟨comment, hread⟩ := Line.read_of_isIdle h l.next
    have hresult : (Line.read l.next raw).result = .ok ⟨[], raw, l.next, comment⟩ := by rw [hread]
    have hinsert : (l.addAll (raw :: after)).2 =
        (addAll {} after).2.map (l.append ⟨[], raw, l.next, comment⟩ 0).followedBy := by
      rw [addAll_cons_of_ok hresult, hread]
      exact addAll_eq_followedBy _ after
    simp only [Except.bind]
    rw [hinsert, addAll_eq_followedBy l after]
    cases hafter : (addAll {} after).2 with
    | error excess => rfl
    | ok l' =>
      have hl := isRead_addAll isRead_empty hbefore
      have hl' := isRead_addAll isRead_empty hafter
      rw [← hlength]
      exact congrArg Except.ok (compact_append_followedBy hl hl' rfl)

end Listing

/-- Where an idle line is put in, the program is read as before, but for lines without tokens and
the numbers of the lines below. -/
theorem Program.readLines_insert_idle {raw : String} (h : Word.isIdle raw = true)
    (before after : List String) :
    (readLines (before ++ raw :: after)).result.map compact =
      (readLines (before ++ after)).result.map fun p => (p.relocate (.gap before.length)).compact := by
  rw [result_readLines, result_readLines]
  obtain ⟨excess, hq, hp⟩ | ⟨l', l, hq, hp, hl⟩ :=
    error_or_ok_of_map_eq (Listing.addAll_insert_idle h before after)
  · rw [hq, hp]
    rfl
  · rw [hq, hp]
    simp only [Except.map]
    rw [← ofListing_compact, hl, ofListing_compact, ofListing_relocate]

end LineAssembly
