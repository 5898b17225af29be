import LineAssembly.Proofs.Source.Comments
import LineAssembly.Proofs.Source.Grammar
import LineAssembly.Proofs.Source.Scanning

/-! Routines on one line. What stands between the braces is read as on a line of its own. The header
has started the line, which matters only to words that are dropped at the start, and the closing
brace is left out as a bracket or falls into the comment before it. -/
namespace LineAssembly

def Relocation.nowhere : Relocation :=
  { column := fun _ => 0, source := fun _ => "", number := fun _ => 0 }

namespace Token

/-- The kind of a token, its value and its number. -/
def reading (t : Token) : String × String × Option Int := (t.kind.name, t.value, t.number?)

theorem reading_relocate (ρ : Relocation) (t : Token) : (t.relocate ρ).reading = t.reading := by
  obtain ⟨kind, value, column⟩ := t
  cases kind <;> rfl

theorem map_reading_of_map_relocate {ρ : Relocation} {ts us : List Token}
    (h : ts.map (relocate ρ) = us.map (relocate ρ)) : ts.map reading = us.map reading := by
  have hmap := congrArg (List.map reading) h
  simpa only [List.map_map, Function.comp_def, reading_relocate] using hmap

/-- Each `let` is followed by a name. -/
def letsNamed : List Token → Bool
  | [] => true
  | t :: ts => (!t.isLet || ts.head?.any fun u => u.kind = .variableName) && letsNamed ts

theorem isLet_relocate (ρ : Relocation) (t : Token) : (t.relocate ρ).isLet = t.isLet := by
  obtain ⟨kind, value, column⟩ := t
  cases kind <;> rfl

theorem isLet_getLast_of_letsNamed {ts : List Token} (h : letsNamed ts = true) {t : Token}
    (ht : t ∈ ts.getLast?) : t.isLet = false := by
  induction ts with
  | nil => cases ht
  | cons u us ih =>
    simp only [letsNamed, Bool.and_eq_true] at h
    cases us with
    | nil =>
      obtain rfl : u = t := by simpa using ht
      simpa using h.1
    | cons v vs => exact ih h.2 (by simpa using ht)

end Token

namespace Item

theorem isFaultless_relocate (ρ : Relocation) (i : Item) :
    (i.relocate ρ).isFaultless = i.isFaultless := by
  cases i <;> rfl

theorem tokens_relocate (ρ : Relocation) (items : List Item) :
    tokens (items.map (relocate ρ)) = (tokens items).map (Token.relocate ρ) := by
  simp only [tokens, List.filterMap_map, List.map_filterMap, Function.comp_def, token?_relocate]

theorem map_relocate_nowhere (number : Int) (raw : String) :
    (ofLine number raw).map (relocate .nowhere) =
      classify 0 (.plain false) ((Word.split raw).map fun text => ⟨text, 0⟩) := by
  rw [map_relocate_ofLine, Word.split, List.map_map]
  rfl

end Item

namespace Mode

variable {number : Int}

/-- That a line has been started matters only to a word that would be dropped. -/
theorem plainStep_started {w : Word}
    (h : ∀ i ∈ (plainStep number false w).1, i.isFaultless = true) :
    plainStep number true w = plainStep number false w := by
  revert h
  unfold plainStep
  cases Word.classOf w.text with
  | numeral =>
    cases Decimal.read w.text.toList with
    | ok n => exact fun _ => rfl
    | error excess => simp [Item.isFaultless, Item.overlong?]
  | other => simp [Item.isFaultless, Item.isError]
  | _ => exact fun _ => rfl

theorem through_started {ws : List Word} (hws : ws ≠ [])
    (h : ∀ i ∈ ((plain false).through number ws).1, i.isFaultless = true) :
    (plain true).through number ws = (plain false).through number ws := by
  cases ws with
  | nil => exact absurd rfl hws
  | cons w ws =>
    have hstep : plainStep number true w = plainStep number false w :=
      plainStep_started fun i hi => h i (List.mem_append_left _ hi)
    simp only [through, step, hstep]

theorem isLet_of_through {mode : Mode} {ws : List Word} (h : (mode.through number ws).2 = .afterLet)
    {t : Token} (ht : t ∈ (Item.tokens (mode.through number ws).1).getLast?) : t.isLet = true := by
  -- one more word would be the name of a variable, which follows nothing else
  have hchain := isChain_tokens_classify number mode (ws ++ [⟨"", 0⟩])
  obtain ⟨before, hbefore⟩ := List.getLast?_eq_some_iff.mp ht
  rw [classify_append, h, Item.tokens_append, hbefore, List.append_assoc] at hchain
  have hfollows : t.Follows ⟨.variableName, "", 0⟩ :=
    (List.isChain_cons_cons.mp hchain.right_of_append).1
  exact hfollows.variableName.mp rfl

theorem classify_closing {mode : Mode} (hlet : mode ≠ .afterLet)
    (h : ∀ i ∈ mode.finish, i.isFaultless = true) (number : Int) (column : Nat) :
    (∀ i ∈ classify number mode [⟨"\x7d", column⟩], i.isFaultless = true) ∧
      (Item.tokens (classify number mode [⟨"\x7d", column⟩])).filter (fun t => t.kind ≠ .bracket) =
        [] := by
  cases mode with
  | plain started | inComment parts =>
    refine ⟨fun i hi => ?_, rfl⟩
    rw [List.mem_singleton.mp hi]
    rfl
  | afterLet => exact absurd rfl hlet
  | afterCall | afterFn => exact absurd (h .nameless (List.mem_singleton_self _)) (by decide)
  | inString column parts => exact absurd (h .unterminated List.mem_cons_self) (by decide)

end Mode

/-- Words that are read without a fault on a line of their own are read behind an opening brace and
before a closing one as well, with the same tokens but for brackets. -/
theorem classify_between {number : Int} {ws : List Word} {items : List Item}
    (hitems : classify number (.plain false) ws = items)
    (h : ∀ i ∈ items, i.isFaultless = true) (htokens : Item.tokens items ≠ [])
    (hlet : ∀ t ∈ (Item.tokens items).getLast?, t.isLet = false) :
    (∀ i ∈ classify number (.plain true) (ws ++ [⟨"\x7d", 0⟩]), i.isFaultless = true) ∧
      (Item.tokens (classify number (.plain true) (ws ++ [⟨"\x7d", 0⟩]))).filter
          (fun t => t.kind ≠ .bracket) =
        (Item.tokens items).filter fun t => t.kind ≠ .bracket := by
  have hws : ws ≠ [] := by
    rintro rfl
    exact htokens (by rw [← hitems]; rfl)
  rw [classify_eq_through] at hitems
  subst hitems
  obtain ⟨hbefore, hfinish⟩ := List.forall_mem_append.mp h
  have hclosed : .unterminated ∉ ((Mode.plain false).through number ws).2.finish := by
    intro hmem
    cases hfinish _ hmem
  rw [Item.tokens_append, Mode.tokens_finish hclosed, List.append_nil] at htokens hlet ⊢
  have hcomplete : ((Mode.plain false).through number ws).2 ≠ .afterLet := by
    intro hmode
    have hlast := List.getLast?_eq_some_getLast htokens
    have his := Mode.isLet_of_through hmode hlast
    rw [hlet _ hlast] at his
    cases his
  obtain ⟨hbehind, hbracket⟩ := Mode.classify_closing hcomplete hfinish number 0
  rw [classify_append, Mode.through_started hws hbefore]
  refine ⟨List.forall_mem_append.mpr ⟨hbefore, hbehind⟩, ?_⟩
  rw [Item.tokens_append, List.filter_append, hbracket, List.append_nil]

def Header.bareTokens (name : String) : List Token :=
  [⟨.keyword, "fn", 0⟩, ⟨.routineName, name, 0⟩, ⟨.bracket, "(", 0⟩, ⟨.bracket, ")", 0⟩,
    ⟨.bracket, "\x7b", 0⟩]

theorem classify_bareTokens {name : String} (hname : name ≠ "\x7b") (ws : List Word) :
    classify 0 (.plain false)
        ((["fn", name, "(", ")", "\x7b"].map fun text => ⟨text, 0⟩) ++ ws) =
      (Header.bareTokens name).map .token ++ classify 0 (.plain true) ws := by
  have hthrough : (Mode.plain false).through 0
      (["fn", name, "(", ")", "\x7b"].map fun text => ⟨text, 0⟩) =
        ((Header.bareTokens name).map .token, .plain true) := by
    have hstep : Mode.step 0 .afterFn ⟨name, 0⟩ =
        ([.token ⟨.routineName, name, 0⟩], .plain true) := if_neg hname
    have hfn : Mode.step 0 (.plain false) ⟨"fn", 0⟩ =
        ([.token ⟨.keyword, "fn", 0⟩], .afterFn) := rfl
    simp only [List.map_cons, Mode.through, hfn, hstep]
    rfl
  rw [classify_append, hthrough]

theorem Word.split_one_line {name : String} (hname : split name = [name]) (raw : String) :
    split ("fn " ++ name ++ " ( ) \x7b " ++ raw ++ " \x7d") =
      ["fn", name, "(", ")", "\x7b"] ++ (split raw ++ ["\x7d"]) := by
  have hline : "fn " ++ name ++ " ( ) \x7b " ++ raw ++ " \x7d" =
      "fn" ++ " " ++ name ++ " " ++ "( ) \x7b" ++ " " ++ raw ++ " " ++ "\x7d" := by
    apply String.toList_injective
    simp
  have hopen : split "( ) \x7b" = ["(", ")", "\x7b"] := by decide
  have hends : split "fn" = ["fn"] ∧ split "\x7d" = ["\x7d"] := by decide
  rw [hline]
  simp only [split_append_space, hname, hopen, hends.1, hends.2]
  simp

theorem Extraction.ofLines_bareTokens {l : Line} {name : String} {rest : List Token}
    (h : l.tokens = Header.bareTokens name ++ rest) :
    ofLines [l] = ⟨[⟨name, [], Header.inlineBody l rest⟩], [], [], 0⟩ := by
  have hstarts : l.startsRoutine = true := by rw [Line.startsRoutine, h]; rfl
  have hread : Header.read l = ⟨[], some ⟨name, [], Header.inlineBody l rest⟩⟩ := by
    rw [Header.read, h]
    rfl
  rw [ofLines_eq_grouped, grouped, Block.split_cons_header hstarts]
  simp [Block.split, Block.routine?, Block.dangling, Block.notes, hread]

/-- What some code yields between the braces of a routine on one line, wherever it stands. -/
def Item.inBraces (raw : String) : List Item :=
  classify 0 (.plain true) (((Word.split raw).map fun text => ⟨text, 0⟩) ++ [⟨"\x7d", 0⟩])

theorem Item.ofLine_one_line {name : String} (hword : Word.split name = [name])
    (hname : name ≠ "\x7b") (number : Int) (raw : String) :
    (ofLine number ("fn " ++ name ++ " ( ) \x7b " ++ raw ++ " \x7d")).map (relocate .nowhere) =
      (Header.bareTokens name).map .token ++ inBraces raw := by
  rw [map_relocate_nowhere, Word.split_one_line hword, List.map_append, List.map_append,
    classify_bareTokens hname]
  rfl

namespace Line

theorem IsRead.inBraces {l : Line} (h : l.IsRead) (herrors : (read l.number l.source).errors = 0)
    (htokens : l.tokens ≠ []) (hbracket : ∀ t ∈ l.tokens, t.kind ≠ .bracket)
    (hlet : Token.letsNamed l.tokens = true) :
    (∀ i ∈ Item.inBraces l.source, i.isFaultless = true) ∧
      (Item.tokens (Item.inBraces l.source)).filter (fun t => t.kind ≠ .bracket) =
        l.tokens.map (Token.relocate .nowhere) := by
  have hitems : classify 0 (.plain false) ((Word.split l.source).map fun text => ⟨text, 0⟩) =
      l.items.map (Item.relocate .nowhere) := (Item.map_relocate_nowhere l.number l.source).symm
  have hfaultless : ∀ i ∈ l.items.map (Item.relocate .nowhere), i.isFaultless = true := by
    simpa [Item.isFaultless_relocate] using h.isFaultless herrors
  have hown : Item.tokens (l.items.map (Item.relocate .nowhere)) =
      l.tokens.map (Token.relocate .nowhere) := by rw [Item.tokens_relocate, h.tokens_eq]
  have hlast : ∀ t ∈ (l.tokens.map (Token.relocate .nowhere)).getLast?, t.isLet = false := by
    intro t ht
    rw [List.getLast?_map] at ht
    obtain ⟨u, hu, rfl⟩ := Option.map_eq_some_iff.mp ht
    rw [Token.isLet_relocate, Token.isLet_getLast_of_letsNamed hlet hu]
  have hkept : (l.tokens.map (Token.relocate .nowhere)).filter (fun t => t.kind ≠ .bracket) =
      l.tokens.map (Token.relocate .nowhere) := by
    simpa [List.filter_eq_self] using hbracket
  have hbetween := classify_between hitems hfaultless
  rw [hown, hkept] at hbetween
  exact hbetween (by simpa using htokens) hlast

theorem exists_read_one_line {raw : String} (h : ∀ i ∈ Item.inBraces raw, i.isFaultless = true)
    {name : String} (hword : Word.split name = [name]) (hname : name ≠ "\x7b") (number : Int) :
    let reading := read number ("fn " ++ name ++ " ( ) \x7b " ++ raw ++ " \x7d")
    ∃ l, reading.result = .ok l ∧ reading.errors = 0 ∧
      (l.relocate .nowhere).tokens = Header.bareTokens name ++ Item.tokens (Item.inBraces raw) := by
  intro reading
  have hitems := Item.ofLine_one_line hword hname number raw
  have hfaultless : ∀ i ∈ Item.ofLine number ("fn " ++ name ++ " ( ) \x7b " ++ raw ++ " \x7d"),
      i.isFaultless = true := by
    intro i hi
    have hmoved : i.relocate .nowhere ∈ _ := List.mem_map_of_mem hi
    rw [hitems] at hmoved
    rw [← Item.isFaultless_relocate .nowhere]
    obtain hmem | hmem := List.mem_append.mp hmoved
    · obtain ⟨t, -, ht⟩ := List.mem_map.mp hmem
      rw [← ht]
      rfl
    · exact h _ hmem
  have hreading : reading = _ := LineReading.ofItems_of_isFaultless hfaultless number _
  refine ⟨_, congrArg LineReading.result hreading, congrArg LineReading.errors hreading, ?_⟩
  rw [tokens_relocate, ← Item.tokens_relocate, hitems]
  rfl

end Line

theorem Routine.exists_of_relocate_eq {ρ : Relocation} {r : Routine} {name : String} {l : Line}
    (h : r.relocate ρ = ⟨name, [], [l]⟩) :
    ∃ body, r = ⟨name, [], [body]⟩ ∧ body.relocate ρ = l := by
  obtain ⟨n, arguments, lines⟩ := r
  obtain ⟨rfl, harguments, hlines⟩ := Routine.mk.inj h
  obtain ⟨body, rfl, hbody⟩ := List.map_eq_singleton_iff.mp hlines
  obtain rfl := List.map_eq_nil_iff.mp harguments
  exact ⟨body, rfl, hbody⟩

/-- A routine on one line has no arguments and one line of code, whose tokens are those of the code
on a line of its own. Neither the words of the line nor its header count an error. -/
theorem Extraction.routine_of_one_line {number : Int} {raw : String} {line : Line}
    (hread : (Line.read number raw).result = .ok line) (herrors : (Line.read number raw).errors = 0)
    (htokens : line.tokens ≠ []) (hbracket : ∀ t ∈ line.tokens, t.kind ≠ .bracket)
    (hlet : Token.letsNamed line.tokens = true) {name : String} (hword : Word.split name = [name])
    (hname : name ≠ "\x7b") (number' : Int) :
    let reading := Line.read number' ("fn " ++ name ++ " ( ) \x7b " ++ raw ++ " \x7d")
    ∃ l body, reading.result = .ok l ∧ reading.errors = 0 ∧
      (ofLines [l]).routines = [⟨name, [], [body]⟩] ∧ (ofLines [l]).errorCount = 0 ∧
      body.tokens.map Token.reading = line.tokens.map Token.reading := by
  obtain ⟨rfl, rfl⟩ := Line.eq_of_read hread
  obtain ⟨hfaultless, hkept⟩ :=
    (Line.isRead_of_read hread).inBraces herrors htokens hbracket hlet
  obtain ⟨l, hl, hzero, hwhole⟩ := Line.exists_read_one_line hfaultless hword hname number'
  have hbody : Header.inlineBody (l.relocate .nowhere) (Item.tokens (Item.inBraces line.source)) =
      [⟨line.tokens.map (Token.relocate .nowhere), "", 0, none⟩] := by
    rw [Header.inlineBody, hkept, if_neg (by simpa using htokens)]
    rfl
  -- what holds of the line wherever it stands holds of it where it was read
  have hnowhere := ofLines_bareTokens hwhole
  have hroutines := routines_relocate .nowhere [l]
  have hcount := errorCount_relocate .nowhere [l]
  rw [List.map_singleton, hnowhere] at hroutines hcount
  rw [hbody] at hroutines
  obtain ⟨r, hr, hroutine⟩ := List.map_eq_singleton_iff.mp hroutines.symm
  obtain ⟨body, rfl, hmoved⟩ := Routine.exists_of_relocate_eq hroutine
  have hsame : body.tokens.map (Token.relocate .nowhere) =
      line.tokens.map (Token.relocate .nowhere) := by rw [← Line.tokens_relocate, hmoved]
  exact ⟨l, body, hl, hzero, hr, hcount.symm, Token.map_reading_of_map_relocate hsame⟩

/-- The code has a bracket for a name, a literal with one in it, a word that would be dropped at the
start of a line, and a comment into which the closing brace falls. -/
theorem Extraction.routine_of_one_line_comment :
    ∃ line l body, (Line.read 3 "let ) , \") ;\" odd at: 7 ; end").result = .ok line ∧
      (Line.read 3 "let ) , \") ;\" odd at: 7 ; end").errors = 0 ∧ line.tokens ≠ [] ∧
      (∀ t ∈ line.tokens, t.kind ≠ .bracket) ∧ Token.letsNamed line.tokens = true ∧
      Word.split ";" = [";"] ∧
      (Line.read 1 "fn ; ( ) \x7b let ) , \") ;\" odd at: 7 ; end \x7d").result = .ok l ∧
      (ofLines [l]).routines = [⟨";", [], [body]⟩] ∧ (ofLines [l]).errorCount = 0 ∧
      body.tokens.map Token.reading =
        [("Keyword", "let", none), ("VarName", ")", none), ("Comma", ",", none),
          ("String", ") ;", none), ("Generic", "odd", none), ("JumpLocation", "at:", none),
          ("Number", "7", some 7)] := by
  have hread : (Line.read 3 "let ) , \") ;\" odd at: 7 ; end").result =
      .ok ⟨[⟨.keyword, "let", 0⟩, ⟨.variableName, ")", 4⟩, ⟨.comma, ",", 6⟩, ⟨.string, ") ;", 8⟩,
        ⟨.generic, "odd", 14⟩, ⟨.label ⟨.string "at", 3⟩, "at:", 18⟩, ⟨.number 7, "7", 22⟩],
        "let ) , \") ;\" odd at: 7 ; end", 3, some "end"⟩ := by decide +kernel
  have herrors : (Line.read 3 "let ) , \") ;\" odd at: 7 ; end").errors = 0 := by decide +kernel
  have hword : Word.split ";" = [";"] := by decide
  obtain ⟨l, body, hl, -, hroutines, hcount, htokens⟩ := routine_of_one_line hread herrors
    (by decide) (by decide) (by decide) hword (by decide) 1
  exact ⟨_, l, body, hread, herrors, by decide, by decide, by decide, hword, hl, hroutines, hcount,
    htokens⟩

end LineAssembly
