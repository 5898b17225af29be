import LineAssembly.Proofs.Run.Scope
import LineAssembly.Proofs.Source.Comments
import LineAssembly.Proofs.Source.Scanning

/-! Literals at work. Between quotes no word is read as anything else, so that a literal has the
value that its words give wherever it stands, and this value is what is printed, from the literal
itself or from a variable that it is bound to. -/
namespace LineAssembly
namespace Word

theorem scan_append_literal (code content : String) :
    scan (code ++ "\"" ++ content ++ "\"") =
      scan code ++ ⟨"\"", code.length⟩ ::
        (scanFrom isDelimiter (code.length + 1) [] content.toList ++
          [⟨"\"", code.length + 1 + content.length⟩]) := by
  have hquote : Text.isBlank '"' = false ∧ isDelimiter '"' = true := by decide
  have hchars : (code ++ "\"" ++ content ++ "\"").toList =
      code.toList ++ '"' :: (content.toList ++ '"' :: []) := by simp
  rw [scan, hchars, scanFrom_append_delimiter hquote.1 hquote.2,
    scanFrom_append_delimiter hquote.1 hquote.2, String.length_toList, String.length_toList,
    Nat.zero_add]
  rfl

theorem text_ne_quote {content : String} (h : '"' ∉ content.toList) {column : Nat} {w : Word}
    (hw : w ∈ scanFrom isDelimiter column [] content.toList) : w.text ≠ "\"" := by
  intro htext
  have hsubset := (isWord_of_mem_scanFrom (by simp) hw).2
  apply h
  apply hsubset
  simp [htext]

end Word

/-- The words up to the closing quote make up the literal, whatever they are. -/
theorem classify_literal (number : Int) (column : Nat) (parts : List String) {ws : List Word}
    (hws : ∀ w ∈ ws, w.text ≠ "\"") {quote : Word} (hquote : quote.text = "\"") (rest : List Word) :
    classify number (.inString column parts) (ws ++ quote :: rest) =
      .token ⟨.string, literalValue (parts ++ ws.map Word.text), column⟩ ::
        classify number (.plain true) rest := by
  induction ws generalizing parts with
  | nil => simp [classify, Mode.step, hquote]
  | cons w ws ih =>
    obtain ⟨hw, hrest⟩ := List.forall_mem_cons.mp hws
    rw [List.cons_append, classify, Mode.step, if_neg hw, List.nil_append, ih _ hrest,
      List.map_cons, List.append_assoc, List.singleton_append]

theorem Item.ofLine_append_literal {content : String} (hcontent : '"' ∉ content.toList)
    {number : Int} {code : String} {items : List Item} {started : Bool}
    (hcode : (Mode.plain false).through number (Word.scan code) = (items, .plain started)) :
    ofLine number (code ++ "\"" ++ content ++ "\"") =
      items ++ [.token ⟨.string, literalValue (Word.split content), code.length⟩] := by
  have hstep : Mode.plainStep number started ⟨"\"", code.length⟩ =
      ([], .inString code.length []) := rfl
  rw [ofLine, Word.scan_append_literal, classify_append, hcode, classify, Mode.step, hstep,
    classify_literal number code.length [] (fun _ => Word.text_ne_quote hcontent) rfl,
    Word.map_text_scanFrom_eq_split]
  rfl

theorem Line.read_of_tokens {number : Int} {raw : String} {ts : List Token}
    (h : Item.ofLine number raw = ts.map .token) :
    Line.read number raw = ⟨[], 0, .ok ⟨ts, raw, number, none⟩⟩ := by
  have hfaultless : ∀ i ∈ ts.map Item.token, i.isFaultless = true := by
    simp [Item.isFaultless, Item.isError, Item.overlong?]
  have hcomment : (ts.map Item.token).findSome? Item.comment? = none := by simp [Item.comment?]
  have htokens : Item.tokens (ts.map Item.token) = ts := by
    rw [Item.tokens, List.filterMap_map]
    exact List.filterMap_some
  rw [read_eq_ofItems, h, LineReading.ofItems_of_isFaultless hfaultless, hcomment, htokens]

namespace Word

/-- A word that is looked up among the variables where it is printed. It may read as an opcode, a
bracket, a comma, a label or `let`. -/
structure IsLookedUp (x : String) : Prop where
  word : split x = [x]
  not_reserved : x ∉ ["A", "Stack", "call", "fn", "\""]
  not_numeral : Decimal.isNumeral x.toList = false
  not_port : x.toList.head? ≠ some 'P'
  not_comment : x.toList.head? ≠ some ';'

theorem scan_print {x : String} (hx : split x = [x]) :
    scan ("prnt " ++ x) = [⟨"prnt", 0⟩, ⟨x, 5⟩] := by
  have hchars : ("prnt " ++ x).toList = "prnt".toList ++ ' ' :: x.toList := by simp
  rw [scan, hchars, scanFrom_append_blank _ _ _ _ _ Text.isBlank_space,
    scanFrom_of_isWord (isWord_of_split_eq hx), String.ofList_toList]
  rfl

theorem scan_binding {x : String} (hx : split x = [x]) :
    scan ("let " ++ x ++ " , ") = [⟨"let", 0⟩, ⟨x, 4⟩, ⟨",", x.length + 5⟩] := by
  have hchars : ("let " ++ x ++ " , ").toList =
      "let".toList ++ ' ' :: (x.toList ++ ' ' :: ", ".toList) := by simp
  have hcolumn : 0 + "let".toList.length + 1 + x.toList.length + 1 = x.length + 5 := by
    rw [String.length_toList, String.length_toList]
    have hlet : "let".length = 3 := rfl
    omega
  have hcomma (column : Nat) : scanFrom isDelimiter column [] ", ".toList = [⟨",", column⟩] := by
    have hmarks : Text.isBlank ',' = false ∧ isDelimiter ',' = true := by decide
    simp [scanFrom, hmarks.1, hmarks.2, Text.isBlank_space]
  rw [scan, hchars, scanFrom_append_blank _ _ _ _ _ Text.isBlank_space,
    scanFrom_append_blank _ _ _ _ _ Text.isBlank_space,
    scanFrom_of_isWord (isWord_of_split_eq hx), String.ofList_toList, hcolumn, hcomma]
  rfl

end Word

theorem Mode.exists_plainStep_of_isLookedUp {x : String} (hx : Word.IsLookedUp x) (number : Int)
    (column : Nat) :
    ∃ kind mode, plainStep number true ⟨x, column⟩ = ([.token ⟨kind, x, column⟩], mode) ∧
      mode.finish = [] ∧ Token.isName ⟨kind, x, column⟩ = true := by
  have hreserved := hx.not_reserved
  simp only [List.mem_cons, List.not_mem_nil, or_false, not_or] at hreserved
  obtain ⟨haccumulator, hstack, hcall, hfn, hquote⟩ := hreserved
  have hd := Word.describes_classOf x
  unfold plainStep
  generalize Word.classOf x = c at hd
  cases c with
  | accumulator => exact absurd hd haccumulator
  | stack => exact absurd hd hstack
  | call => exact absurd hd hcall
  | fn => exact absurd hd hfn
  | quote => exact absurd hd hquote
  | port => exact absurd hd hx.not_port
  | comment => exact absurd hd hx.not_comment
  | numeral =>
    have hnumeral : Decimal.isNumeral x.toList = true := hd
    rw [hx.not_numeral] at hnumeral
    cases hnumeral
  | _ => exact ⟨_, _, rfl, rfl, rfl⟩

namespace Line

variable {content x : String}

theorem read_print_literal (hcontent : '"' ∉ content.toList) (number : Int) :
    Line.read number ("prnt \"" ++ content ++ "\"") =
      ⟨[], 0, .ok ⟨[⟨.opcode, "prnt", 0⟩, ⟨.string, literalValue (Word.split content), 5⟩],
        "prnt \"" ++ content ++ "\"", number, none⟩⟩ := by
  have hcode : (Mode.plain false).through number (Word.scan "prnt ") =
      ([.token ⟨.opcode, "prnt", 0⟩], .plain true) := rfl
  have hsource : "prnt \"" = "prnt " ++ "\"" := by decide
  have hcolumn : "prnt ".length = 5 := by decide
  have hitems := Item.ofLine_append_literal hcontent hcode
  rw [hcolumn, ← hsource] at hitems
  exact read_of_tokens hitems

theorem read_bind_literal (hcontent : '"' ∉ content.toList) (hx : Word.split x = [x])
    (number : Int) :
    Line.read number ("let " ++ x ++ " , \"" ++ content ++ "\"") =
      ⟨[], 0, .ok ⟨[⟨.keyword, "let", 0⟩, ⟨.variableName, x, 4⟩, ⟨.comma, ",", x.length + 5⟩,
          ⟨.string, literalValue (Word.split content), x.length + 7⟩],
        "let " ++ x ++ " , \"" ++ content ++ "\"", number, none⟩⟩ := by
  have hcode : (Mode.plain false).through number (Word.scan ("let " ++ x ++ " , ")) =
      ([.token ⟨.keyword, "let", 0⟩, .token ⟨.variableName, x, 4⟩,
        .token ⟨.comma, ",", x.length + 5⟩], .plain true) := by
    rw [Word.scan_binding hx]
    rfl
  have hsource : "let " ++ x ++ " , \"" ++ content ++ "\"" =
      "let " ++ x ++ " , " ++ "\"" ++ content ++ "\"" := by
    apply String.toList_injective
    simp
  have hcolumn : ("let " ++ x ++ " , ").length = x.length + 7 := by
    have hends : "let ".length = 4 ∧ " , ".length = 3 := by decide
    rw [String.length_append, String.length_append, hends.1, hends.2]
    omega
  have hitems := Item.ofLine_append_literal hcontent hcode
  rw [hcolumn, ← hsource] at hitems
  exact read_of_tokens hitems

theorem exists_read_print_name (hx : Word.IsLookedUp x) (number : Int) :
    ∃ kind, Token.isName ⟨kind, x, 5⟩ = true ∧
      Line.read number ("prnt " ++ x) =
        ⟨[], 0, .ok ⟨[⟨.opcode, "prnt", 0⟩, ⟨kind, x, 5⟩], "prnt " ++ x, number, none⟩⟩ := by
  obtain ⟨kind, mode, hstep, hfinish, hname⟩ := Mode.exists_plainStep_of_isLookedUp hx number 5
  have hfirst : Mode.plainStep number false ⟨"prnt", 0⟩ =
      ([.token ⟨.opcode, "prnt", 0⟩], .plain true) := rfl
  have hitems : Item.ofLine number ("prnt " ++ x) =
      [⟨.opcode, "prnt", 0⟩, ⟨kind, x, 5⟩].map .token := by
    rw [Item.ofLine, Word.scan_print hx.word, classify, Mode.step, hfirst, classify, Mode.step,
      hstep, classify, hfinish]
    rfl
  exact ⟨kind, hname, read_of_tokens hitems⟩

end Line

/-- The run has left the machine and written the text, and nothing else has come of it. -/
structure Effect.Writes (e : Effect) (m : Machine) (text : String) : Prop where
  machine : e.machine = m
  output : e.output = text
  problems : e.problems = []
  fault : e.fault = Option.none

section Run

variable {line line' : Line} {x v : String} {i j : Nat} {kind : Token.Kind}

theorem runLines_singleton (level : Nat) (call : Statement.Caller) (line : Line) (m : Machine) :
    runLines level call [line] m = runTokens level call line line.tokens m :=
  Effect.andThen_none _

theorem runTokens_of_rest_eq_nil {level : Nat} {call : Statement.Caller} {head : Token}
    {tokens : List Token} {m : Machine} {e : Effect}
    (h : Statement.dispatch level call line head tokens m = ⟨e, []⟩) :
    runTokens level call line (head :: tokens) m = e := by
  have hnil : runTokens level call line [] = Effect.none := funext fun n => by rw [runTokens]
  rw [runTokens, h, hnil, Effect.andThen_none]

theorem runTokens_print {t : Token} (h : line.tokens = [⟨.opcode, "prnt", 0⟩, t]) (level : Nat)
    (call : Statement.Caller) (m : Machine) :
    ∃ ts us, runTokens level call line line.tokens m =
      (((Statement.fetchText m line t).run m (Effect.write m)).traced ts).traced us := by
  rw [h]
  exact ⟨_, _, runTokens_of_rest_eq_nil rfl⟩

theorem runTokens_bind
    (h : line.tokens =
      [⟨.keyword, "let", 0⟩, ⟨.variableName, x, 4⟩, ⟨.comma, ",", i⟩, ⟨.string, v, j⟩])
    (level : Nat) (call : Statement.Caller) (m : Machine) :
    ∃ ts us, runTokens level call line line.tokens m =
      ((Effect.none (m.define (.string (.string x) v))).traced ts).traced us := by
  rw [h]
  exact ⟨_, _, runTokens_of_rest_eq_nil rfl⟩

theorem writes_print (h : line.tokens = [⟨.opcode, "prnt", 0⟩, ⟨.string, v, 5⟩]) (level : Nat)
    (call : Statement.Caller) (m : Machine) : (runLines level call [line] m).Writes m v := by
  obtain ⟨ts, us, hprint⟩ := runTokens_print h level call m
  rw [runLines_singleton, hprint]
  exact ⟨rfl, rfl, rfl, rfl⟩

theorem writes_bind_print
    (h : line.tokens =
      [⟨.keyword, "let", 0⟩, ⟨.variableName, x, 4⟩, ⟨.comma, ",", i⟩, ⟨.string, v, j⟩])
    (h' : line'.tokens = [⟨.opcode, "prnt", 0⟩, ⟨kind, x, 5⟩])
    (hname : Token.isName ⟨kind, x, 5⟩ = true) (level : Nat) (call : Statement.Caller)
    (m : Machine) :
    (runLines level call [line, line'] m).Writes (m.define (.string (.string x) v)) v := by
  have hlookup : (m.define (.string (.string x) v)).lookup (.string x) =
      some (.string (.string x) v) := by
    rw [Machine.lookup_define]
    exact if_pos rfl
  have hfetch : Statement.fetchText (m.define (.string (.string x) v)) line' ⟨kind, x, 5⟩ =
      .value v := by
    rw [Statement.fetchText_of_isName hname]
    simp only [hlookup]
    rfl
  obtain ⟨ts, us, hbind⟩ := runTokens_bind h level call m
  obtain ⟨ts', us', hprint⟩ := runTokens_print h' level call (m.define (.string (.string x) v))
  rw [runLines, hbind, Effect.traced_andThen, Effect.traced_andThen, Effect.none_andThen,
    runLines_singleton, hprint, hfetch]
  exact ⟨rfl, rfl, rfl, rfl⟩

end Run

/-- A literal without quotes in it is read as one token of the value that its words give, and
printing it writes this value and does nothing else. Bound to a name, it is what printing the name
writes, whatever the machine held before. -/
theorem runLines_of_literal {content : String} (hcontent : '"' ∉ content.toList) :
    let value := literalValue (Word.split content)
    (∀ number, ∃ line,
      Line.read number ("prnt \"" ++ content ++ "\"") = ⟨[], 0, .ok line⟩ ∧
      line.tokens = [⟨.opcode, "prnt", 0⟩, ⟨.string, value, 5⟩] ∧ line.comment = none ∧
      ∀ level call m, (runLines level call [line] m).Writes m value) ∧
    ∀ x, Word.IsLookedUp x → ∀ number number', ∃ line line',
      Line.read number ("let " ++ x ++ " , \"" ++ content ++ "\"") = ⟨[], 0, .ok line⟩ ∧
      Line.read number' ("prnt " ++ x) = ⟨[], 0, .ok line'⟩ ∧
      ∀ level call m, (runLines level call [line, line'] m).Writes
        (m.define (.string (.string x) value)) value := by
  intro value
  constructor
  · intro number
    exact ⟨_, Line.read_print_literal hcontent number, rfl, rfl, writes_print rfl⟩
  · intro x hx number number'
    obtain ⟨kind, hname, hprint⟩ := Line.exists_read_print_name hx number'
    exact ⟨_, _, Line.read_bind_literal hcontent hx.word number, hprint,
      writes_bind_print rfl rfl hname⟩

/-- The words of the literal read as code, and the name that it is bound to as a bracket. -/
theorem runLines_of_literal_bracket :
    '"' ∉ " fn ;call\\n 12 P9".toList ∧ Word.IsLookedUp "\x7d" ∧
      ∃ line line', Line.read 1 "let \x7d , \" fn ;call\\n 12 P9\"" = ⟨[], 0, .ok line⟩ ∧
        Line.read 2 "prnt \x7d" = ⟨[], 0, .ok line'⟩ ∧
        ∀ level call m, (runLines level call [line, line'] m).output = "fn ;call\n 12 P9" := by
  have hcontent : '"' ∉ " fn ;call\\n 12 P9".toList := by decide
  have hname : Word.IsLookedUp "\x7d" := by constructor <;> decide
  obtain ⟨line, line', hread, hread', hrun⟩ := (runLines_of_literal hcontent).2 "\x7d" hname 1 2
  have hvalue : literalValue (Word.split " fn ;call\\n 12 P9") = "fn ;call\n 12 P9" := by decide
  refine ⟨hcontent, hname, line, line', hread, hread', fun level call m => ?_⟩
  rw [(hrun level call m).output, hvalue]

end LineAssembly
