import LineAssembly.Proofs.Source.IdleLines

/-! Comments behind code. A comment may be put behind any line without touching its tokens or its
errors, as long as the line is complete: behind `call`, `fn` or `let` the mark of the comment is
taken for the name that is still to come. -/
namespace LineAssembly

namespace Mode

def through (number : Int) (mode : Mode) : List Word → List Item × Mode
  | [] => ([], mode)
  | w :: ws =>
    let next := through number (mode.step number w).2 ws
    ((mode.step number w).1 ++ next.1, next.2)

/-- A mode in which the next word is a name. -/
def awaitsName : Mode → Bool
  | .afterCall | .afterFn | .afterLet => true
  | _ => false

theorem awaitsName_after (t : Token) : (after t).awaitsName = t.takesName := by
  rw [after_eq, Token.takesName]
  by_cases hcall : t.isCall = true
  · simp [hcall, awaitsName]
  · by_cases hfn : t.isFn = true
    · simp [hcall, hfn, awaitsName]
    · by_cases hlet : t.isLet = true <;> simp [hcall, hfn, hlet, awaitsName]

theorem Yields.awaitsName_eq {number : Int} {mode : Mode} {w : Word} {out : List Item × Mode}
    (h : Yields number mode w out) :
    out.2.awaitsName = (Item.tokens out.1).getLast?.elim mode.awaitsName Token.takesName := by
  cases h with
  | token => exact awaitsName_after _
  | _ => rfl

theorem awaitsName_through (number : Int) (mode : Mode) (ws : List Word) :
    (through number mode ws).2.awaitsName =
      (Item.tokens (through number mode ws).1).getLast?.elim mode.awaitsName Token.takesName := by
  induction ws generalizing mode with
  | nil => rfl
  | cons w ws ih =>
    have hstep := (yields_step number mode w).awaitsName_eq
    simp only [through, Item.tokens_append, List.getLast?_append]
    rw [ih]
    cases hlast : (Item.tokens (through number (mode.step number w).2 ws).1).getLast? with
    | none => simpa using hstep
    | some t => simp

end Mode

/-- Reading is compositional: the words behind are read in the mode that those before lead to. -/
theorem classify_append (number : Int) (mode : Mode) (ws us : List Word) :
    classify number mode (ws ++ us) =
      (mode.through number ws).1 ++ classify number (mode.through number ws).2 us := by
  induction ws generalizing mode with
  | nil => rfl
  | cons w ws ih =>
    rw [List.cons_append, classify, ih]
    simp [Mode.through]

theorem classify_eq_through (number : Int) (mode : Mode) (ws : List Word) :
    classify number mode ws =
      (mode.through number ws).1 ++ (mode.through number ws).2.finish := by
  have happend := classify_append number mode ws []
  rwa [List.append_nil] at happend

namespace Word

theorem exists_scanFrom_of_run {run : List Char} (hrun : run ≠ []) (column : Nat) (cs : List Char) :
    ∃ w ws, scanFrom isDelimiter column run cs = w :: ws ∧ w.text.toList.head? = run.head? := by
  have hfirst : (String.ofList run).toList.head? = run.head? := by rw [String.toList_ofList]
  induction cs generalizing column run with
  | nil => exact ⟨_, [], ofRun_of_ne_nil hrun column, hfirst⟩
  | cons c cs ih =>
    simp only [scanFrom, ofRun_of_ne_nil hrun]
    split
    · exact ⟨_, _, rfl, hfirst⟩
    split
    · exact ⟨_, _, rfl, hfirst⟩
    · have hmore : run ++ [c] ≠ [] := by simp
      obtain ⟨w, ws, hscan, hw⟩ := ih hmore (column + 1) (by simp)
      refine ⟨w, ws, hscan, ?_⟩
      rw [hw, List.head?_append_of_ne_nil _ hrun]

theorem exists_scan_append_comment (raw comment : String) :
    ∃ w ws, scan (raw ++ " ;" ++ comment) = scan raw ++ w :: ws ∧
      w.text.toList.head? = some ';' := by
  have hchars : (raw ++ " ;" ++ comment).toList = raw.toList ++ ' ' :: ';' :: comment.toList := by
    simp
  have hscan := scanFrom_append_blank isDelimiter 0 [] raw.toList (';' :: comment.toList)
    Text.isBlank_space
  have hmark : Text.isBlank ';' = false ∧ isDelimiter ';' = false := by decide
  have hrun : [';'] ≠ [] := by simp
  obtain ⟨w, ws, hwords, hw⟩ := exists_scanFrom_of_run hrun (0 + raw.toList.length + 1 + 1)
    comment.toList
  refine ⟨w, ws, ?_, hw⟩
  rw [scan, hchars, hscan, ← hwords]
  simp [scan, scanFrom, hmark.1, hmark.2]

end Word

def Item.comments (text : Option String) : List Item := text.toList.map .comment

theorem exists_of_map_eq_ok {ε α β : Type} {f : α → β} {x : Except ε α} {b : β}
    (h : x.map f = .ok b) : ∃ a, x = .ok a ∧ f a = b := by
  cases x with
  | error e => cases h
  | ok a => exact ⟨a, rfl, Except.ok.inj h⟩

namespace LineReading

theorem ofItems_append_comments (number : Int) (raw raw' : String) (items : List Item)
    (before behind : Option String) :
    (ofItems number raw (items ++ Item.comments before)).errors =
        (ofItems number raw' (items ++ Item.comments behind)).errors ∧
      (ofItems number raw (items ++ Item.comments before)).result.map Line.tokens =
        (ofItems number raw' (items ++ Item.comments behind)).result.map Line.tokens := by
  have herrors (text : Option String) :
      (Item.readable (items ++ Item.comments text)).countP Item.isError =
        (Item.readable items).countP Item.isError := by
    have hnone : (Item.readable (Item.comments text)).countP Item.isError = 0 := by
      cases text <;> rfl
    simp only [Item.readable, List.takeWhile_append]
    split
    · rename_i hlength
      have hall : items.takeWhile (fun i => i.overlong?.isNone) = items :=
        (List.takeWhile_prefix _).eq_of_length hlength
      rw [List.countP_append, hall]
      exact Nat.add_eq_left.mpr hnone
    · rfl
  have hresult (raw : String) (text : Option String) :
      (ofItems number raw (items ++ Item.comments text)).result.map Line.tokens =
        (items.findSome? Item.overlong?).elim (.ok (Item.tokens items)) .error := by
    have hlong : (Item.comments text).findSome? Item.overlong? = none := by cases text <;> rfl
    have htokens : (Item.comments text).filterMap Item.token? = [] := by cases text <;> rfl
    simp only [ofItems, List.findSome?_append, hlong, Option.or_none, List.filterMap_append,
      htokens, List.append_nil]
    cases items.findSome? Item.overlong? <;> rfl
  constructor
  · exact (herrors before).trans (herrors behind).symm
  · rw [hresult, hresult]

end LineReading

namespace Mode

variable {mode : Mode} {w : Word}

theorem tokens_finish (hclosed : .unterminated ∉ mode.finish) : Item.tokens mode.finish = [] := by
  cases mode with
  | inString column parts => simp [finish] at hclosed
  | _ => rfl

/-- Where no name is awaited and no literal is open, nothing comes of a comment but its text. -/
theorem exists_comments (hmode : mode.awaitsName = false) (hclosed : .unterminated ∉ mode.finish)
    (hw : w.text.toList.head? = some ';') (number : Int) (ws : List Word) :
    ∃ before behind, mode.finish = Item.comments before ∧
      classify number mode (w :: ws) = Item.comments behind := by
  cases mode with
  | plain started =>
    refine ⟨none, some (commentText ([w.text] ++ ws.map Word.text)), rfl, ?_⟩
    rw [classify, step, plainStep, Word.classOf_of_semicolon hw]
    exact classify_inComment number [w.text] ws
  | inComment parts =>
    exact ⟨some (commentText parts), some (commentText (parts ++ (w :: ws).map Word.text)), rfl,
      classify_inComment number parts (w :: ws)⟩
  | inString column parts => simp [finish] at hclosed
  | afterCall | afterFn | afterLet => cases hmode

theorem exists_name_of_awaitsName (hmode : mode.awaitsName = true)
    (hw : w.text.toList.head? = some ';') (number : Int) (ws : List Word) :
    ∃ name ts, Item.tokens (classify number mode (w :: ws)) = name :: ts := by
  cases mode with
  | afterCall | afterLet => exact ⟨_, _, rfl⟩
  | afterFn =>
    have hne : w.text ≠ "\x7b" := by
      intro htext
      rw [htext] at hw
      cases hw
    refine ⟨⟨.routineName, w.text, w.column⟩, Item.tokens (classify number (.plain true) ws), ?_⟩
    rw [classify, step, if_neg hne]
    rfl
  | plain started | inString column parts | inComment parts => cases hmode

end Mode

namespace Line

/-- The error that a literal without its closing quote is reported with. -/
def unterminatedError (number : Int) : Message :=
  .error ("Unterminated string literal at line " ++ Decimal.text number)

theorem IsRead.unterminated_not_mem {l : Line} (h : l.IsRead)
    (hclosed : unterminatedError l.number ∉ (Line.read l.number l.source).messages) :
    .unterminated ∉ l.items := by
  intro hmem
  apply hclosed
  rw [h.messages_eq]
  exact List.mem_flatMap.mpr ⟨.unterminated, hmem, by simp [Item.messages, unterminatedError]⟩

/-- A comment behind a line whose literals are closed leaves its tokens and the number of its errors
just if the last token takes no name. -/
theorem read_append_comment {number : Int} {raw : String} {line : Line}
    (h : (Line.read number raw).result = .ok line)
    (hclosed : unterminatedError number ∉ (Line.read number raw).messages) (comment : String) :
    (∃ commented, (Line.read number (raw ++ " ;" ++ comment)).result = .ok commented ∧
      commented.tokens = line.tokens ∧
      (Line.read number (raw ++ " ;" ++ comment)).errors = (Line.read number raw).errors) ↔
    ∀ t ∈ line.tokens.getLast?, t.takesName = false := by
  have hread := isRead_of_read h
  obtain ⟨rfl, rfl⟩ := eq_of_read h
  obtain ⟨w, ws, hscan, hw⟩ := Word.exists_scan_append_comment line.source comment
  -- the words of the line lead to a mode, in which the line ends or the comment begins
  have hplain := classify_eq_through line.number (.plain false) (Word.scan line.source)
  have hlast := Mode.awaitsName_through line.number (.plain false) (Word.scan line.source)
  have hitems := classify_append line.number (.plain false) (Word.scan line.source) (w :: ws)
  rw [← hscan, ← Item.ofLine] at hitems
  rw [← Item.ofLine, ← items] at hplain
  generalize (Mode.plain false).through line.number (Word.scan line.source) = out at *
  obtain ⟨before, mode⟩ := out
  dsimp only at hplain hlast hitems
  have hopen : .unterminated ∉ mode.finish := by
    intro hmem
    apply hread.unterminated_not_mem hclosed
    rw [hplain]
    exact List.mem_append_right before hmem
  have htokens : line.tokens = Item.tokens before := by
    rw [hread.tokens_eq, hplain, Item.tokens_append, Mode.tokens_finish hopen, List.append_nil]
  have hawaits : mode.awaitsName = false ↔ ∀ t ∈ line.tokens.getLast?, t.takesName = false := by
    rw [hlast, ← htokens]
    cases line.tokens.getLast? <;> simp [Mode.awaitsName]
  rw [← hawaits]
  constructor
  · rintro ⟨commented, hok, hsame, -⟩
    by_contra hmode
    obtain ⟨name, ts, hname⟩ := Mode.exists_name_of_awaitsName (by simpa using hmode) hw line.number
      ws
    have hmore : commented.tokens = Item.tokens before ++ name :: ts := by
      obtain ⟨hnumber, hsource⟩ := eq_of_read hok
      rw [(isRead_of_read hok).tokens_eq, Line.items, hnumber, hsource, hitems, Item.tokens_append,
        hname]
    rw [hsame, htokens] at hmore
    simp at hmore
  · intro hmode
    obtain ⟨text, text', hfinish, hcomment⟩ := Mode.exists_comments hmode hopen hw line.number ws
    obtain ⟨herrors, hresult⟩ := LineReading.ofItems_append_comments line.number line.source
      (line.source ++ " ;" ++ comment) before text text'
    rw [← hfinish, ← hcomment, ← hplain, ← hitems] at herrors hresult
    have hok : (Line.read line.number (line.source ++ " ;" ++ comment)).result.map Line.tokens =
        .ok line.tokens := by
      rw [read_eq_ofItems, ← hresult]
      exact congrArg (Except.map Line.tokens) h
    obtain ⟨commented, hcommented, hsame⟩ := exists_of_map_eq_ok hok
    exact ⟨commented, hcommented, hsame, herrors.symm⟩

/-- Quotes and keywords in the comment are of no account. -/
theorem read_append_comment_print :
    ∃ commented, (Line.read 1 ("odd prnt \"; call\" push 1" ++ " ;" ++ "fn \"call let")).result =
        .ok commented ∧
      commented.tokens = [⟨.opcode, "prnt", 4⟩, ⟨.string, "; call", 9⟩, ⟨.opcode, "push", 18⟩,
        ⟨.number 1, "1", 23⟩] := by
  have hread : (Line.read 1 "odd prnt \"; call\" push 1").result =
      .ok ⟨[⟨.opcode, "prnt", 4⟩, ⟨.string, "; call", 9⟩, ⟨.opcode, "push", 18⟩,
        ⟨.number 1, "1", 23⟩], "odd prnt \"; call\" push 1", 1, none⟩ := by decide +kernel
  have hclosed : unterminatedError 1 ∉ (Line.read 1 "odd prnt \"; call\" push 1").messages := by
    decide +kernel
  obtain ⟨commented, hok, htokens, -⟩ :=
    (read_append_comment hread hclosed "fn \"call let").mpr (by decide)
  exact ⟨commented, hok, htokens⟩

/-- The mark is taken for the name that `call` lacks, and the error for the missing name is gone. -/
theorem comment_taken_for_name :
    ∃ line commented, (Line.read 1 "call").result = .ok line ∧
      unterminatedError 1 ∉ (Line.read 1 "call").messages ∧
      (Line.read 1 ("call" ++ " ;" ++ "x")).result = .ok commented ∧
      commented.tokens ≠ line.tokens ∧ (Line.read 1 ("call" ++ " ;" ++ "x")).errors = 0 ∧
      (Line.read 1 "call").errors = 1 :=
  ⟨⟨[⟨.opcode, "call", 0⟩], "call", 1, none⟩,
    ⟨[⟨.opcode, "call", 0⟩, ⟨.routineName, ";x", 5⟩], "call ;x", 1, none⟩, by decide +kernel⟩

end Line
end LineAssembly
