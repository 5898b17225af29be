import LineAssembly.Proofs.Source.Listing
import LineAssembly.Proofs.Source.Tidy

/-! Spelling. The words of a line are those that were dropped, then those that spell its tokens,
then those of its comment, and each of them is in one of these places. The errors of the line can
be counted there too. -/
namespace LineAssembly

namespace Token

/-- Tokens with the words that spell them, and whether all literals are closed. A literal is spelled
by its quotes and the words between them, and any other token by the one word that it reads. Only
the last token may be a literal without its closing quote. -/
inductive Spelled : List Token → List String → Bool → Prop where
  | nil : Spelled [] [] true
  | word {t : Token} {ts : List Token} {ws : List String} {closed : Bool} (kind : t.kind ≠ .string)
      (rest : Spelled ts ws closed) : Spelled (t :: ts) (t.value :: ws) closed
  | literal {t : Token} {ts : List Token} {parts ws : List String} {closed : Bool}
      (kind : t.kind = .string) (quoteFree : ∀ w ∈ parts, '"' ∉ w.toList)
      (value : t.value = literalValue parts) (rest : Spelled ts ws closed) :
      Spelled (t :: ts) ("\"" :: parts ++ "\"" :: ws) closed
  | unclosed {t : Token} {parts : List String} (kind : t.kind = .string)
      (quoteFree : ∀ w ∈ parts, '"' ∉ w.toList) (value : t.value = literalValue parts) :
      Spelled [t] ("\"" :: parts) false

def startWithName (ts : List Token) : Bool := ts.head?.any fun t => t.kind = .routineName

/-- How many of the tokens that take the name of a routine have none right behind them. -/
def nameless (takes : Token → Bool) : List Token → Nat
  | [] => 0
  | t :: ts => (if takes t && !startWithName ts then 1 else 0) + nameless takes ts

end Token

def Item.dropped? : Item → Option String
  | .dropped w => some w.text
  | _ => none

theorem Word.IsWord.quote_not_mem {cs : List Char} (h : IsWord cs) (hne : cs ≠ ['"']) :
    '"' ∉ cs := by
  intro hmem
  cases h with
  | delimiter hblank hdelimiter =>
    rw [List.mem_singleton.mp hmem] at hne
    exact hne rfl
  | run _ hletters =>
    have hdelimiter : isDelimiter '"' = true := by decide
    rw [(hletters '"' hmem).2] at hdelimiter
    cases hdelimiter

namespace Mode

/-- The words that a mode has taken and that are not yet in a token or a comment. -/
def pending : Mode → List String
  | .inString _ parts => "\"" :: parts
  | .inComment parts => parts
  | _ => []

/-- What a mode has gathered is as it should be: between quotes there is none, and a comment begins
with its mark. -/
def Sound : Mode → Prop
  | .inString _ parts => ∀ w ∈ parts, '"' ∉ w.toList
  | .inComment parts => ∃ w ws, parts = w :: ws ∧ w.toList.head? = some ';'
  | _ => True

/-- The errors that a mode still owes for want of a name, if these tokens come next. -/
def owed (mode : Mode) (ts : List Token) : Nat :=
  match mode with
  | .afterCall | .afterFn => if Token.startWithName ts then 0 else 1
  | _ => 0

theorem after_cases (t : Token) :
    after t = .afterCall ∨ after t = .afterFn ∨ after t = .afterLet ∨ after t = .plain true := by
  rw [after_eq]
  by_cases hcall : t.isCall = true
  · simp [hcall]
  · by_cases hfn : t.isFn = true
    · simp [hcall, hfn]
    · by_cases hlet : t.isLet = true <;> simp [hcall, hfn, hlet]

theorem Yields.sound {number : Int} {mode : Mode} {w : Word} {out : List Item × Mode}
    (h : Yields number mode w out) (hw : Word.IsWord w.text.toList) (hmode : mode.Sound) :
    out.2.Sound := by
  cases h with
  | @token _ _ t =>
    rcases after_cases t with h | h | h | h
    all_goals rw [h]; trivial
  | quote => simp [Sound]
  | literalPart text =>
    have hchars : w.text.toList ≠ ['"'] := by
      intro h
      exact text (String.toList_injective h)
    intro v hv
    rcases List.mem_append.mp hv with hv | hv
    · exact hmode v hv
    · rw [List.mem_singleton.mp hv]
      exact hw.quote_not_mem hchars
  | comment mark => exact ⟨w.text, [], rfl, mark⟩
  | commentPart =>
    obtain ⟨v, vs, rfl, hv⟩ := hmode
    exact ⟨v, vs ++ [w.text], rfl, hv⟩
  | _ => trivial

end Mode

theorem Token.nameless_cons (t : Token) (ts : List Token) :
    nameless isCall (t :: ts) + nameless isFn (t :: ts) =
      (Mode.after t).owed ts + (nameless isCall ts + nameless isFn ts) := by
  have hcount (b : Bool) : (if !b then 1 else 0) = if b then 0 else 1 := by cases b <;> rfl
  rw [Mode.after_eq]
  by_cases hcall : t.isCall = true
  · have hkind : t.kind = .opcode := by
      simp only [isCall, Bool.and_eq_true, decide_eq_true_eq] at hcall
      exact hcall.1
    have hfn : t.isFn = false := by simp [isFn, hkind]
    simp only [nameless, hcall, hfn, Bool.true_and, Bool.false_and, hcount, if_true, Mode.owed]
    simp only [Bool.false_eq_true, if_false]
    omega
  · have hcall : t.isCall = false := by simpa using hcall
    by_cases hfn : t.isFn = true
    · simp only [nameless, hcall, hfn, Bool.true_and, Bool.false_and, hcount, if_true, Mode.owed]
      simp only [Bool.false_eq_true, if_false]
      omega
    · have hfn : t.isFn = false := by simpa using hfn
      by_cases hlet : t.isLet = true <;> simp [nameless, hcall, hfn, hlet, Mode.owed]

/-- The words of a line, told apart. -/
structure Account where
  dropped : List String := []
  spelled : List String := []
  comment : List String := []
  closed : Bool := true

/-- An account of the words that were pending in a mode and those that follow, for the items that
they yield. -/
structure Account.Covers (a : Account) (mode : Mode) (words : List String) (items : List Item) :
    Prop where
  words : mode.pending ++ words = a.dropped ++ a.spelled ++ a.comment
  dropped : items.filterMap Item.dropped? = a.dropped
  early : mode ≠ .plain false → a.dropped = []
  spelled : Token.Spelled (Item.tokens items) a.spelled a.closed
  unclosed : a.closed = false → a.comment = []
  mark : ∀ w ∈ a.comment.head?, w.toList.head? = some ';'
  comment : items.findSome? Item.comment? =
    if a.comment.isEmpty then none else some (commentText a.comment)
  errors : items.countP Item.isError = a.dropped.length + mode.owed (Item.tokens items) +
    (Token.nameless Token.isCall (Item.tokens items) +
      Token.nameless Token.isFn (Item.tokens items)) + if a.closed then 0 else 1

namespace Account

variable {a : Account} {mode next : Mode} {words : List String} {items : List Item}

theorem covers_nil (hpending : mode.pending = []) (herrors : mode.owed [] = 0) :
    Covers {} mode [] [] where
  words := by simp [hpending]
  dropped := rfl
  early _ := rfl
  spelled := .nil
  unclosed h := by cases h
  mark := by simp
  comment := rfl
  errors := by simp [Item.tokens, herrors, Token.nameless]

theorem exists_covers_finish (hmode : mode.Sound) :
    ∃ a : Account, a.Covers mode [] mode.finish := by
  cases mode with
  | plain started => exact ⟨{}, covers_nil rfl rfl⟩
  | afterLet => exact ⟨{}, covers_nil rfl rfl⟩
  | afterCall | afterFn => exact ⟨{}, rfl, rfl, fun _ => rfl, .nil, by simp, by simp, rfl, rfl⟩
  | inString column parts =>
    refine ⟨{ spelled := "\"" :: parts, closed := false }, ?_, rfl, fun _ => rfl,
      .unclosed rfl hmode rfl, fun _ => rfl, by simp, rfl, rfl⟩
    simp [Mode.pending]
  | inComment parts =>
    obtain ⟨w, ws, rfl, hw⟩ := hmode
    refine ⟨{ comment := w :: ws }, ?_, rfl, fun _ => rfl, .nil, by simp, ?_, rfl, rfl⟩
    · simp [Mode.pending]
    · simpa using hw

theorem Covers.take (h : a.Covers next words items) {w : String}
    (hpending : next.pending = mode.pending ++ [w]) (hnext : next ≠ .plain false)
    (howed : ∀ ts, mode.owed ts = next.owed ts) : a.Covers mode (w :: words) items where
  words := by
    have hwords := h.words
    rw [hpending] at hwords
    simpa using hwords
  dropped := h.dropped
  early _ := h.early hnext
  spelled := h.spelled
  unclosed := h.unclosed
  mark := h.mark
  comment := h.comment
  errors := by rw [howed]; exact h.errors

theorem Covers.drop (h : a.Covers (.plain false) words items) (w : Word) :
    Covers { a with dropped := w.text :: a.dropped } (.plain false) (w.text :: words)
      (.dropped w :: items) where
  words := by
    have hwords := h.words
    simpa [Mode.pending] using hwords
  dropped := by
    have hdropped := h.dropped
    simpa [Item.dropped?] using hdropped
  early hne := absurd rfl hne
  spelled := h.spelled
  unclosed := h.unclosed
  mark := h.mark
  comment := h.comment
  errors := by
    have herrors := h.errors
    have htokens : Item.tokens (.dropped w :: items) = Item.tokens items := rfl
    rw [htokens, List.countP_cons_of_pos (by rfl), herrors]
    simp only [List.length_cons]
    omega

theorem Covers.token (h : a.Covers next words items) {t : Token} {w : String}
    (hpending : next.pending = []) (hnext : next ≠ .plain false)
    (howed : ∀ ts, next.owed ts = (Mode.after t).owed ts)
    (hname : mode.owed (t :: Item.tokens items) = 0)
    (hspelled : ∀ ts ws closed, Token.Spelled ts ws closed →
      Token.Spelled (t :: ts) (mode.pending ++ w :: ws) closed) :
    Covers { a with spelled := mode.pending ++ w :: a.spelled } mode (w :: words)
      (.token t :: items) where
  words := by
    have hwords := h.words
    rw [hpending, h.early hnext] at hwords
    simp only [List.nil_append] at hwords
    simp [h.early hnext, hwords]
  dropped := h.dropped
  early _ := h.early hnext
  spelled := hspelled _ _ _ h.spelled
  unclosed := h.unclosed
  mark := h.mark
  comment := h.comment
  errors := by
    have herrors := h.errors
    rw [Item.tokens_cons_token, Token.nameless_cons,
      List.countP_cons_of_neg (by simp [Item.isError]), herrors, howed, hname]
    dsimp only
    omega

theorem Covers.lack (h : a.Covers (.plain true) words items)
    (hname : Token.startWithName (Item.tokens items) = false) :
    a.Covers .afterFn words (.nameless :: items) where
  words := h.words
  dropped := h.dropped
  early _ := h.early (by simp)
  spelled := h.spelled
  unclosed := h.unclosed
  mark := h.mark
  comment := h.comment
  errors := by
    have herrors := h.errors
    have htokens : Item.tokens (.nameless :: items) = Item.tokens items := rfl
    have howed : Mode.owed .afterFn (Item.tokens items) = 1 := by simp [Mode.owed, hname]
    have hnone : Mode.owed (.plain true) (Item.tokens items) = 0 := rfl
    rw [htokens, howed, List.countP_cons_of_pos (by rfl), herrors, hnone]
    omega

/-- The account of what a word yields, from one of what follows it. -/
theorem exists_covers_step {number : Int} {w : Word} {out : List Item × Mode}
    (hout : Mode.Yields number mode w out) (hmode : mode.Sound)
    (hlong : ∀ i ∈ out.1, i.overlong? = none) (h : a.Covers out.2 words items) :
    ∃ b : Account, b.Covers mode (w.text :: words) (out.1 ++ items) := by
  cases hout with
  | @token _ _ t stands value =>
    have hafter : (Mode.after t).pending = [] ∧ Mode.after t ≠ .plain false := by
      rcases Mode.after_cases t with ha | ha | ha | ha
      all_goals simp [ha, Mode.pending]
    refine ⟨_, h.token hafter.1 hafter.2 (fun _ => rfl) rfl ?_⟩
    intro ts ws closed hrest
    rw [← value]
    exact .word stands.not_string hrest
  | dropped => exact ⟨_, h.drop w⟩
  | overlong excess =>
    have hnone := hlong (.overlong excess) (by simp)
    cases hnone
  | quote text =>
    refine ⟨a, h.take ?_ (by simp) fun _ => rfl⟩
    rw [text]
    rfl
  | literalPart => exact ⟨a, h.take rfl (by simp) fun _ => rfl⟩
  | literal text =>
    refine ⟨_, h.token rfl (by simp) (fun _ => rfl) rfl ?_⟩
    intro ts ws closed hrest
    rw [text]
    exact .literal rfl hmode rfl hrest
  | comment => exact ⟨a, h.take rfl (by simp) fun _ => rfl⟩
  | commentPart => exact ⟨a, h.take rfl (by simp) fun _ => rfl⟩
  | routineName awaits =>
    have hmode : mode.pending = [] ∧
        ∀ ts, mode.owed (⟨.routineName, w.text, w.column⟩ :: ts) = 0 := by
      rcases awaits with rfl | rfl
      all_goals exact ⟨rfl, fun _ => rfl⟩
    refine ⟨_, h.token rfl (by simp) (fun _ => rfl) (hmode.2 _) ?_⟩
    intro ts ws closed hrest
    rw [hmode.1]
    exact .word (by simp) hrest
  | nameless =>
    refine ⟨_, Covers.lack (h.token rfl (by simp) (fun _ => rfl) rfl ?_) rfl⟩
    intro ts ws closed hrest
    exact .word (by simp) hrest
  | variableName =>
    refine ⟨_, h.token rfl (by simp) (fun _ => rfl) rfl ?_⟩
    intro ts ws closed hrest
    exact .word (by simp) hrest

theorem exists_covers_classify {number : Int} {ws : List Word} (hmode : mode.Sound)
    (hws : ∀ w ∈ ws, Word.IsWord w.text.toList)
    (hlong : ∀ i ∈ classify number mode ws, i.overlong? = none) :
    ∃ a : Account, a.Covers mode (ws.map Word.text) (classify number mode ws) := by
  induction ws generalizing mode with
  | nil => exact exists_covers_finish hmode
  | cons w ws ih =>
    have hstep := Mode.yields_step number mode w
    have hsound := hstep.sound (hws w (by simp)) hmode
    simp only [classify, List.mem_append] at hlong
    obtain ⟨a, ha⟩ := ih hsound (fun v hv => hws v (by simp [hv])) fun i hi => hlong i (.inr hi)
    exact exists_covers_step hstep hmode (fun i hi => hlong i (.inl hi)) ha

end Account

/-- The note that a dropped word is reported with. -/
def Message.unexpected (word : String) : Message :=
  .note .lexer ("unexpected word `" ++ word ++ "`")

theorem Item.notes_eq (number : Int) (items : List Item) :
    (items.flatMap (Item.messages number)).filter (fun m => m.category = .lexer) =
      (items.filterMap Item.dropped?).map Message.unexpected := by
  induction items with
  | nil => rfl
  | cons i items ih =>
    rw [List.flatMap_cons, List.filter_append, ih]
    cases i with
    | dropped w => rfl
    | _ => rfl

namespace Line

/-- The words of a line that was read are those that were dropped, which are noted one by one, then
those that spell its tokens, then those of its comment. Its errors are the dropped words, each
`call` and each `fn` without a name, and a literal that is not closed, behind which there is no
comment. -/
theorem words_of_read {number : Int} {raw : String} {line : Line}
    (h : (Line.read number raw).result = .ok line) :
    ∃ dropped spelled comment closed, Word.split raw = dropped ++ spelled ++ comment ∧
      (Line.read number raw).messages.filter (fun m => m.category = .lexer) =
        dropped.map Message.unexpected ∧
      Token.Spelled line.tokens spelled closed ∧
      (closed = false → comment = []) ∧
      (∀ w ∈ comment.head?, w.toList.head? = some ';') ∧
      line.comment = (if comment.isEmpty then none else some (commentText comment)) ∧
      (Line.read number raw).errors = dropped.length +
        (Token.nameless Token.isCall line.tokens + Token.nameless Token.isFn line.tokens) +
        if closed then 0 else 1 := by
  have hread := isRead_of_read h
  obtain ⟨rfl, rfl⟩ := eq_of_read h
  have hwords : ∀ w ∈ Word.scan line.source, Word.IsWord w.text.toList := by
    intro w hw
    exact (Word.isWord_of_mem_split (List.mem_map_of_mem hw)).1
  have hlong : ∀ i ∈ line.items, i.overlong? = none :=
    List.findSome?_eq_none_iff.mp hread.findSome?_overlong
  have hsound : (Mode.plain false).Sound := trivial
  obtain ⟨a, ha⟩ := Account.exists_covers_classify hsound hwords hlong
  refine ⟨a.dropped, a.spelled, a.comment, a.closed, ha.words, ?_, ?_, ha.unclosed, ha.mark, ?_, ?_⟩
  · rw [hread.messages_eq, Item.notes_eq, ← ha.dropped]
    rfl
  · rw [hread.tokens_eq]
    exact ha.spelled
  · rw [hread.comment_eq]
    exact ha.comment
  · rw [hread.errors_eq, hread.tokens_eq]
    exact ha.errors

/-- One word is dropped, a comment mark is taken for a name, `fn` has no name and the last literal
is not closed. -/
theorem words_of_read_mixed :
    ∃ dropped spelled comment closed,
      Word.split "odd call ; prnt \"a\\nb c\" fn \x7b \"x" = dropped ++ spelled ++ comment ∧
      Token.Spelled [⟨.opcode, "call", 4⟩, ⟨.routineName, ";", 9⟩, ⟨.opcode, "prnt", 11⟩,
        ⟨.string, "a\nb c", 16⟩, ⟨.keyword, "fn", 25⟩, ⟨.bracket, "\x7b", 28⟩, ⟨.string, "x", 30⟩]
        spelled closed ∧
      dropped.length + (if closed then 0 else 1) = 2 := by
  have hread : (Line.read 3 "odd call ; prnt \"a\\nb c\" fn \x7b \"x").result =
      .ok ⟨[⟨.opcode, "call", 4⟩, ⟨.routineName, ";", 9⟩, ⟨.opcode, "prnt", 11⟩,
        ⟨.string, "a\nb c", 16⟩, ⟨.keyword, "fn", 25⟩, ⟨.bracket, "\x7b", 28⟩, ⟨.string, "x", 30⟩],
        "odd call ; prnt \"a\\nb c\" fn \x7b \"x", 3, none⟩ := by decide +kernel
  have hcount : (Line.read 3 "odd call ; prnt \"a\\nb c\" fn \x7b \"x").errors = 3 := by
    decide +kernel
  obtain ⟨dropped, spelled, comment, closed, hwords, -, hspelled, -, -, -, herrors⟩ :=
    words_of_read hread
  refine ⟨dropped, spelled, comment, closed, hwords, hspelled, ?_⟩
  rw [hcount] at herrors
  simp [Token.nameless, Token.isCall, Token.isFn, Token.startWithName] at herrors
  omega

end Line
end LineAssembly
