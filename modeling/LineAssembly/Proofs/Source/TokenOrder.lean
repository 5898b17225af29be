import LineAssembly.Proofs.Number.Decimal
import LineAssembly.Source.Item

/-! The order of tokens on a line. The mode that reading is in admits certain tokens next, and a
token decides the mode that follows it. So a name of a routine stands right behind `call` or `fn`,
and what reads `fn` anywhere else is a literal. -/
namespace LineAssembly

/-- The tokens among items. -/
def Item.tokens (items : List Item) : List Token := items.filterMap Item.token?

namespace Item

@[simp] theorem tokens_append (xs ys : List Item) : tokens (xs ++ ys) = tokens xs ++ tokens ys :=
  List.filterMap_append

@[simp] theorem tokens_cons_token (t : Token) (items : List Item) :
    tokens (.token t :: items) = t :: tokens items := rfl

end Item

namespace Word

def Class.Describes : Class → String → Prop
  | .opcode, text => text ∈ opcodes
  | .call, text => text = "call"
  | .bracket, text => text ∈ brackets
  | .fn, text => text = "fn"
  | .binding, text => text = "let"
  | .quote, text => text = "\""
  | .accumulator, text => text = "A"
  | .stack, text => text = "Stack"
  | .comma, text => text = ","
  | .newline, text => text = "nl"
  | .port, text => text.toList.head? = some 'P'
  | .comment, text => text.toList.head? = some ';'
  | .label, text => text.toList.getLast? = some ':'
  | .numeral, text => Decimal.isNumeral text.toList = true
  | .other, _ => True

theorem describes_classOf (text : String) : (classOf text).Describes text := by
  unfold classOf
  -- each test of the chain is what its class says
  iterate 14 refine iteInduction (motive := (Class.Describes · text)) (fun h => h) fun _ => ?_
  trivial

/-- Only `fn` itself is in the class of `fn`, so a word of another class reads differently. -/
theorem ne_fn_of_classOf {text : String} (h : classOf text ≠ .fn) : text ≠ "fn" := by
  rintro rfl
  exact h (by decide)

theorem ne_call_of_classOf {text : String} (h : classOf text ≠ .call) : text ≠ "call" := by
  rintro rfl
  exact h (by decide)

end Word

/-- A token between statements. It is no name, it reads `fn` only as the keyword or as a literal,
and a number keeps the digit limit. -/
structure Token.IsPlain (t : Token) : Prop where
  not_routineName : t.kind ≠ .routineName
  not_variableName : t.kind ≠ .variableName
  reads_fn : t.value = "fn" → t.kind = .keyword ∨ t.kind = .string
  number_fits : ∀ n, t.kind = .number n → Decimal.fits n = true

/-- A token whose number, if it has one, is what its text denotes. -/
def Token.Denotes (t : Token) : Prop :=
  ∀ n, t.kind = .number n →
    Decimal.isNumeral t.value.toList = true ∧
      ∃ k : Nat, Decimal.read t.value.toList = .ok k ∧ n = k

/-- A token whose place, if it has one, has the name in front of the colon that ends its text. -/
def Token.Marks (t : Token) : Prop :=
  ∀ place, t.kind = .label place → ∃ name, place.name = .string name ∧ t.value = name ++ ":"

/-- A token that a word between statements gives by itself. -/
structure Token.Stands (t : Token) : Prop where
  isPlain : t.IsPlain
  not_string : t.kind ≠ .string
  not_comment : t.kind ≠ .comment
  denotes : t.Denotes
  marks : t.Marks

namespace Token

def isCall (t : Token) : Bool := t.kind = .opcode && t.value = "call"

def isFn (t : Token) : Bool := t.kind = .keyword && t.value = "fn"

def isLet (t : Token) : Bool := t.kind = .keyword && t.value = "let"

/-- A token that takes the next word as a name, whatever it is. -/
def takesName (t : Token) : Bool := t.isCall || t.isFn || t.isLet

end Token

namespace Mode

/-- The mode that a token leaves behind. -/
def after (t : Token) : Mode :=
  match t.kind with
  | .opcode => if t.value = "call" then .afterCall else .plain true
  | .keyword =>
    if t.value = "fn" then .afterFn else if t.value = "let" then .afterLet else .plain true
  | _ => .plain true

theorem after_eq (t : Token) :
    after t = if t.isCall then .afterCall else if t.isFn then .afterFn
      else if t.isLet then .afterLet else .plain true := by
  unfold after Token.isCall Token.isFn Token.isLet
  cases t.kind <;> simp

/-- All that a word can do: what it yields in a mode, and the mode that it leads to. -/
inductive Yields (number : Int) : Mode → Word → List Item × Mode → Prop where
  | token {started : Bool} {w : Word} {t : Token} (stands : t.Stands) (value : t.value = w.text)
      (generic : t.kind = .generic → started = true) :
      Yields number (.plain started) w ([.token t], after t)
  | dropped {w : Word} : Yields number (.plain false) w ([.dropped w], .plain false)
  | overlong {started : Bool} {w : Word} (excess : Decimal.TooLong) :
      Yields number (.plain started) w ([.overlong excess], .plain started)
  | quote {started : Bool} {w : Word} (text : w.text = "\"") :
      Yields number (.plain started) w ([], .inString w.column [])
  | literalPart {column : Nat} {parts : List String} {w : Word} (text : w.text ≠ "\"") :
      Yields number (.inString column parts) w ([], .inString column (parts ++ [w.text]))
  | literal {column : Nat} {parts : List String} {w : Word} (text : w.text = "\"") :
      Yields number (.inString column parts) w
        ([.token ⟨.string, literalValue parts, column⟩], .plain true)
  | comment {started : Bool} {w : Word} (mark : w.text.toList.head? = some ';') :
      Yields number (.plain started) w ([], .inComment [w.text])
  | commentPart {parts : List String} {w : Word} :
      Yields number (.inComment parts) w ([], .inComment (parts ++ [w.text]))
  | routineName {mode : Mode} {w : Word} (awaits : mode = .afterCall ∨ mode = .afterFn) :
      Yields number mode w ([tokenOf .routineName w], .plain true)
  | nameless {w : Word} (text : w.text = "\x7b") :
      Yields number .afterFn w ([.nameless, tokenOf .bracket w], .plain true)
  | variableName {w : Word} : Yields number .afterLet w ([tokenOf .variableName w], .plain true)

def isBare : Token.Kind → Bool
  | .routineName | .variableName | .number _ => false
  | _ => true

theorem isPlain_of_isBare {t : Token} (hk : isBare t.kind = true)
    (hf : t.value = "fn" → t.kind = .keyword ∨ t.kind = .string) : t.IsPlain where
  not_routineName h := by simp [h, isBare] at hk
  not_variableName h := by simp [h, isBare] at hk
  reads_fn := hf
  number_fits n h := by simp [h, isBare] at hk

theorem isPlain_of_string {t : Token} (h : t.kind = .string) : t.IsPlain := by
  constructor <;> simp [h]

def isSimple : Token.Kind → Bool
  | .label _ | .string | .comment => false
  | kind => isBare kind

theorem stands_of_isSimple {t : Token} (hk : isSimple t.kind = true)
    (hf : t.value = "fn" → t.kind = .keyword ∨ t.kind = .string) : t.Stands where
  isPlain := by
    refine isPlain_of_isBare ?_ hf
    cases h : t.kind <;> simp_all [isSimple, isBare]
  not_string h := by simp [h, isSimple] at hk
  not_comment h := by simp [h, isSimple] at hk
  denotes n h := by simp [h, isSimple, isBare] at hk
  marks place h := by simp [h, isSimple] at hk

theorem stands_numeral {w : Word} {n : Nat} (hc : Word.classOf w.text = .numeral)
    (hr : Decimal.read w.text.toList = .ok n) : Token.Stands ⟨.number n, w.text, w.column⟩ := by
  have hnumeral : Decimal.isNumeral w.text.toList = true := by
    have hd := Word.describes_classOf w.text
    rwa [hc] at hd
  have hne : w.text ≠ "fn" := Word.ne_fn_of_classOf (by simp [hc])
  refine ⟨⟨by simp, by simp, fun h => absurd h hne, ?_⟩, by simp, by simp, ?_,
    by simp [Token.Marks]⟩
  · simpa using Decimal.fits_of_read hnumeral hr
  · rintro _ ⟨⟩
    exact ⟨hnumeral, n, hr, rfl⟩

theorem stands_label (number : Int) {w : Word} (hc : Word.classOf w.text = .label) :
    Token.Stands ⟨.label ⟨.string (String.ofList w.text.toList.dropLast), number⟩, w.text,
      w.column⟩ := by
  have hlast : w.text.toList.getLast? = some ':' := by
    have hd := Word.describes_classOf w.text
    rwa [hc] at hd
  have hne : w.text ≠ "fn" := Word.ne_fn_of_classOf (by simp [hc])
  have htext : w.text = String.ofList w.text.toList.dropLast ++ ":" := by
    obtain ⟨name, hname⟩ := List.getLast?_eq_some_iff.mp hlast
    apply String.toList_injective
    simp [hname]
  refine ⟨isPlain_of_isBare rfl (fun h => absurd h hne), by simp, by simp,
    by simp [Token.Denotes], ?_⟩
  rintro _ ⟨⟩
  exact ⟨_, rfl, htext⟩

theorem yields_plainStep (number : Int) (started : Bool) (w : Word) :
    Yields number (.plain started) w (plainStep number started w) := by
  have hd := Word.describes_classOf w.text
  unfold plainStep
  generalize hc : Word.classOf w.text = c at hd
  have simple (kind : Token.Kind) (hk : isSimple kind = true) (hcf : c ≠ .fn)
      (hgeneric : kind = .generic → started = true) :
      Yields number (.plain started) w ([tokenOf kind w], after ⟨kind, w.text, w.column⟩) := by
    have hne : w.text ≠ "fn" := Word.ne_fn_of_classOf (by rwa [hc])
    exact .token (stands_of_isSimple hk fun h => absurd h hne) rfl hgeneric
  cases c with
  | opcode =>
    have hne : w.text ≠ "call" := Word.ne_call_of_classOf (by simp [hc])
    have ha : after ⟨.opcode, w.text, w.column⟩ = .plain true := by simp [after, hne]
    exact ha ▸ simple .opcode rfl (by decide) (by simp)
  | call =>
    have ha : after ⟨.opcode, w.text, w.column⟩ = .afterCall := by
      simp [after, show w.text = "call" from hd]
    exact ha ▸ simple .opcode rfl (by decide) (by simp)
  | fn =>
    have ha : after ⟨.keyword, w.text, w.column⟩ = .afterFn := by
      simp [after, show w.text = "fn" from hd]
    have hstands : Token.Stands ⟨.keyword, w.text, w.column⟩ :=
      stands_of_isSimple rfl fun _ => Or.inl rfl
    exact ha ▸ .token hstands rfl (by simp)
  | binding =>
    have ha : after ⟨.keyword, w.text, w.column⟩ = .afterLet := by
      simp [after, show w.text = "let" from hd]
    exact ha ▸ simple .keyword rfl (by decide) (by simp)
  | numeral =>
    cases hr : Decimal.read w.text.toList with
    | error excess => exact .overlong excess
    | ok n => exact .token (stands_numeral hc hr) rfl (by simp)
  | other =>
    cases started with
    | false => exact .dropped
    | true => exact simple .generic rfl (by decide) (by simp)
  | label => exact .token (stands_label number hc) rfl (by simp)
  | quote => exact .quote hd
  | comment => exact .comment hd
  | bracket => exact simple .bracket rfl (by decide) (by simp)
  | accumulator => exact simple .accumulator rfl (by decide) (by simp)
  | stack => exact simple .stack rfl (by decide) (by simp)
  | comma => exact simple .comma rfl (by decide) (by simp)
  | newline => exact simple .newline rfl (by decide) (by simp)
  | port => exact simple .port rfl (by decide) (by simp)

theorem yields_step (number : Int) (mode : Mode) (w : Word) :
    Yields number mode w (mode.step number w) := by
  cases mode with
  | plain started => exact yields_plainStep number started w
  | afterCall => exact .routineName (Or.inl rfl)
  | afterFn =>
    simp only [step]
    split
    · rename_i hw
      have hc : Word.classOf w.text = .bracket := by rw [hw]; decide
      simp only [plainStep, hc]
      exact .nameless hw
    · exact .routineName (Or.inr rfl)
  | afterLet => exact .variableName
  | inString column parts =>
    simp only [step]
    split
    · rename_i hw
      exact .literal hw
    · rename_i hw
      exact .literalPart hw
  | inComment parts => exact .commentPart

/-- The tokens that a mode can yield next. -/
def Admits : Mode → Token → Prop
  | .plain _, t => t.IsPlain
  | .afterCall, t => t.kind = .routineName
  | .afterFn, t => t.kind = .routineName ∨ t.kind = .bracket
  | .afterLet, t => t.kind = .variableName
  | .inString _ _, t => t.kind = .string
  | .inComment _, _ => False

/-- What a word does to the tokens: it yields none and the mode goes on to admit no more than it
did, or it yields one that the mode admits. -/
def Advances (mode : Mode) (out : List Item × Mode) : Prop :=
  (Item.tokens out.1 = [] ∧ ∀ t, out.2.Admits t → mode.Admits t) ∨
    ∃ t, Item.tokens out.1 = [t] ∧ mode.Admits t ∧ out.2 = after t

theorem Yields.advances {number : Int} {mode : Mode} {w : Word} {out : List Item × Mode}
    (h : Yields number mode w out) : mode.Advances out := by
  cases h with
  | token stands => exact Or.inr ⟨_, rfl, stands.isPlain, rfl⟩
  | dropped | overlong | literalPart | commentPart => exact Or.inl ⟨rfl, fun t h => h⟩
  | quote => exact Or.inl ⟨rfl, fun t => isPlain_of_string⟩
  | comment => exact Or.inl ⟨rfl, fun t h => h.elim⟩
  | literal => exact Or.inr ⟨_, rfl, rfl, rfl⟩
  | routineName awaits =>
    rcases awaits with rfl | rfl
    · exact Or.inr ⟨_, rfl, rfl, rfl⟩
    · exact Or.inr ⟨_, rfl, Or.inl rfl, rfl⟩
  | nameless => exact Or.inr ⟨_, rfl, Or.inr rfl, rfl⟩
  | variableName => exact Or.inr ⟨_, rfl, rfl, rfl⟩

theorem advances_step (number : Int) (mode : Mode) (w : Word) :
    mode.Advances (mode.step number w) :=
  (yields_step number mode w).advances

end Mode

/-- The first token of a line and what follows it: the mode admits the token, and the rest is read
in the mode that the token leaves behind. -/
theorem exists_of_tokens_classify {number : Int} {mode : Mode} {ws : List Word} {t : Token}
    {ts : List Token} (h : Item.tokens (classify number mode ws) = t :: ts) :
    mode.Admits t ∧ ∃ items rest,
      classify number mode ws = items ++ classify number (Mode.after t) rest ∧
        ts = Item.tokens (classify number (Mode.after t) rest) := by
  induction ws generalizing mode with
  | nil =>
    cases mode with
    | inString column parts =>
      cases h
      exact ⟨rfl, [.unterminated, .token ⟨.string, literalValue parts, column⟩], [], rfl, rfl⟩
    | _ => cases h
  | cons w ws ih =>
    simp only [classify, Item.tokens_append] at h
    obtain ⟨hnone, hmode⟩ | ⟨u, hone, hu, hafter⟩ := Mode.advances_step number mode w
    · rw [hnone, List.nil_append] at h
      obtain ⟨ht, items, rest, hitems, hts⟩ := ih h
      refine ⟨hmode t ht, (mode.step number w).1 ++ items, rest, ?_, hts⟩
      rw [classify, hitems, List.append_assoc]
    · rw [hone, List.singleton_append, List.cons.injEq] at h
      obtain ⟨rfl, rfl⟩ := h
      exact ⟨hu, (mode.step number w).1, ws, by rw [classify, hafter], by rw [hafter]⟩

theorem exists_admits_of_mem_tokens {number : Int} {mode : Mode} {ws : List Word} {t : Token}
    (h : t ∈ Item.tokens (classify number mode ws)) : ∃ mode : Mode, mode.Admits t := by
  generalize hts : Item.tokens (classify number mode ws) = ts at h
  induction ts generalizing mode ws with
  | nil => cases h
  | cons u ts ih =>
    obtain ⟨hu, items, rest, -, hrest⟩ := exists_of_tokens_classify hts
    rcases List.mem_cons.mp h with rfl | h
    · exact ⟨mode, hu⟩
    · exact ih hrest.symm h

/-- What can be said of every token of a line. -/
inductive Token.Shaped (t : Token) : Prop where
  | stands (h : t.Stands)
  | literal (kind : t.kind = .string)
  | name (kind : t.kind = .routineName ∨ t.kind = .variableName)

namespace Token.Shaped

variable {t : Token}

theorem not_comment (h : t.Shaped) : t.kind ≠ .comment := by
  rcases h with h | hk | hk | hk
  · exact h.not_comment
  all_goals simp [hk]

theorem denotes (h : t.Shaped) : t.Denotes := by
  rcases h with h | hk | hk | hk
  · exact h.denotes
  all_goals simp [Denotes, hk]

theorem marks (h : t.Shaped) : t.Marks := by
  rcases h with h | hk | hk | hk
  · exact h.marks
  all_goals simp [Marks, hk]

end Token.Shaped

theorem Mode.Yields.shaped {number : Int} {mode : Mode} {w : Word} {out : List Item × Mode}
    (h : Yields number mode w out) {t : Token} (ht : t ∈ Item.tokens out.1) : t.Shaped := by
  cases h with
  | token stands => exact .stands (List.mem_singleton.mp ht ▸ stands)
  | literal => exact .literal (List.mem_singleton.mp ht ▸ rfl)
  | routineName => exact .name (Or.inl (List.mem_singleton.mp ht ▸ rfl))
  | variableName => exact .name (Or.inr (List.mem_singleton.mp ht ▸ rfl))
  | nameless text =>
    obtain rfl := List.mem_singleton.mp ht
    have hne : w.text ≠ "fn" := by rw [text]; decide
    exact .stands (stands_of_isSimple rfl fun h => absurd h hne)
  | dropped | overlong | quote | literalPart | comment | commentPart => cases ht

theorem shaped_of_mem_tokens {number : Int} {mode : Mode} {ws : List Word} {t : Token}
    (h : t ∈ Item.tokens (classify number mode ws)) : t.Shaped := by
  induction ws generalizing mode with
  | nil =>
    cases mode with
    | inString column parts => exact .literal (List.mem_singleton.mp h ▸ rfl)
    | _ => cases h
  | cons w ws ih =>
    rw [classify, Item.tokens_append] at h
    rcases List.mem_append.mp h with h | h
    · exact (Mode.yields_step number mode w).shaped h
    · exact ih h

theorem denotes_of_mem_tokens {number : Int} {mode : Mode} {ws : List Word} {t : Token}
    (h : t ∈ Item.tokens (classify number mode ws)) : t.Denotes :=
  (shaped_of_mem_tokens h).denotes

theorem exists_name_of_afterFn {number : Int} {ws : List Word}
    (h : ∀ i ∈ classify number .afterFn ws, i.isError = false) :
    ∃ name ts, Item.tokens (classify number .afterFn ws) = name :: ts ∧
      name.kind = .routineName := by
  cases ws with
  | nil => simpa [Item.isError] using h .nameless (by simp [classify, Mode.finish])
  | cons w ws =>
    by_cases hw : w.text = "\x7b"
    · simpa [Item.isError] using h .nameless (by simp [classify, Mode.step, hw])
    · exact ⟨⟨.routineName, w.text, w.column⟩, Item.tokens (classify number (.plain true) ws),
        by simp [classify, Mode.step, hw, Mode.tokenOf], rfl⟩

end LineAssembly
