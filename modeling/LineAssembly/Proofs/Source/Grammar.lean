import LineAssembly.Proofs.Source.Blocks
import LineAssembly.Proofs.Source.Listing
import Mathlib.Data.List.Chain

/-! The grammar of tokens. On every line a name stands right behind the word that takes it, and a
token carries what it reads. Of the statements behind a header, from which the brackets are left
out, the same is true. -/
namespace LineAssembly

namespace Token

/-- Neighbours on a line: behind `let` stands the name of a variable, which stands nowhere else. The
name of a routine stands behind `call` and `fn` only, and nothing else stands behind `call`. -/
structure Follows (t u : Token) : Prop where
  variableName : u.kind = .variableName ↔ t.isLet = true
  routineName : u.kind = .routineName → t.isCall = true ∨ t.isFn = true
  call : t.isCall = true → u.kind = .routineName

/-- A token that carries a number or a place just if it is one, and reads what it carries. -/
structure IsFormed (t : Token) : Prop where
  not_comment : t.kind ≠ .comment
  isSome_number? : t.number?.isSome = true ↔ t.kind.name = "Number"
  number : ∀ n, t.number? = some n →
    Decimal.isNumeral t.value.toList = true ∧ n = Decimal.value t.value.toList
  isSome_label? : t.label?.isSome = true ↔ t.kind.name = "JumpLocation"
  label : ∀ place, t.label? = some place →
    ∃ name, place.name = .string name ∧ t.value = name ++ ":"

structure Grammatical (ts : List Token) : Prop where
  head : ∀ t ∈ ts.head?, t.kind ≠ .variableName ∧ t.kind ≠ .routineName
  follows : ts.IsChain Follows
  formed : ∀ t ∈ ts, t.IsFormed

theorem Shaped.isFormed {t : Token} (h : t.Shaped) : t.IsFormed where
  not_comment := h.not_comment
  isSome_number? := by
    unfold number?
    cases t.kind <;> simp [Kind.name]
  number n hn := by
    obtain ⟨hnumeral, k, hread, rfl⟩ := h.denotes n (number?_eq_some.mp hn)
    refine ⟨hnumeral, ?_⟩
    unfold Decimal.read at hread
    split at hread
    · cases hread
      rfl
    · cases hread
  isSome_label? := by
    unfold label?
    cases t.kind <;> simp [Kind.name]
  label place hplace := h.marks place (label?_eq_some.mp hplace)

variable {t u v : Token}

theorem Follows.not_name (h : t.Follows u) (ht : t.takesName = false) :
    u.kind ≠ .variableName ∧ u.kind ≠ .routineName := by
  simp only [takesName, Bool.or_eq_false_iff] at ht
  obtain ⟨⟨hcall, hfn⟩, hlet⟩ := ht
  constructor
  · intro hu
    rw [h.variableName.mp hu] at hlet
    cases hlet
  · intro hu
    rcases h.routineName hu with ht | ht
    · rw [ht] at hcall
      cases hcall
    · rw [ht] at hfn
      cases hfn

theorem Follows.skip (h : t.Follows u) (hu : u.kind = .bracket) (hv : u.Follows v) :
    t.Follows v := by
  have hname := hv.not_name (by simp [takesName, isCall, isFn, isLet, hu])
  refine ⟨⟨fun hkind => absurd hkind hname.1, ?_⟩, fun hkind => absurd hkind hname.2, ?_⟩
  · intro hlet
    have hkind := h.variableName.mpr hlet
    simp [hu] at hkind
  · intro hcall
    have hkind := h.call hcall
    simp [hu] at hkind

theorem follows_of_admits (h : (Mode.after t).Admits u) : t.Follows u := by
  rw [Mode.after_eq] at h
  by_cases hcall : t.isCall = true
  · have hkind : t.kind = .opcode := by
      simp only [isCall, Bool.and_eq_true, decide_eq_true_eq] at hcall
      exact hcall.1
    have hlet : t.isLet = false := by simp [isLet, hkind]
    rw [if_pos hcall] at h
    have hu : u.kind = .routineName := h
    exact ⟨by simp [hu, hlet], fun _ => .inl hcall, fun _ => hu⟩
  · rw [if_neg hcall] at h
    by_cases hfn : t.isFn = true
    · have hvalue : t.value = "fn" := by
        simp only [isFn, Bool.and_eq_true, decide_eq_true_eq] at hfn
        exact hfn.2
      have hlet : t.isLet = false := by simp [isLet, hvalue]
      rw [if_pos hfn] at h
      refine ⟨?_, fun _ => .inr hfn, fun ht => absurd ht hcall⟩
      rcases h with hu | hu <;> simp [hu, hlet]
    · rw [if_neg hfn] at h
      by_cases hlet : t.isLet = true
      · rw [if_pos hlet] at h
        have hu : u.kind = .variableName := h
        exact ⟨by simp [hu, hlet], by simp [hu], fun ht => absurd ht hcall⟩
      · rw [if_neg hlet] at h
        have hu : u.IsPlain := h
        exact ⟨by simp [hu.not_variableName, hlet], fun hkind => absurd hkind hu.not_routineName,
          fun ht => absurd ht hcall⟩

theorem isChain_filter {ts : List Token} (h : (t :: ts).IsChain Follows) :
    (t :: ts.filter fun u => u.kind ≠ .bracket).IsChain Follows := by
  induction ts generalizing t with
  | nil => exact h
  | cons u ts ih =>
    obtain ⟨htu, hrest⟩ := List.isChain_cons_cons.mp h
    by_cases hu : u.kind = .bracket
    · have hskip : (t :: ts).IsChain Follows := by
        cases ts with
        | nil => exact List.isChain_singleton t
        | cons v ts =>
          obtain ⟨huv, hts⟩ := List.isChain_cons_cons.mp hrest
          exact List.isChain_cons_cons.mpr ⟨htu.skip hu huv, hts⟩
      simpa [hu] using ih hskip
    · rw [List.filter_cons_of_pos (by simpa using hu)]
      exact List.isChain_cons_cons.mpr ⟨htu, ih hrest⟩

end Token

theorem isChain_tokens_classify (number : Int) (mode : Mode) (ws : List Word) :
    (Item.tokens (classify number mode ws)).IsChain Token.Follows := by
  generalize hts : Item.tokens (classify number mode ws) = ts
  induction ts generalizing mode ws with
  | nil => exact .nil
  | cons t ts ih =>
    obtain ⟨-, items, rest, -, hrest⟩ := exists_of_tokens_classify hts
    refine List.isChain_cons.mpr ⟨?_, ih _ _ hrest.symm⟩
    intro u hu
    obtain ⟨us, rfl⟩ := List.head?_eq_some_iff.mp hu
    exact Token.follows_of_admits (exists_of_tokens_classify hrest.symm).1

namespace Mode

theorem Yields.not_generic {number : Int} {mode : Mode} {w : Word} {out : List Item × Mode}
    (h : Yields number mode w out) (hmode : mode ≠ .plain true) :
    (Item.tokens out.1 = [] ∧ out.2 ≠ .plain true) ∨
      ∃ t, Item.tokens out.1 = [t] ∧ t.kind ≠ .generic := by
  cases h with
  | @token started _ t _ _ generic =>
    refine Or.inr ⟨t, rfl, ?_⟩
    intro hkind
    rw [generic hkind] at hmode
    exact hmode rfl
  | overlong => exact Or.inl ⟨rfl, hmode⟩
  | dropped | quote | literalPart | comment | commentPart => exact Or.inl ⟨rfl, by simp⟩
  | literal | routineName | nameless | variableName => exact Or.inr ⟨_, rfl, by simp⟩

theorem head?_tokens_classify {number : Int} {mode : Mode} {ws : List Word}
    (hmode : mode ≠ .plain true) {t : Token}
    (ht : t ∈ (Item.tokens (classify number mode ws)).head?) : t.kind ≠ .generic := by
  induction ws generalizing mode with
  | nil =>
    cases mode with
    | inString column parts =>
      cases ht
      simp
    | _ => cases ht
  | cons w ws ih =>
    rw [classify, Item.tokens_append] at ht
    obtain ⟨hnone, hnext⟩ | ⟨u, hone, hu⟩ := (yields_step number mode w).not_generic hmode
    · rw [hnone, List.nil_append] at ht
      exact ih hnext ht
    · rw [hone] at ht
      cases ht
      exact hu

end Mode

namespace Line

variable {l x : Line}

theorem IsRead.grammatical (h : l.IsRead) : Token.Grammatical l.tokens := by
  have htokens := h.tokens_eq
  refine ⟨?_, ?_, ?_⟩
  · intro t ht
    obtain ⟨ts, hts⟩ := List.head?_eq_some_iff.mp ht
    have hplain : t.IsPlain := (exists_of_tokens_classify (htokens.symm.trans hts)).1
    exact ⟨hplain.not_variableName, hplain.not_routineName⟩
  · rw [htokens]
    exact isChain_tokens_classify _ _ _
  · intro t ht
    rw [htokens] at ht
    exact (shaped_of_mem_tokens ht).isFormed

theorem IsRead.head?_not_generic (h : l.IsRead) {t : Token} (ht : t ∈ l.tokens.head?) :
    t.kind ≠ .generic := by
  rw [h.tokens_eq] at ht
  exact Mode.head?_tokens_classify (by simp) ht

/-- The statements behind a header follow its closing bracket, which takes no name whatever its kind
is. -/
theorem grammatical_of_mem_inlineBody {before rest : List Token} {closing : Token}
    (hl : Token.Grammatical l.tokens) (htokens : l.tokens = before ++ closing :: rest)
    (hclosing : closing.value = ")") (hx : x ∈ Header.inlineBody l rest) :
    Token.Grammatical x.tokens := by
  have hchain : (closing :: rest).IsChain Token.Follows := by
    have hall := hl.follows
    rw [htokens] at hall
    exact hall.right_of_append
  have hkept := Token.isChain_filter hchain
  simp only [Header.inlineBody] at hx
  split at hx
  · cases hx
  · rw [List.mem_singleton.mp hx]
    obtain ⟨hfirst, hfollows⟩ := List.isChain_cons.mp hkept
    refine ⟨?_, hfollows, ?_⟩
    · intro t ht
      apply (hfirst t ht).not_name
      simp [Token.takesName, Token.isCall, Token.isFn, Token.isLet, hclosing]
    · intro t ht
      apply hl.formed
      rw [htokens]
      exact List.mem_append_right _ (List.mem_cons_of_mem _ (List.mem_of_mem_filter ht))

theorem grammatical_of_mem_kept (hl : Token.Grammatical l.tokens) (hx : x ∈ l.kept) :
    Token.Grammatical x.tokens := by
  unfold kept at hx
  split at hx
  · cases hr : (Header.read l).routine with
    | none => simp [hr] at hx
    | some r =>
      obtain ⟨first, name, bracket, tokens, htokens, -, -, rfl⟩ := Header.exists_of_routine hr
      simp only [hr, Option.map_some, Option.getD_some] at hx
      cases hrest : (Header.readArguments tokens).rest with
      | none => simp [hrest, Header.inlineBody] at hx
      | some rest =>
        rw [hrest, Option.getD_some] at hx
        obtain ⟨taken, closing, rfl, hclosing⟩ := Header.exists_closing_of_readArguments hrest
        have hline : l.tokens = (first :: name :: bracket :: taken) ++ closing :: rest := htokens
        exact grammatical_of_mem_inlineBody hl hline hclosing hx
  · rw [List.mem_singleton.mp hx]
    exact hl

end Line

theorem Extraction.grammatical_of_mem_lines {ls : List Line} (hls : ∀ l ∈ ls, l.IsRead)
    {r : Routine} (hr : r ∈ (ofLines ls).routines) {x : Line} (hx : x ∈ r.lines) :
    Token.Grammatical x.tokens := by
  obtain ⟨l, hl, hxl⟩ := exists_kept hr hx
  exact Line.grammatical_of_mem_kept (hls l hl).grammatical hxl

end LineAssembly
