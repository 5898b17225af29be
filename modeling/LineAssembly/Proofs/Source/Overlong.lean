import LineAssembly.Proofs.Source.Concatenation
import LineAssembly.Proofs.Source.IdleLines

/-! Numerals over the digit limit. Only such a numeral stops the reading of a text, and only where
it stands by itself: not where a name is taken, nor in a literal or a comment. -/
namespace LineAssembly
namespace Word

/-- The words of a line that stand by themselves. `call` and `let` take the word behind them as a
name, and `fn` does unless it is an opening brace. A quote takes the words up to the next one, and a
comment all that follow. -/
def standing : List String → List String
  | [] => []
  | w :: ws =>
    if w.toList.head? = some ';' then []
    else if w = "\"" then standing (ws.dropWhile (· ≠ "\"")).tail
    else if w = "call" ∨ w = "let" then standing ws.tail
    else if w = "fn" then standing (if ws.head? = some "\x7b" then ws else ws.tail)
    else w :: standing ws
termination_by ws => ws.length
decreasing_by
  all_goals simp only [List.length_cons, List.length_tail]
  · have hrest := (List.dropWhile_suffix (l := ws) (· ≠ "\"")).length_le
    omega
  · omega
  · split
    · omega
    · rw [List.length_tail]
      omega
  · omega

theorem classOf_call : classOf "call" = .call := by decide

theorem classOf_let : classOf "let" = .binding := by decide

theorem classOf_fn : classOf "fn" = .fn := by decide

theorem classOf_quote : classOf "\"" = .quote := by decide

/-- A numeral of more digits than are read. -/
def isOverlong (w : String) : Bool :=
  Decimal.isNumeral w.toList && Decimal.limit < w.length

theorem classOf_of_isNumeral {w : String} (h : Decimal.isNumeral w.toList = true) :
    classOf w = .numeral := by
  have hdigits : w.toList ≠ [] ∧ ∀ c ∈ w.toList, Decimal.isDigit c = true := by
    simpa [Decimal.isNumeral] using h
  have hne {word : String} (hword : Decimal.isNumeral word.toList = false) : w ≠ word := by
    rintro rfl
    rw [h] at hword
    cases hword
  have hnotMem {words : List String}
      (hwords : ∀ word ∈ words, Decimal.isNumeral word.toList = false) : w ∉ words :=
    fun hmem => hne (hwords w hmem) rfl
  have hfirst {c : Char} (hc : Decimal.isDigit c = false) : w.toList.head? ≠ some c := by
    intro hhead
    rw [hdigits.2 c (List.mem_of_head? hhead)] at hc
    cases hc
  have hlast : w.toList.getLast? ≠ some ':' := by
    intro hlast
    have hcolon := hdigits.2 ':' (List.mem_of_getLast? hlast)
    cases hcolon
  unfold classOf
  rw [if_neg (hnotMem (by decide)), if_neg (hne (by decide)), if_neg (hnotMem (by decide)),
    if_neg (hne (by decide)), if_neg (hne (by decide)), if_neg (hne (by decide)),
    if_neg (hne (by decide)), if_neg (hne (by decide)), if_neg (hne (by decide)),
    if_neg (hne (by decide)), if_neg (hfirst (by decide)), if_neg (hfirst (by decide)),
    if_neg hlast, if_pos h]

end Word

def Item.firstOverlong (items : List Item) : Option Decimal.TooLong := items.findSome? overlong?

open Item

@[simp] theorem Item.firstOverlong_cons (i : Item) (items : List Item) :
    firstOverlong (i :: items) = i.overlong?.or (firstOverlong items) := by
  rw [firstOverlong, List.findSome?_cons]
  cases i.overlong? <;> rfl

/-- What a word that stands by itself gives: an item that stops the reading or one that does not,
and what follows stands by itself too. -/
theorem Mode.exists_plainStep {w : Word} (hcomment : w.text.toList.head? ≠ some ';')
    (hquote : w.text ≠ "\"") (hname : ¬ (w.text = "call" ∨ w.text = "let")) (hfn : w.text ≠ "fn")
    (number : Int) (started : Bool) :
    ∃ item next, plainStep number started w = ([item], .plain next) ∧
      item.overlong? =
        if Word.isOverlong w.text then some (.reading w.text.length) else none := by
  have hshort (hc : Word.classOf w.text ≠ .numeral) : Word.isOverlong w.text = false := by
    have hnumeral : Decimal.isNumeral w.text.toList = false := by
      by_contra h
      exact hc (Word.classOf_of_isNumeral (by simpa using h))
    simp [Word.isOverlong, hnumeral]
  have hd := Word.describes_classOf w.text
  unfold plainStep
  generalize hc : Word.classOf w.text = c at hd hshort
  cases c with
  | call => exact absurd (Or.inl hd) hname
  | binding => exact absurd (Or.inr hd) hname
  | fn => exact absurd hd hfn
  | quote => exact absurd hd hquote
  | comment => exact absurd hd hcomment
  | numeral =>
    have hnumeral : Decimal.isNumeral w.text.toList = true := hd
    have hchars : w.text.toList.length = w.text.length := String.length_toList
    by_cases hlength : w.text.length ≤ Decimal.limit
    · have hread : Decimal.read w.text.toList = .ok (Decimal.value w.text.toList) :=
        if_pos (hchars ▸ hlength)
      refine ⟨tokenOf (.number (Decimal.value w.text.toList)) w, true, by rw [hread], ?_⟩
      rw [if_neg (by simp [Word.isOverlong, hlength])]
      rfl
    · have hread : Decimal.read w.text.toList = .error (.reading w.text.length) := by
        rw [Decimal.read, hchars, if_neg hlength]
      refine ⟨.overlong (.reading w.text.length), started, by rw [hread], ?_⟩
      rw [if_pos (by simpa [Word.isOverlong, hnumeral] using hlength)]
      rfl
  | other =>
    rw [hshort (by simp)]
    cases started with
    | true => exact ⟨_, _, rfl, rfl⟩
    | false => exact ⟨_, _, rfl, rfl⟩
  | _ =>
    rw [hshort (by simp)]
    exact ⟨_, _, rfl, rfl⟩

theorem firstOverlong_inString (number : Int) (column : Nat) (parts : List String)
    (ws : List Word) :
    firstOverlong (classify number (.inString column parts) ws) =
      firstOverlong (classify number (.plain true) (ws.dropWhile (·.text ≠ "\"")).tail) := by
  induction ws generalizing parts with
  | nil => rfl
  | cons w ws ih =>
    by_cases hw : w.text = "\""
    · have htoken (t : Token) : (Item.token t).overlong? = none := rfl
      simp [classify, Mode.step, hw, htoken]
    · simpa [classify, Mode.step, hw] using ih (parts ++ [w.text])

theorem firstOverlong_afterName {mode : Mode} (hmode : mode = .afterCall ∨ mode = .afterLet)
    (number : Int) (ws : List Word) :
    firstOverlong (classify number mode ws) =
      firstOverlong (classify number (.plain true) ws.tail) := by
  rcases hmode with rfl | rfl
  · cases ws <;> rfl
  · cases ws <;> rfl

theorem firstOverlong_afterFn (number : Int) (ws : List Word) :
    firstOverlong (classify number .afterFn ws) =
      firstOverlong (classify number (.plain true)
        (if (ws.map Word.text).head? = some "\x7b" then ws else ws.tail)) := by
  cases ws with
  | nil => rfl
  | cons w ws =>
    by_cases hw : w.text = "\x7b"
    · have hitems : classify number .afterFn (w :: ws) =
          .nameless :: classify number (.plain true) (w :: ws) := by
        simp [classify, Mode.step, hw]
      rw [hitems, if_pos (by simp [hw])]
      rfl
    · rw [classify, Mode.step, if_neg hw, if_neg (by simpa using hw)]
      rfl

/-- What stops the reading of a line is the first numeral over the limit that stands by itself. -/
theorem firstOverlong_classify (number : Int) (started : Bool) (ws : List Word) :
    firstOverlong (classify number (.plain started) ws) =
      ((Word.standing (ws.map Word.text)).find? Word.isOverlong).map fun w =>
        .reading w.length := by
  generalize htexts : ws.map Word.text = texts
  fun_induction Word.standing texts generalizing ws started with
  | case1 =>
    rw [List.map_eq_nil_iff.mp htexts]
    rfl
  | case2 text texts hcomment =>
    obtain ⟨w, ws, rfl, rfl, rfl⟩ := List.map_eq_cons_iff.mp htexts
    rw [classify, Mode.step, Mode.plainStep, Word.classOf_of_semicolon hcomment,
      classify_inComment]
    rfl
  | case3 texts hcomment ih =>
    obtain ⟨w, ws, rfl, hw, rfl⟩ := List.map_eq_cons_iff.mp htexts
    have hstep : Mode.plainStep number started w = ([], .inString w.column []) := by
      simp [Mode.plainStep, hw, Word.classOf_quote]
    rw [classify, Mode.step, hstep, List.nil_append, firstOverlong_inString]
    apply ih
    rw [List.map_tail, List.dropWhile_map]
    rfl
  | case4 text texts hcomment hquote hname ih =>
    obtain ⟨w, ws, rfl, rfl, rfl⟩ := List.map_eq_cons_iff.mp htexts
    obtain ⟨kind, mode, hstep, hmode⟩ : ∃ kind mode,
        Mode.plainStep number started w = ([Mode.tokenOf kind w], mode) ∧
          (mode = .afterCall ∨ mode = .afterLet) := by
      rcases hname with hcall | hlet
      · exact ⟨.opcode, .afterCall, by simp [Mode.plainStep, hcall, Word.classOf_call], .inl rfl⟩
      · exact ⟨.keyword, .afterLet, by simp [Mode.plainStep, hlet, Word.classOf_let], .inr rfl⟩
    rw [classify, Mode.step, hstep, List.singleton_append, firstOverlong_cons,
      firstOverlong_afterName hmode]
    exact ih true ws.tail List.map_tail
  | case5 texts hcomment hquote hname ih =>
    obtain ⟨w, ws, rfl, hw, rfl⟩ := List.map_eq_cons_iff.mp htexts
    have hstep : Mode.plainStep number started w = ([Mode.tokenOf .keyword w], .afterFn) := by
      simp [Mode.plainStep, hw, Word.classOf_fn]
    rw [classify, Mode.step, hstep, List.singleton_append, firstOverlong_cons,
      firstOverlong_afterFn]
    apply ih
    split
    · rfl
    · exact List.map_tail
  | case6 text texts hcomment hquote hname hfn ih =>
    obtain ⟨w, ws, rfl, rfl, rfl⟩ := List.map_eq_cons_iff.mp htexts
    obtain ⟨item, next, hstep, hitem⟩ :=
      Mode.exists_plainStep hcomment hquote hname hfn number started
    rw [classify, Mode.step, hstep, List.singleton_append, firstOverlong_cons, hitem,
      ih next ws rfl, List.find?_cons]
    cases Word.isOverlong w.text <;> rfl

namespace Word

def overlongOn (raw : String) : Option String := (standing (split raw)).find? isOverlong

end Word

theorem Item.firstOverlong_ofLine (number : Int) (raw : String) :
    (ofLine number raw).findSome? overlong? =
      (Word.overlongOn raw).map fun w => .reading w.length :=
  firstOverlong_classify number false (Word.scan raw)

namespace Line

variable {raw w : String}

theorem read_of_overlongOn (h : Word.overlongOn raw = some w) (number : Int) :
    (read number raw).result = .error (.reading w.length) := by
  simp only [read, Item.firstOverlong_ofLine, h, Option.map_some]

theorem exists_read_of_overlongOn (h : Word.overlongOn raw = none) (number : Int) :
    ∃ line, (read number raw).result = .ok line := by
  simp only [read, Item.firstOverlong_ofLine, h, Option.map_none]
  exact ⟨_, rfl⟩

end Line

theorem Listing.addAll_of_overlongOn (l : Listing) (raws : List String) :
    match raws.findSome? Word.overlongOn with
    | some w => (l.addAll raws).2 = .error (.reading w.length)
    | none => ∃ l', (l.addAll raws).2 = .ok l' := by
  induction raws generalizing l with
  | nil => exact ⟨l, rfl⟩
  | cons raw raws ih =>
    cases h : Word.overlongOn raw with
    | some w =>
      rw [List.findSome?_cons_of_isSome (by simp [h]), h,
        addAll_cons_of_error (Line.read_of_overlongOn h l.next)]
    | none =>
      obtain ⟨line, hread⟩ := Line.exists_read_of_overlongOn h l.next
      rw [List.findSome?_cons_of_isNone (by simp [h]), addAll_cons_of_ok hread]
      exact ih _

namespace Program

theorem lines_ofListing {l : Listing} {raws : List String}
    (h : (Listing.addAll {} raws).2 = .ok l) :
    (ofListing l).lines.map Line.source = raws ∧
      (ofListing l).lines.map Line.number =
        (List.range raws.length).map fun i : Nat => (i : Int) + 1 := by
  have hsources : l.lines.map Line.source = raws := Listing.sources_addAll h
  have hlength : l.lines.length = raws.length := by rw [← hsources, List.length_map]
  have hnumbers := (Listing.isRead_addAll Listing.isRead_empty h).numbers
  rw [hlength] at hnumbers
  exact ⟨hsources, hnumbers⟩

/-- A text is read, with one line for each of its source lines, unless a numeral over the limit
stands by itself on one of them, and the first one is what stops the reading. -/
theorem read_of_standing (text : String) (tilde : Bool) :
    let raws := Text.sourceLines text tilde
    ((∃ excess, (read text tilde).result = .error excess) ↔
      ∃ raw ∈ raws, ∃ w ∈ Word.standing (Word.split raw), Word.isOverlong w = true) ∧
    match (raws.flatMap fun raw => Word.standing (Word.split raw)).find? Word.isOverlong with
    | some w => (read text tilde).result = .error (.reading w.length)
    | none => ∃ p, (read text tilde).result = .ok p ∧ p.lines.map Line.source = raws ∧
        p.lines.map Line.number = (List.range raws.length).map fun i : Nat => (i : Int) + 1 := by
  intro raws
  have hadd := Listing.addAll_of_overlongOn {} raws
  have hfind : raws.findSome? Word.overlongOn =
      (raws.flatMap fun raw => Word.standing (Word.split raw)).find? Word.isOverlong :=
    List.find?_flatMap.symm
  have hresult : (read text tilde).result = (Listing.addAll {} raws).2.map ofListing :=
    result_readLines raws
  have hexists : (∃ raw ∈ raws, ∃ w ∈ Word.standing (Word.split raw), Word.isOverlong w = true) ↔
      ((raws.flatMap fun raw => Word.standing (Word.split raw)).find? Word.isOverlong).isSome := by
    simp only [List.find?_isSome, List.mem_flatMap]
    constructor
    · rintro ⟨raw, hraw, w, hw, hlong⟩
      exact ⟨w, ⟨raw, hraw, hw⟩, hlong⟩
    · rintro ⟨w, ⟨raw, hraw, hw⟩, hlong⟩
      exact ⟨raw, hraw, w, hw, hlong⟩
  rw [hfind] at hadd
  rw [hexists, hresult]
  cases h : (raws.flatMap fun raw => Word.standing (Word.split raw)).find? Word.isOverlong with
  | some w =>
    rw [h] at hadd
    have hadd : (Listing.addAll {} raws).2 = .error (.reading w.length) := hadd
    rw [hadd]
    exact ⟨⟨fun _ => rfl, fun _ => ⟨_, rfl⟩⟩, rfl⟩
  | none =>
    rw [h] at hadd
    obtain ⟨l, hl⟩ := hadd
    rw [hl]
    refine ⟨⟨?_, by simp⟩, ofListing l, rfl, lines_ofListing hl⟩
    rintro ⟨excess, herror⟩
    cases herror

end Program
end LineAssembly
