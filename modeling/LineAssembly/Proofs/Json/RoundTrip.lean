import LineAssembly.Json.Parse
import LineAssembly.Json.Render
import LineAssembly.Proofs.Number.Decimal
import Mathlib.Data.List.TakeWhile

/-! Reading back what was written. In every layout the text of a value has the lexemes of the value,
and these put the value together again. This is for values whose numbers are integers and whose
objects have each field once. -/
namespace LineAssembly
namespace Json

mutual

/-- Whether the numbers of a value are integers and its objects have each field once. -/
def isPlain : Json → Bool
  | .real _ => false
  | .array vs => itemsPlain vs
  | .object fields => (fields.map Prod.fst).Nodup && fieldsPlain fields
  | _ => true

def itemsPlain : List Json → Bool
  | [] => true
  | v :: vs => isPlain v && itemsPlain vs

def fieldsPlain : List (String × Json) → Bool
  | [] => true
  | (_, v) :: fields => isPlain v && fieldsPlain fields

end

mutual

def lexemes : Json → List Lexeme
  | .string s => [.string s]
  | .array [] => [.openArray, .closeArray]
  | .array (v :: vs) => .openArray :: (lexemes v ++ itemLexemes vs ++ [.closeArray])
  | .object [] => [.openObject, .closeObject]
  | .object ((k, v) :: fields) =>
    .openObject :: .string k :: .colon :: (lexemes v ++ fieldLexemes fields ++ [.closeObject])
  | v => [.scalar v]

def itemLexemes : List Json → List Lexeme
  | [] => []
  | v :: vs => .comma :: (lexemes v ++ itemLexemes vs)

def fieldLexemes : List (String × Json) → List Lexeme
  | [] => []
  | (k, v) :: fields => .comma :: .string k :: .colon :: (lexemes v ++ fieldLexemes fields)

end

namespace Lexeme

theorem scan_cons {mode mode' : Mode} {c : Char} {found : List Lexeme}
    (h : step mode c = some (found, mode')) (rest : List Char) :
    scan mode (c :: rest) = (scan mode' rest).map (found ++ ·) := by
  rw [scan, h]

theorem scan_silent {mode mode' : Mode} {c : Char} (h : step mode c = some ([], mode'))
    (rest : List Char) : scan mode (c :: rest) = scan mode' rest := by
  rw [scan_cons h]
  exact Option.map_id'

theorem scan_between (c : Char) (rest : List Char) :
    scan .between (c :: rest) = (scan (betweenStep c).2 rest).map ((betweenStep c).1 ++ ·) :=
  scan_cons rfl rest

theorem scan_mark {c : Char} {m : Lexeme} (h : betweenStep c = ([m], .between))
    (rest : List Char) : scan .between (c :: rest) = (scan .between rest).map (m :: ·) :=
  scan_cons (by rw [step, h]) rest

theorem scan_space {c : Char} (h : isSpace c = true) (rest : List Char) :
    scan .between (c :: rest) = scan .between rest :=
  scan_silent (by simp [step, betweenStep, h]) rest

theorem scan_newline (l : Layout) (depth : Nat) (rest : List Char) :
    scan .between (l.newline depth ++ rest) = scan .between rest := by
  have hblanks : ∀ n, scan .between (List.replicate n ' ' ++ rest) = scan .between rest := by
    intro n
    induction n with
    | zero => rfl
    | succ n ih => rw [List.replicate_succ, List.cons_append, scan_space rfl, ih]
  unfold Layout.newline
  split
  · rfl
  · rw [List.cons_append, scan_space rfl, hblanks]

theorem scan_separator (l : Layout) (depth : Nat) (rest : List Char) :
    scan .between (l.separator depth ++ rest) = (scan .between rest).map (.comma :: ·) := by
  unfold Layout.separator
  split
  · rw [List.cons_append, scan_mark (c := ',') (m := .comma) rfl, List.cons_append, scan_space rfl,
      List.nil_append]
  · rw [List.cons_append, scan_mark (c := ',') (m := .comma) rfl, scan_newline]

theorem value?_padded : ∀ n < 0x20,
    (Hex.padded 4 n).length = 4 ∧ Hex.value? (Hex.padded 4 n) = some n := by
  decide

theorem scan_code (run : List Char) {c : Char} (hc : c.toNat < 0x20) (rest : List Char) :
    scan (.code run []) (Hex.padded 4 c.toNat ++ rest) = scan (.text (c :: run)) rest := by
  obtain ⟨hlength, hvalue⟩ := value?_padded c.toNat hc
  match hdigits : Hex.padded 4 c.toNat with
  | [d₁, d₂, d₃, d₄] =>
    rw [hdigits] at hvalue
    have hvalid : c.toNat.isValidChar := c.valid
    simp [scan, step, codeStep, hvalue, hvalid, Char.ofNat_toNat]
  | [] | [_] | [_, _] | [_, _, _] | _ :: _ :: _ :: _ :: _ :: _ => simp [hdigits] at hlength

theorem scan_escape (run : List Char) {c d : Char} (h : escaped? d = some c) (hd : d ≠ 'u')
    (rest : List Char) :
    scan (.text run) ('\\' :: d :: rest) = scan (.text (c :: run)) rest := by
  have hopen : step (.text run) '\\' = some ([], .escape run) := rfl
  have hclose : step (.escape run) d = some ([], .text (c :: run)) := by simp [step, h, hd]
  rw [scan_silent hopen, scan_silent hclose]

theorem scan_escapeChar (run : List Char) (c : Char) (rest : List Char) :
    scan (.text run) (escapeChar c ++ rest) = scan (.text (c :: run)) rest := by
  have hchar : ∀ {n}, c.toNat = n → Char.ofNat n = c := fun h => by rw [← h, Char.ofNat_toNat]
  by_cases hquote : c = '"'
  · subst hquote; exact scan_escape run rfl (by decide) rest
  by_cases hslash : c = '\\'
  · subst hslash; exact scan_escape run rfl (by decide) rest
  by_cases hline : c = '\n'
  · subst hline; exact scan_escape run rfl (by decide) rest
  by_cases hreturn : c = '\r'
  · subst hreturn; exact scan_escape run rfl (by decide) rest
  by_cases htab : c = '\t'
  · subst htab; exact scan_escape run rfl (by decide) rest
  by_cases hfeed : c.toNat = 0x0C
  · rw [← hchar hfeed]; exact scan_escape run rfl (by decide) rest
  by_cases hback : c.toNat = 0x08
  · rw [← hchar hback]; exact scan_escape run rfl (by decide) rest
  by_cases hcontrol : c.toNat < 0x20
  · have hopen : step (.text run) '\\' = some ([], .escape run) := rfl
    have hcode : step (.escape run) 'u' = some ([], .code run []) := rfl
    rw [← scan_code run hcontrol rest, escapeChar]
    simp only [hquote, hslash, hline, hreturn, htab, hfeed, hback, hcontrol, if_true, if_false,
      List.cons_append]
    rw [scan_silent hopen, scan_silent hcode]
  · have hstep : step (.text run) c = some ([], .text (c :: run)) := by
      simp [step, hquote, hslash, hcontrol]
    rw [escapeChar]
    simp only [hquote, hslash, hline, hreturn, htab, hfeed, hback, hcontrol, if_false,
      List.cons_append, List.nil_append]
    exact scan_silent hstep rest

theorem scan_text (run cs rest : List Char) :
    scan (.text run) (cs.flatMap escapeChar ++ '"' :: rest) =
      (scan .between rest).map (.string (String.ofList (run.reverse ++ cs)) :: ·) := by
  induction cs generalizing run with
  | nil => simp [scan, step]
  | cons c cs ih =>
    rw [List.flatMap_cons, List.append_assoc, scan_escapeChar, ih]
    simp

theorem scan_quoteString (s : String) (rest : List Char) :
    scan .between (quoteString s ++ rest) = (scan .between rest).map (.string s :: ·) := by
  have hquote : quoteString s ++ rest = '"' :: (s.toList.flatMap escapeChar ++ '"' :: rest) := by
    simp [quoteString]
  have hopen : step .between '"' = some ([], .text []) := rfl
  rw [hquote, scan_silent hopen, scan_text]
  simp

/-- What may follow a word: nothing, or a character that ends it. -/
def Bounded (rest : List Char) : Prop := ∀ c cs, rest = c :: cs → endsWord c = true

theorem bounded_nil : Bounded [] := fun _ _ h => nomatch h

theorem bounded_cons {c : Char} (h : endsWord c = true) (rest : List Char) :
    Bounded (c :: rest) := by
  intro d ds hd
  rw [← (List.cons.inj hd).1, h]

theorem bounded_newline {rest : List Char} (h : Bounded rest) (l : Layout) (depth : Nat) :
    Bounded (l.newline depth ++ rest) := by
  unfold Layout.newline
  split
  · exact h
  · exact bounded_cons rfl _

theorem bounded_separator (l : Layout) (depth : Nat) (rest : List Char) :
    Bounded (l.separator depth ++ rest) := by
  unfold Layout.separator
  split
  · exact bounded_cons rfl _
  · exact bounded_cons rfl _

theorem scan_word {cs : List Char} (hcs : ∀ c ∈ cs, endsWord c = false) (run rest : List Char) :
    scan (.word run) (cs ++ rest) = scan (.word (cs.reverse ++ run)) rest := by
  induction cs generalizing run with
  | nil => rfl
  | cons c cs ih =>
    have hstep : step (.word run) c = some ([], .word (c :: run)) := by
      simp [step, hcs c (by simp)]
    rw [List.cons_append, scan_silent hstep, ih fun d hd => hcs d (by simp [hd])]
    simp

theorem scan_word_end {run : List Char} {v : Json} (hv : readScalar run.reverse = some v)
    {rest : List Char} (hrest : Bounded rest) :
    scan (.word run) rest = (scan .between rest).map (.scalar v :: ·) := by
  cases rest with
  | nil => simp [scan, finish, hv]
  | cons c cs =>
    have hstep : step (.word run) c = some (.scalar v :: (betweenStep c).1, (betweenStep c).2) := by
      simp [step, hrest c cs rfl, hv]
    rw [scan_cons hstep, scan_between]
    simp [Function.comp_def]

theorem scan_scalar {cs : List Char} {v : Json} (hne : cs ≠ []) (hcs : ∀ c ∈ cs, endsWord c = false)
    (hv : readScalar cs = some v) {rest : List Char} (hrest : Bounded rest) :
    scan .between (cs ++ rest) = (scan .between rest).map (.scalar v :: ·) := by
  obtain ⟨c, ds, rfl⟩ := List.exists_cons_of_ne_nil hne
  have hc : endsWord c = false := hcs c (by simp)
  have hopen : step .between c = some ([], .word [c]) := by
    simp only [endsWord, Bool.or_eq_false_iff, decide_eq_false_iff_not,
      Option.isSome_eq_false_iff, Option.isNone_iff_eq_none] at hc
    simp [step, betweenStep, hc.1.1, hc.1.2, hc.2]
  have hword : readScalar (ds.reverse ++ [c]).reverse = some v := by simpa using hv
  rw [List.cons_append, scan_silent hopen, scan_word fun d hd => hcs d (by simp [hd]),
    scan_word_end hword hrest]

end Lexeme

theorem ne_of_isDigit {c d : Char} (hc : Decimal.isDigit c = true)
    (hd : Decimal.isDigit d = false) : c ≠ d := by
  rintro rfl
  rw [hc] at hd
  cases hd

theorem endsWord_of_isDigit {c : Char} (h : Decimal.isDigit c = true) :
    Lexeme.endsWord c = false := by
  have hne : ∀ d, Decimal.isDigit d = false → c ≠ d := fun d hd => ne_of_isDigit h hd
  simp [Lexeme.endsWord, Lexeme.isSpace, Lexeme.mark?, hne ' ' rfl, hne '\t' rfl, hne '\n' rfl,
    hne '\r' rfl, hne '"' rfl, hne '[' rfl, hne ']' rfl, hne '\x7b' rfl, hne '\x7d' rfl,
    hne ',' rfl, hne ':' rfl]

theorem readUnsigned_digits (negative : Bool) (n : Nat) :
    readUnsigned negative (Decimal.digits n) =
      some (.int (if negative then -(n : Int) else n)) := by
  have hall : ∀ c ∈ Decimal.digits n, Decimal.isDigit c = true :=
    fun c hc => Decimal.isDigit_of_mem_digits hc
  have hne : Decimal.digits n ≠ [] := Nat.toDigits_ne_nil
  have hzero : ((Decimal.digits n).head? = some '0' && 1 < (Decimal.digits n).length) = false := by
    cases n with
    | zero => rfl
    | succ n => simp [Decimal.head?_digits_ne (Nat.succ_pos n)]
  have hwhole : (Decimal.digits n).takeWhile Decimal.isDigit = Decimal.digits n :=
    List.takeWhile_eq_self_iff.mpr hall
  have hrest : (Decimal.digits n).dropWhile Decimal.isDigit = [] :=
    List.dropWhile_eq_nil_iff.mpr hall
  simp [readUnsigned, hwhole, hrest, hne, hzero, Decimal.value_digits]

theorem readNumber_ofInt (n : Int) : readNumber (Decimal.ofInt n) = some (.int n) := by
  unfold Decimal.ofInt
  split
  · rename_i hneg
    have hn : -(n.natAbs : Int) = n := by omega
    rw [readNumber, readUnsigned_digits, if_pos rfl, hn]
  · rename_i hpos
    have hn : (n.natAbs : Int) = n := by omega
    obtain ⟨c, cs, hcs⟩ := List.exists_cons_of_ne_nil (@Nat.toDigits_ne_nil n.natAbs 10)
    have hdigits := readUnsigned_digits false n.natAbs
    have hc : Decimal.isDigit c = true :=
      Decimal.isDigit_of_mem_digits (n := n.natAbs) (by simp [Decimal.digits, hcs])
    have hminus : c ≠ '-' := by
      rintro rfl
      cases hc
    rw [Decimal.digits, hcs] at hdigits ⊢
    rw [readNumber]
    · simpa [hn] using hdigits
    · rintro ds hds
      exact hminus (List.cons.inj hds).1

theorem readScalar_ofInt (n : Int) : readScalar (Decimal.ofInt n) = some (.int n) := by
  have hword : ∀ word : List Char, (∃ c ∈ word, c ≠ '-' ∧ Decimal.isDigit c = false) →
      Decimal.ofInt n ≠ word := by
    rintro word ⟨c, hc, hminus, hdigit⟩ rfl
    obtain h | h := Decimal.mem_ofInt hc
    · exact hminus h
    · rw [h] at hdigit
      cases hdigit
  unfold readScalar
  rw [if_neg (hword _ ⟨'n', by decide⟩), if_neg (hword _ ⟨'t', by decide⟩),
    if_neg (hword _ ⟨'f', by decide⟩), if_neg (hword _ ⟨'N', by decide⟩),
    if_neg (hword _ ⟨'I', by decide⟩), if_neg (hword _ ⟨'I', by decide⟩), readNumber_ofInt]

open Lexeme

theorem scan_ofInt (n : Int) {rest : List Char} (hrest : Bounded rest) :
    scan .between (Decimal.ofInt n ++ rest) = (scan .between rest).map (.scalar (.int n) :: ·) := by
  refine scan_scalar ?_ ?_ (readScalar_ofInt n) hrest
  · unfold Decimal.ofInt
    split
    · simp
    · exact Nat.toDigits_ne_nil
  · intro c hc
    obtain rfl | h := Decimal.mem_ofInt hc
    · rfl
    · exact endsWord_of_isDigit h

theorem bounded_renderItems (l : Layout) (depth : Nat) (vs : List Json) {rest : List Char}
    (hrest : Bounded rest) : Bounded (renderItems l depth vs ++ rest) := by
  cases vs with
  | nil => exact hrest
  | cons v vs =>
    rw [renderItems, List.append_assoc, List.append_assoc]
    exact bounded_separator l depth _

theorem bounded_renderFields (l : Layout) (depth : Nat) (fields : List (String × Json))
    {rest : List Char} (hrest : Bounded rest) : Bounded (renderFields l depth fields ++ rest) := by
  cases fields with
  | nil => exact hrest
  | cons f fields =>
    obtain ⟨k, v⟩ := f
    simp only [renderFields, List.append_assoc, List.cons_append]
    exact bounded_separator l depth _

theorem scan_key (k : String) (rest : List Char) :
    scan .between (quoteString k ++ ':' :: ' ' :: rest) =
      (scan .between rest).map (.string k :: .colon :: ·) := by
  rw [scan_quoteString, scan_mark (c := ':') (m := .colon) rfl, scan_space rfl, Option.map_map]
  rfl

mutual

/-- In every layout the text of a value has the lexemes of the value. -/
theorem scan_renderAt (l : Layout) (depth : Nat) (v : Json) (hv : v.isPlain = true)
    {rest : List Char} (hrest : Bounded rest) :
    scan .between (renderAt l depth v ++ rest) = (scan .between rest).map (lexemes v ++ ·) := by
  match v with
  | .null =>
    rw [renderAt]
    exact scan_scalar (by decide) (by simp [endsWord, isSpace, mark?]) rfl hrest
  | .bool true =>
    rw [renderAt, if_pos rfl]
    exact scan_scalar (by decide) (by simp [endsWord, isSpace, mark?]) rfl hrest
  | .bool false =>
    rw [renderAt, if_neg Bool.false_ne_true]
    exact scan_scalar (by decide) (by simp [endsWord, isSpace, mark?]) rfl hrest
  | .int n => exact scan_ofInt n hrest
  | .string s => exact scan_quoteString s rest
  | .array [] =>
    simp only [renderAt, lexemes, List.cons_append, List.nil_append]
    rw [scan_mark (c := '[') (m := .openArray) rfl, scan_mark (c := ']') (m := .closeArray) rfl,
      Option.map_map]
    rfl
  | .array (v :: vs) =>
    simp only [isPlain, itemsPlain, Bool.and_eq_true] at hv
    have hend : Bounded (l.newline depth ++ ']' :: rest) :=
      bounded_newline (bounded_cons rfl rest) l depth
    have hitems := bounded_renderItems l (depth + 1) vs hend
    simp only [renderAt, lexemes, List.cons_append, List.append_assoc, List.nil_append]
    rw [scan_mark (c := '[') (m := .openArray) rfl, scan_newline,
      scan_renderAt l (depth + 1) v hv.1 hitems, scan_renderItems l (depth + 1) vs hv.2 hend,
      scan_newline, scan_mark (c := ']') (m := .closeArray) rfl]
    simp [Function.comp_def]
  | .object [] =>
    simp only [renderAt, lexemes, List.cons_append, List.nil_append]
    rw [scan_mark (c := '\x7b') (m := .openObject) rfl,
      scan_mark (c := '\x7d') (m := .closeObject) rfl, Option.map_map]
    rfl
  | .object ((k, v) :: fields) =>
    simp only [isPlain, fieldsPlain, Bool.and_eq_true] at hv
    have hend : Bounded (l.newline depth ++ '\x7d' :: rest) :=
      bounded_newline (bounded_cons rfl rest) l depth
    have hfields := bounded_renderFields l (depth + 1) fields hend
    simp only [renderAt, lexemes, List.cons_append, List.append_assoc, List.nil_append]
    rw [scan_mark (c := '\x7b') (m := .openObject) rfl, scan_newline, scan_key,
      scan_renderAt l (depth + 1) v hv.2.1 hfields,
      scan_renderFields l (depth + 1) fields hv.2.2 hend, scan_newline,
      scan_mark (c := '\x7d') (m := .closeObject) rfl]
    simp [Function.comp_def]

theorem scan_renderItems (l : Layout) (depth : Nat) (vs : List Json) (hvs : itemsPlain vs = true)
    {rest : List Char} (hrest : Bounded rest) :
    scan .between (renderItems l depth vs ++ rest) =
      (scan .between rest).map (itemLexemes vs ++ ·) := by
  match vs with
  | [] => exact Option.map_id'.symm
  | v :: vs =>
    simp only [itemsPlain, Bool.and_eq_true] at hvs
    have hitems := bounded_renderItems l depth vs hrest
    simp only [renderItems, itemLexemes, List.append_assoc, List.cons_append]
    rw [scan_separator, scan_renderAt l depth v hvs.1 hitems,
      scan_renderItems l depth vs hvs.2 hrest]
    simp [Function.comp_def]

theorem scan_renderFields (l : Layout) (depth : Nat) (fields : List (String × Json))
    (hfields : fieldsPlain fields = true) {rest : List Char} (hrest : Bounded rest) :
    scan .between (renderFields l depth fields ++ rest) =
      (scan .between rest).map (fieldLexemes fields ++ ·) := by
  match fields with
  | [] => exact Option.map_id'.symm
  | (k, v) :: fields =>
    simp only [fieldsPlain, Bool.and_eq_true] at hfields
    have hmore := bounded_renderFields l depth fields hrest
    simp only [renderFields, fieldLexemes, List.append_assoc, List.cons_append]
    rw [scan_separator, scan_key, scan_renderAt l depth v hfields.1 hmore,
      scan_renderFields l depth fields hfields.2 hrest]
    simp [Function.comp_def]

end

theorem setField_of_not_mem {key : String} {fields : List (String × Json)}
    (h : key ∉ fields.map Prod.fst) (value : Json) :
    setField key value fields = fields ++ [(key, value)] := by
  induction fields with
  | nil => rfl
  | cons f fields ih =>
    simp only [List.map_cons, List.mem_cons, not_or] at h
    rw [setField, if_neg (Ne.symm h.1), ih h.2, List.cons_append]

namespace Parse

theorem foldlM_cons_of_step {s s' : Parse} {x : Lexeme} (h : step s x = some s')
    (xs : List Lexeme) : (x :: xs).foldlM step s = xs.foldlM step s' := by
  rw [List.foldlM_cons, h]
  rfl

theorem foldlM_append_of_foldlM {s s' : Parse} {xs : List Lexeme}
    (h : xs.foldlM step s = some s') (ys : List Lexeme) :
    (xs ++ ys).foldlM step s = ys.foldlM step s' := by
  rw [List.foldlM_append, h]
  rfl

theorem foldlM_firstItem (v : Json) (frames : List Frame) :
    (lexemes v).foldlM step (.firstItem frames) =
      (lexemes v).foldlM step (.value (.items [] :: frames)) := by
  match v with
  | .null | .bool _ | .int _ | .real _ | .string _ | .array [] | .object [] => rfl
  | .array (_ :: _) | .object (_ :: _) => simp only [lexemes, List.foldlM_cons]; rfl

mutual

/-- The lexemes of a value put the value together, whatever is open around it. -/
theorem foldlM_lexemes (v : Json) (hv : v.isPlain = true) (frames : List Frame) :
    (lexemes v).foldlM step (.value frames) = some (.after frames v) := by
  match v with
  | .null | .bool _ | .int _ | .string _ | .array [] | .object [] => rfl
  | .array (v :: vs) =>
    simp only [isPlain, itemsPlain, Bool.and_eq_true] at hv
    have hopen : step (.value frames) .openArray = some (.firstItem frames) := rfl
    have hfirst : (lexemes v).foldlM step (.firstItem frames) =
        some (.after (.items [] :: frames) v) := by
      rw [foldlM_firstItem, foldlM_lexemes v hv.1]
    rw [lexemes, foldlM_cons_of_step hopen, List.append_assoc, foldlM_append_of_foldlM hfirst]
    exact foldlM_itemLexemes vs hv.2 frames [] v
  | .object ((k, v) :: fields) =>
    simp only [isPlain, fieldsPlain, Bool.and_eq_true, decide_eq_true_eq] at hv
    have hopen : step (.value frames) .openObject = some (.firstKey frames) := rfl
    have hkey : step (.firstKey frames) (.string k) = some (.colon frames [] k) := rfl
    have hcolon : step (.colon frames [] k) .colon = some (.value (.fields [] k :: frames)) := rfl
    have hvalue := foldlM_lexemes v hv.2.1 (.fields [] k :: frames)
    rw [lexemes, foldlM_cons_of_step hopen, foldlM_cons_of_step hkey, foldlM_cons_of_step hcolon,
      List.append_assoc, foldlM_append_of_foldlM hvalue]
    exact foldlM_fieldLexemes fields hv.2.2 frames [] k v hv.1

theorem foldlM_itemLexemes (vs : List Json) (hvs : itemsPlain vs = true) (frames : List Frame)
    (done : List Json) (v : Json) :
    (itemLexemes vs ++ [Lexeme.closeArray]).foldlM step (.after (.items done :: frames) v) =
      some (.after frames (.array (done.reverse ++ v :: vs))) := by
  match vs with
  | [] => simp [itemLexemes, step, afterStep]
  | w :: vs =>
    simp only [itemsPlain, Bool.and_eq_true] at hvs
    have hcomma : step (.after (.items done :: frames) v) .comma =
        some (.value (.items (v :: done) :: frames)) := rfl
    have hvalue := foldlM_lexemes w hvs.1 (.items (v :: done) :: frames)
    rw [itemLexemes, List.cons_append, foldlM_cons_of_step hcomma, List.append_assoc,
      foldlM_append_of_foldlM hvalue, foldlM_itemLexemes vs hvs.2 frames (v :: done) w]
    simp

/-- The keys are different, so that each field comes last among those read before. -/
theorem foldlM_fieldLexemes (fields : List (String × Json)) (hfields : fieldsPlain fields = true)
    (frames : List Frame) (done : List (String × Json)) (k : String) (v : Json)
    (hkeys : ((done ++ (k, v) :: fields).map Prod.fst).Nodup) :
    (fieldLexemes fields ++ [Lexeme.closeObject]).foldlM step
        (.after (.fields done k :: frames) v) =
      some (.after frames (.object (done ++ (k, v) :: fields))) := by
  have hset : setField k v done = done ++ [(k, v)] := by
    refine setField_of_not_mem (fun hmem => ?_) v
    rw [List.map_append] at hkeys
    exact (List.nodup_append.mp hkeys).2.2 k hmem k (by simp) rfl
  match fields with
  | [] => simp [fieldLexemes, step, afterStep, hset]
  | (k', w) :: fields =>
    simp only [fieldsPlain, Bool.and_eq_true] at hfields
    have hcomma : step (.after (.fields done k :: frames) v) .comma =
        some (.key frames (done ++ [(k, v)])) := by
      rw [step, afterStep, hset]
    have hkey : step (.key frames (done ++ [(k, v)])) (.string k') =
        some (.colon frames (done ++ [(k, v)]) k') := rfl
    have hcolon : step (.colon frames (done ++ [(k, v)]) k') .colon =
        some (.value (.fields (done ++ [(k, v)]) k' :: frames)) := rfl
    have hvalue := foldlM_lexemes w hfields.1 (.fields (done ++ [(k, v)]) k' :: frames)
    have hmore := foldlM_fieldLexemes fields hfields.2 frames (done ++ [(k, v)]) k' w
      (by simpa using hkeys)
    rw [fieldLexemes, List.cons_append, foldlM_cons_of_step hcomma, List.cons_append,
      foldlM_cons_of_step hkey, List.cons_append, foldlM_cons_of_step hcolon, List.append_assoc,
      foldlM_append_of_foldlM hvalue, hmore]
    simp

end

end Parse

/-- Reading back what was written, in any layout. -/
theorem parse?_render (l : Layout) {v : Json} (hv : v.isPlain = true) :
    parse? (render l v) = some v := by
  have hscan := scan_renderAt l 0 v hv bounded_nil
  rw [List.append_nil] at hscan
  have hparse := Parse.foldlM_lexemes v hv []
  simp [parse?, render, ofLexemes?, hscan, scan, Lexeme.finish, hparse, Parse.finish]

end Json
end LineAssembly
