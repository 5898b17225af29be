import LineAssembly.Proofs.Source.Blocks
import Mathlib.Data.List.Forall2

/-! How the texts of string literals bear on the routines of a listing. The extraction goes by the
text of a token, whatever its kind, in three places: where a line may read `fn`, where the bracket
of a header should stand, and within the arguments. Elsewhere a literal may say anything, and there
anything but what is looked for in that place. A listing with a literal in one of these places has
another outline for some other text of it. -/
namespace LineAssembly

/-- Tokens that are equal but for the text of a string literal. -/
def Token.Agree (t u : Token) : Prop := t = u ∨ t.kind = .string ∧ ∃ v, u = { t with value := v }

namespace Token.Agree

variable {t u : Token}

theorem refl (t : Token) : t.Agree t := Or.inl rfl

theorem kind_eq (h : t.Agree u) : t.kind = u.kind := by
  obtain rfl | ⟨-, v, rfl⟩ := h <;> rfl

theorem eq (h : t.Agree u) (ht : t.kind ≠ .string) : t = u := h.resolve_right fun hs => ht hs.1

theorem refl_all (ts : List Token) : List.Forall₂ Agree ts ts :=
  List.forall₂_same.mpr fun t _ => refl t

end Token.Agree

/-- Tokens of which one reads as a mark only if both do. -/
def Token.Alike (marks : List String) (t u : Token) : Prop :=
  ∀ mark ∈ marks, t.value = mark ↔ u.value = mark

/-- A token that the extraction looks at, with the marks that it looks for there. -/
structure Inspection where
  marks : List String
  token : Token

structure Inspection.Alike (x y : Inspection) : Prop where
  marks : x.marks = y.marks
  token : x.token.Alike x.marks y.token

/-- Lines that are equal but for the texts of string literals. -/
structure Line.Agree (l m : Line) : Prop where
  tokens : List.Forall₂ Token.Agree l.tokens m.tokens
  source : l.source = m.source
  number : l.number = m.number
  comment : l.comment = m.comment

theorem Line.Agree.refl (l : Line) : l.Agree l := ⟨Token.Agree.refl_all _, rfl, rfl, rfl⟩

/-- A line by its number and how many tokens it has. -/
def Line.outline (l : Line) : Int × Nat := (l.number, l.tokens.length)

/-- A routine by its name, how many arguments it has, and its body. -/
structure Routine.Outline where
  name : String
  arguments : Nat
  body : List (Int × Nat)
  deriving Repr, DecidableEq

def Routine.outline (r : Routine) : Routine.Outline :=
  ⟨r.name, r.arguments.length, r.lines.map Line.outline⟩

/-- The structure that an extraction finds. -/
structure Extraction.Outline where
  routines : List Routine.Outline
  dangling : List Int
  errorCount : Nat
  deriving Repr, DecidableEq

def Extraction.outline (x : Extraction) : Extraction.Outline :=
  ⟨x.routines.map Routine.outline, x.dangling.map Line.number, x.errorCount⟩

namespace Header

def brackets : List String := ["(", ")"]

def argumentPart : List Token → List Token
  | [] => []
  | t :: ts => t :: if t.value = ")" then [] else argumentPart ts

/-- The errors of an argument list: brackets that open inside it, and that it is not closed. -/
def Arguments.errors (a : Arguments) : Nat := a.nested + if a.rest.isNone then 1 else 0

theorem errors_cons (t : Token) (ts : List Token) :
    (readArguments (t :: ts)).errors =
      if t.value = ")" then 0
      else (readArguments ts).errors + if t.value = "(" then 1 else 0 := by
  by_cases hc : t.value = ")"
  · simp [readArguments, hc, Arguments.errors]
  · by_cases ho : t.value = "("
    · simp [readArguments, ho, Arguments.errors]
      omega
    · simp [readArguments, hc, ho, Arguments.errors]

theorem exists_errors_ne {ts : List Token} {t : Token} (ht : t ∈ argumentPart ts)
    (hs : t.kind = .string) :
    ∃ us, List.Forall₂ Token.Agree ts us ∧ (readArguments us).errors ≠ (readArguments ts).errors := by
  induction ts with
  | nil => cases ht
  | cons u ts ih =>
    rcases List.mem_cons.mp ht with rfl | ht
    · -- an opening bracket adds an error, and the text of any other literal adds none
      by_cases ho : t.value = "("
      · refine ⟨{ t with value := "" } :: ts, .cons (Or.inr ⟨hs, "", rfl⟩) (Token.Agree.refl_all ts), ?_⟩
        simp [errors_cons, ho]
      · refine ⟨{ t with value := "(" } :: ts, .cons (Or.inr ⟨hs, "(", rfl⟩) (Token.Agree.refl_all ts), ?_⟩
        by_cases hc : t.value = ")" <;> simp [errors_cons, ho, hc]
    · by_cases hc : u.value = ")"
      · simp [hc] at ht
      · obtain ⟨us, hus, hne⟩ := ih (by simpa [hc] using ht)
        refine ⟨u :: us, .cons (Token.Agree.refl u) hus, ?_⟩
        simpa [errors_cons, hc] using hne

end Header

namespace Line

/-- What the extraction looks at in a line. -/
def inspections (l : Line) : List Inspection :=
  match l.tokens with
  | [] => []
  | first :: rest =>
    ⟨["fn"], first⟩ ::
      if first.value ≠ "fn" then []
      else
        match rest with
        | name :: bracket :: tokens =>
          if name.kind ≠ .routineName then []
          else
            ⟨["("], bracket⟩ ::
              if bracket.value = "(" then (Header.argumentPart tokens).map (.mk Header.brackets)
              else []
        | _ => []

/-- The tokens of a line whose texts the extraction looks at. -/
def inspected (l : Line) : List Token := l.inspections.map Inspection.token

def headerErrors (l : Line) : Nat := (Header.read l).notes.countP Header.Note.isError

theorem headerErrors_eq {l : Line} {first name bracket : Token} {ts : List Token}
    (ht : l.tokens = first :: name :: bracket :: ts) (hname : name.kind = .routineName)
    (hb : bracket.value = "(") : l.headerErrors = (Header.readArguments ts).errors := by
  have hnested : ∀ n, (List.replicate n (Header.Note.nestedBracket name.value)).countP
      Header.Note.isError = n := by
    intro n
    rw [List.countP_replicate]
    simp [Header.Note.isError]
  simp only [headerErrors, Header.read, ht, List.drop_one, List.tail_cons, hname, hb, ne_eq,
    not_true_eq_false, if_false, List.countP_append, hnested, Header.Arguments.errors]
  split <;> simp [Header.Note.isError, *]

end Line

namespace Header

/-- Argument lists of the same shape, with literals that may differ in their texts. -/
structure Arguments.Agree (a b : Arguments) : Prop where
  taken : a.taken.length = b.taken.length
  nested : a.nested = b.nested
  closed : a.rest.isNone = b.rest.isNone
  rest : List.Forall₂ Token.Agree (a.rest.getD []) (b.rest.getD [])

theorem agree_readArguments {ts us : List Token} (h : List.Forall₂ Token.Agree ts us)
    (hpart : List.Forall₂ (Token.Alike brackets) (argumentPart ts) (argumentPart us)) :
    (readArguments ts).Agree (readArguments us) := by
  induction h with
  | nil => exact ⟨rfl, rfl, rfl, .nil⟩
  | @cons t u ts us htu hrest ih =>
    obtain ⟨halike, hpart⟩ := List.forall₂_cons.mp hpart
    have hclose : t.value = ")" ↔ u.value = ")" := halike ")" (by decide)
    have hopen : t.value = "(" ↔ u.value = "(" := halike "(" (by decide)
    by_cases hc : u.value = ")"
    · simp only [readArguments, hclose, hc, if_true]
      exact ⟨rfl, rfl, rfl, hrest⟩
    · simp only [hclose, hc, if_false] at hpart
      obtain ⟨htaken, hnested, hclosed, hagree⟩ := ih hpart
      simp only [readArguments, hclose, hopen, hc, if_false]
      split
      · exact ⟨htaken, by simp [hnested], hclosed, hagree⟩
      · exact ⟨by simp [htaken], hnested, hclosed, hagree⟩

theorem argumentPart_eq {ts us : List Token} (h : List.Forall₂ Token.Agree ts us)
    (hs : ∀ t ∈ argumentPart ts, t.kind ≠ .string) : argumentPart ts = argumentPart us := by
  induction h with
  | nil => rfl
  | @cons t u ts us htu hrest ih =>
    obtain rfl := htu.eq (hs t (by simp [argumentPart]))
    by_cases hc : t.value = ")"
    · simp [argumentPart, hc]
    · simpa [argumentPart, hc] using ih fun x hx => hs x (by simp [argumentPart, hc, hx])

theorem length_filter_agree {ts us : List Token} (h : List.Forall₂ Token.Agree ts us) :
    (ts.filter fun t => t.kind ≠ .bracket).length = (us.filter fun t => t.kind ≠ .bracket).length := by
  induction h with
  | nil => rfl
  | @cons t u ts us htu hrest ih =>
    have hk := htu.kind_eq
    by_cases hb : u.kind = .bracket
    · simpa [hk, hb] using ih
    · simpa [hk, hb] using ih

theorem outline_inlineBody {l m : Line} (hn : l.number = m.number) {ts us : List Token}
    (h : List.Forall₂ Token.Agree ts us) :
    (inlineBody l ts).map Line.outline = (inlineBody m us).map Line.outline := by
  have hlen := length_filter_agree h
  have hempty : (ts.filter fun t => t.kind ≠ .bracket).isEmpty =
      (us.filter fun t => t.kind ≠ .bracket).isEmpty := by
    rw [Bool.eq_iff_iff, List.isEmpty_iff_length_eq_zero, List.isEmpty_iff_length_eq_zero, hlen]
  simp only [inlineBody, hempty]
  split
  · rfl
  · simp only [List.map_cons, List.map_nil, Line.outline, hn, hlen]

end Header

namespace Line

/-- Lines that have the same part in the structure of a listing. -/
structure SameOutline (l m : Line) : Prop where
  outline : l.outline = m.outline
  starts : l.startsRoutine = m.startsRoutine
  routine : l.startsRoutine = true →
    (Header.read l).routine.map Routine.outline = (Header.read m).routine.map Routine.outline
  errors : l.startsRoutine = true → l.headerErrors = m.headerErrors

/-- Lines that agree, with literals that read as what is looked for only where they do so in
both. -/
structure Alike (l m : Line) : Prop extends l.Agree m where
  inspections : List.Forall₂ Inspection.Alike l.inspections m.inspections

theorem outline_read {l m : Line} (h : l.Alike m) (hstart : l.startsRoutine = true) :
    (Header.read l).routine.map Routine.outline = (Header.read m).routine.map Routine.outline ∧
      l.headerErrors = m.headerErrors := by
  have htokens := h.tokens
  have hnumber := h.number
  have hinspected := h.inspections
  cases hl : l.tokens with
  | nil => simp [startsRoutine, hl] at hstart
  | cons first rest =>
    have hfn : first.value = "fn" := by simpa [startsRoutine, hl] using hstart
    rw [hl] at htokens
    obtain ⟨first', rest', -, hrest, hm⟩ := List.forall₂_cons_left_iff.mp htokens
    simp only [Line.inspections, hl, hm, List.forall₂_cons] at hinspected
    obtain ⟨hfirst, hinspected⟩ := hinspected
    have hfn' : first'.value = "fn" := (hfirst.token "fn" (by simp)).mp hfn
    cases hrest with
    | nil => simp [headerErrors, Header.read, hl, hm]
    | @cons name name' after after' hname hafter =>
      have hkind := hname.kind_eq
      by_cases hk : name.kind = .routineName
      · obtain rfl := hname.eq (by simp [hk])
        cases hafter with
        | nil => simp [headerErrors, Header.read, hl, hm, hk, Header.Note.isError]
        | @cons bracket bracket' ts us hbracket hts =>
          simp only [hfn, hfn', hk, ne_eq, not_true_eq_false, if_false, List.forall₂_cons]
            at hinspected
          have hopen : bracket.value = "(" ↔ bracket'.value = "(" :=
            hinspected.1.token "(" (by simp)
          by_cases hb : bracket.value = "("
          · have hb' := hopen.mp hb
            have hpart := hinspected.2
            simp only [hb, hb', if_true, List.forall₂_map_left_iff, List.forall₂_map_right_iff]
              at hpart
            have hargs := Header.agree_readArguments hts (hpart.imp fun _ _ h => h.token)
            have herrors : (Header.readArguments ts).errors = (Header.readArguments us).errors := by
              simp only [Header.Arguments.errors, hargs.nested, hargs.closed]
            refine ⟨?_, by rw [headerErrors_eq hl hk hb, headerErrors_eq hm hk hb', herrors]⟩
            simp only [Header.read, hl, hm, List.drop_one, List.tail_cons, hk, hb, hb', ne_eq,
              not_true_eq_false, if_false, Option.map_some, Routine.outline, hargs.taken,
              Header.outline_inlineBody hnumber hargs.rest]
          · have hb' : bracket'.value ≠ "(" := fun h => hb (hopen.mpr h)
            simp [headerErrors, Header.read, hl, hm, hk, hb, hb', Header.Note.isError]
      · simp [headerErrors, Header.read, hl, hm, hk, hkind ▸ hk]

theorem sameOutline_of_alike {l m : Line} (h : l.Alike m) : l.SameOutline m where
  outline := by
    simp only [outline, h.number, h.tokens.length_eq]
  starts := by
    have htokens := h.tokens
    have hinspected := h.inspections
    cases hl : l.tokens with
    | nil =>
      rw [hl, List.forall₂_nil_left_iff] at htokens
      simp [startsRoutine, hl, htokens]
    | cons first rest =>
      rw [hl] at htokens
      obtain ⟨first', rest', -, -, hm⟩ := List.forall₂_cons_left_iff.mp htokens
      simp only [Line.inspections, hl, hm, List.forall₂_cons] at hinspected
      have hfn : first.value = "fn" ↔ first'.value = "fn" := hinspected.1.token "fn" (by simp)
      simp [startsRoutine, hl, hm, hfn]
  routine hstart := (outline_read h hstart).1
  errors hstart := (outline_read h hstart).2

/-- If no literal of a line is looked at, what is looked at is the same whatever they say. -/
theorem inspections_eq {l m : Line} (h : l.Agree m) (hs : ∀ t ∈ l.inspected, t.kind ≠ .string) :
    l.inspections = m.inspections := by
  have htokens := h.tokens
  cases hl : l.tokens with
  | nil =>
    rw [hl, List.forall₂_nil_left_iff] at htokens
    simp [inspections, hl, htokens]
  | cons first rest =>
    rw [hl] at htokens
    obtain ⟨first', rest', hfirst, hrest, hm⟩ := List.forall₂_cons_left_iff.mp htokens
    obtain rfl := hfirst.eq (hs first (by simp [inspected, inspections, hl]))
    simp only [inspected, inspections, hl] at hs
    simp only [inspections, hl, hm]
    by_cases hfn : first.value = "fn"
    · cases hrest with
      | nil => rfl
      | @cons name name' after after' hname hafter =>
        cases hafter with
        | nil => rfl
        | @cons bracket bracket' ts us hbracket hts =>
          by_cases hk : name.kind = .routineName
          · obtain rfl := hbracket.eq (hs bracket (by simp [hfn, hk]))
            by_cases hb : bracket.value = "("
            · have hpart := Header.argumentPart_eq hts fun t ht => hs t (by simp [hfn, hk, hb, ht])
              simp [hfn, hk, hname.kind_eq ▸ hk, hb, hpart]
            · simp [hfn, hk, hname.kind_eq ▸ hk, hb]
          · simp [hfn, hk, hname.kind_eq ▸ hk]
    · simp [hfn]

end Line

namespace Block

/-- Blocks that have the same part in the structure of a listing. -/
structure SameOutline (b c : Block) : Prop where
  routine : b.routine?.map Routine.outline = c.routine?.map Routine.outline
  dangling : b.dangling.map Line.number = c.dangling.map Line.number
  errors : b.notes.countP Header.Note.isError = c.notes.countP Header.Note.isError

theorem number_of_outline {ls ms : List Line} (h : ls.map Line.outline = ms.map Line.outline) :
    ls.map Line.number = ms.map Line.number := by
  simpa [Line.outline, Function.comp_def] using congrArg (List.map Prod.fst) h

theorem sameOutline_mk {l m : Line} {before before' : List Line} (h : l.SameOutline m)
    (hl : l.startsRoutine = true)
    (hbody : before.map Line.outline = before'.map Line.outline) :
    SameOutline ⟨l, before⟩ ⟨m, before'⟩ := by
  have hr := h.routine hl
  cases hlr : (Header.read l).routine with
  | none =>
    have hmr : (Header.read m).routine = none := by simpa [hlr] using hr.symm
    exact ⟨by simp [routine?, hlr, hmr], by simpa [dangling, hlr, hmr] using number_of_outline hbody,
      h.errors hl⟩
  | some r =>
    obtain ⟨r', hmr, hrr⟩ : ∃ r', (Header.read m).routine = some r' ∧ r'.outline = r.outline := by
      simpa [hlr] using hr.symm
    simp only [Routine.outline, Routine.Outline.mk.injEq] at hrr
    obtain ⟨hname, hargs, hlines⟩ := hrr
    exact ⟨by simp [routine?, hlr, hmr, Routine.outline, hname, hargs, hlines, hbody],
      by simp [dangling, hlr, hmr], h.errors hl⟩

theorem sameOutline_split {ls ms : List Line} (h : List.Forall₂ Line.SameOutline ls ms) :
    (split ls).1.map Line.outline = (split ms).1.map Line.outline ∧
      List.Forall₂ SameOutline (split ls).2 (split ms).2 := by
  induction h with
  | nil => exact ⟨rfl, .nil⟩
  | @cons l m ls ms hlm hrest ih =>
    obtain ⟨hbefore, hblocks⟩ := ih
    by_cases hl : l.startsRoutine = true
    · rw [split_cons_header hl, split_cons_header (hlm.starts ▸ hl)]
      exact ⟨rfl, .cons (sameOutline_mk hlm hl hbefore) hblocks⟩
    · have hl : l.startsRoutine = false := by simpa using hl
      rw [split_cons_body hl, split_cons_body (hlm.starts ▸ hl)]
      exact ⟨by simp only [List.map_cons, hlm.outline, hbefore], hblocks⟩

end Block

namespace Extraction

open Block

theorem countP_tokens (ls : List Line) :
    ls.countP (fun l => !l.tokens.isEmpty) = (ls.map Line.outline).countP fun o => o.2 ≠ 0 := by
  rw [List.countP_map]
  congr 1
  funext l
  cases h : l.tokens <;> simp [Line.outline, h]

theorem outline_blocks {bs cs : List Block} (h : List.Forall₂ SameOutline bs cs) :
    (bs.filterMap routine?).map Routine.outline = (cs.filterMap routine?).map Routine.outline ∧
      (bs.flatMap Block.dangling).map Line.number = (cs.flatMap Block.dangling).map Line.number ∧
        (bs.flatMap notes).countP Header.Note.isError =
          (cs.flatMap notes).countP Header.Note.isError := by
  simp only [List.map_filterMap]
  induction h with
  | nil => exact ⟨rfl, rfl, rfl⟩
  | @cons b c bs cs hbc hrest ih =>
    obtain ⟨hroutines, hdangling, herrors⟩ := ih
    refine ⟨?_, by simp [hbc.dangling, hdangling], by simp [hbc.errors, herrors]⟩
    simp only [List.filterMap_cons, hbc.routine, hroutines]

theorem outline_eq {ls ms : List Line} (h : List.Forall₂ Line.SameOutline ls ms) :
    (ofLines ls).outline = (ofLines ms).outline := by
  obtain ⟨hbefore, hblocks⟩ := sameOutline_split h
  obtain ⟨hroutines, hdangling, herrors⟩ := outline_blocks hblocks
  simp only [ofLines_eq_grouped, grouped, outline, hroutines, List.map_append, hdangling,
    number_of_outline hbefore, countP_tokens, hbefore, herrors]

theorem opens_eq {pre post : List Line} {l m : Line}
    (h : (ofLines (pre ++ l :: post)).outline = (ofLines (pre ++ m :: post)).outline) :
    l.opens = m.opens := by
  have hlen := congrArg (fun o => o.routines.length) h
  simp only [outline, List.length_map, length_routines, List.countP_append, List.countP_cons] at hlen
  cases hl : l.opens <;> cases hm : m.opens <;> simp [hl, hm] at hlen ⊢

theorem length_kept_eq {pre post : List Line} {l m : Line}
    (h : (ofLines (pre ++ l :: post)).outline = (ofLines (pre ++ m :: post)).outline) :
    l.kept.length = m.kept.length := by
  have hsize (ls : List Line) :
      ((ofLines ls).outline.routines.flatMap Routine.Outline.body).length +
        (ofLines ls).outline.dangling.length = (ls.flatMap Line.kept).length := by
    rw [← (perm_kept ls).length_eq, List.length_append]
    simp [outline, Routine.outline, List.flatMap_map, List.length_flatMap]
  have hlen := (hsize (pre ++ l :: post)).symm.trans
    ((congrArg (fun o => (o.routines.flatMap Routine.Outline.body).length + o.dangling.length) h).trans
      (hsize (pre ++ m :: post)))
  simp only [List.flatMap_append, List.flatMap_cons, List.length_append] at hlen
  omega

theorem headerErrors_eq {pre post : List Line} {l m : Line} (hl : l.startsRoutine = true)
    (hm : m.startsRoutine = true)
    (h : (ofLines (pre ++ l :: post)).outline = (ofLines (pre ++ m :: post)).outline) :
    l.headerErrors = m.headerErrors := by
  have hcount := congrArg Outline.errorCount h
  simp only [outline, ofLines_eq_grouped, grouped, split_append_header hl, split_append_header hm,
    List.flatMap_append, List.flatMap_cons, List.countP_append] at hcount
  have hnotes (x : Line) (body : List Line) :
      (notes ⟨x, body⟩).countP Header.Note.isError = x.headerErrors := rfl
  rw [hnotes, hnotes] at hcount
  omega

theorem startsRoutine_eq_false {pre post : List Line} {l m : Line}
    (h : (ofLines (pre ++ l :: post)).outline = (ofLines (pre ++ m :: post)).outline)
    (hl : l.startsRoutine = false) : m.startsRoutine = false := by
  by_contra hm
  have hm : m.startsRoutine = true := by simpa using hm
  have hopens : m.opens = false := by
    rw [← opens_eq h]
    simp [Line.opens, hl]
  have hnone : (Header.read m).routine = none := by simpa [Line.opens, hm] using hopens
  have hlen := length_kept_eq h
  simp [Line.kept, hl, hm, hnone] at hlen

/-- Whether a line starts a routine shows: a header that opens one adds to the routines, and of
one that opens none nothing is kept. -/
theorem startsRoutine_eq {pre post : List Line} {l m : Line}
    (h : (ofLines (pre ++ l :: post)).outline = (ofLines (pre ++ m :: post)).outline) :
    l.startsRoutine = m.startsRoutine := by
  cases hl : l.startsRoutine with
  | false => exact (startsRoutine_eq_false h hl).symm
  | true =>
    by_contra hm
    have hm : m.startsRoutine = false := by simpa using hm
    simp [startsRoutine_eq_false h.symm hm] at hl

end Extraction

namespace Line

theorem exists_startsRoutine_ne {l : Line} {first : Token} {rest : List Token}
    (ht : l.tokens = first :: rest) (hs : first.kind = .string) :
    ∃ m, l.Agree m ∧ l.startsRoutine ≠ m.startsRoutine := by
  let v := if first.value = "fn" then "" else "fn"
  refine ⟨{ l with tokens := { first with value := v } :: rest }, ⟨?_, rfl, rfl, rfl⟩, ?_⟩
  · rw [ht]
    exact .cons (Or.inr ⟨hs, v, rfl⟩) (Token.Agree.refl_all rest)
  · by_cases hfn : first.value = "fn" <;> simp [startsRoutine, ht, hfn, v]

theorem exists_opens_ne {l : Line} {first name bracket : Token} {ts : List Token}
    (ht : l.tokens = first :: name :: bracket :: ts) (hfn : first.value = "fn")
    (hname : name.kind = .routineName) (hs : bracket.kind = .string) :
    ∃ m, l.Agree m ∧ l.opens ≠ m.opens := by
  let v := if bracket.value = "(" then "" else "("
  refine ⟨{ l with tokens := first :: name :: { bracket with value := v } :: ts },
    ⟨?_, rfl, rfl, rfl⟩, ?_⟩
  · rw [ht]
    exact .cons (Token.Agree.refl _) (.cons (Token.Agree.refl _)
      (.cons (Or.inr ⟨hs, v, rfl⟩) (Token.Agree.refl_all ts)))
  · by_cases hb : bracket.value = "(" <;>
      simp [opens, startsRoutine, Header.read, ht, hfn, hname, hb, v]

theorem exists_headerErrors_ne {l : Line} {first name bracket t : Token} {ts : List Token}
    (ht : l.tokens = first :: name :: bracket :: ts) (hname : name.kind = .routineName)
    (hb : bracket.value = "(") (hmem : t ∈ Header.argumentPart ts) (hs : t.kind = .string) :
    ∃ m, l.Agree m ∧ m.startsRoutine = l.startsRoutine ∧ l.headerErrors ≠ m.headerErrors := by
  obtain ⟨us, hus, hne⟩ := Header.exists_errors_ne hmem hs
  refine ⟨{ l with tokens := first :: name :: bracket :: us }, ⟨?_, rfl, rfl, rfl⟩, ?_, ?_⟩
  · rw [ht]
    exact .cons (Token.Agree.refl _) (.cons (Token.Agree.refl _) (.cons (Token.Agree.refl _) hus))
  · simp [startsRoutine, ht]
  · rw [headerErrors_eq ht hname hb, headerErrors_eq rfl hname hb]
    exact hne.symm

end Line

namespace Extraction

/-- A literal that the extraction looks at can be made to change the structure. -/
theorem exists_outline_ne (pre post : List Line) {l : Line} {t : Token} (ht : t ∈ l.inspected)
    (hs : t.kind = .string) :
    ∃ m, l.Agree m ∧
      (ofLines (pre ++ m :: post)).outline ≠ (ofLines (pre ++ l :: post)).outline := by
  cases hl : l.tokens with
  | nil => simp [Line.inspected, Line.inspections, hl] at ht
  | cons first rest =>
    by_cases hf : first.kind = .string
    · obtain ⟨m, hm, hne⟩ := Line.exists_startsRoutine_ne hl hf
      exact ⟨m, hm, fun h => hne (startsRoutine_eq h.symm)⟩
    · have hne : t ≠ first := fun h => hf (h ▸ hs)
      by_cases hfn : first.value = "fn"
      · match rest, hl with
        | [], hl => simp [Line.inspected, Line.inspections, hl, hne] at ht
        | [_], hl => simp [Line.inspected, Line.inspections, hl, hne] at ht
        | name :: bracket :: ts, hl =>
          by_cases hk : name.kind = .routineName
          · by_cases hbs : bracket.kind = .string
            · obtain ⟨m, hm, hopens⟩ := Line.exists_opens_ne hl hfn hk hbs
              exact ⟨m, hm, fun h => hopens (opens_eq h.symm)⟩
            · have hnb : t ≠ bracket := fun h => hbs (h ▸ hs)
              by_cases hb : bracket.value = "("
              · have hmem : t ∈ Header.argumentPart ts := by
                  simpa [Line.inspected, Line.inspections, hl, hfn, hk, hb, hne, hnb] using ht
                obtain ⟨m, hm, hstart, herrors⟩ := Line.exists_headerErrors_ne hl hk hb hmem hs
                have hls : l.startsRoutine = true := by simp [Line.startsRoutine, hl, hfn]
                exact ⟨m, hm, fun h => herrors (headerErrors_eq hls (hstart.trans hls) h.symm)⟩
              · simp [Line.inspected, Line.inspections, hl, hfn, hk, hb, hne, hnb] at ht
          · simp [Line.inspected, Line.inspections, hl, hfn, hk, hne] at ht
      · simp [Line.inspected, Line.inspections, hl, hfn, hne] at ht

/-- Literals that read as what is looked for in their place only where they do so in both listings
do not bear on the structure. It is the same whatever the literals say exactly if the extraction
looks at none of them. -/
theorem outline_of_literals (ls : List Line) :
    (∀ ms, List.Forall₂ Line.Alike ls ms → (ofLines ms).outline = (ofLines ls).outline) ∧
      ((∀ ms, List.Forall₂ Line.Agree ls ms → (ofLines ms).outline = (ofLines ls).outline) ↔
        ∀ l ∈ ls, ∀ t ∈ l.inspected, t.kind ≠ .string) := by
  have halike : ∀ ms, List.Forall₂ Line.Alike ls ms →
      (ofLines ms).outline = (ofLines ls).outline := by
    intro ms hms
    exact (outline_eq (hms.imp fun _ _ => Line.sameOutline_of_alike)).symm
  refine ⟨halike, ?_, ?_⟩
  · intro h l hl t ht hs
    obtain ⟨pre, post, rfl⟩ := List.append_of_mem hl
    obtain ⟨m, hm, hne⟩ := exists_outline_ne pre post ht hs
    refine hne (h _ (List.rel_append ?_ (.cons hm ?_)))
    · exact List.forall₂_same.mpr fun x _ => Line.Agree.refl x
    · exact List.forall₂_same.mpr fun x _ => Line.Agree.refl x
  · intro h ms hms
    have hall := (List.forall₂_and_left _ _).mpr ⟨h, hms⟩
    refine halike ms (hall.imp fun l m hlm => ⟨hlm.2, ?_⟩)
    rw [← Line.inspections_eq hlm.2 hlm.1]
    exact List.forall₂_same.mpr fun x _ => ⟨rfl, fun _ _ => Iff.rfl⟩

/-- The literal of the second line ends the routine if it reads `fn`, and is part of the routine if
it reads otherwise. -/
theorem literal_ends_routine :
    let header : Line :=
      ⟨[⟨.keyword, "fn", 0⟩, ⟨.routineName, "main", 3⟩, ⟨.bracket, "(", 8⟩, ⟨.bracket, ")", 10⟩],
        "fn main ( )", 1, none⟩
    let quoted (text : String) : Line := ⟨[⟨.string, text, 0⟩], "\"fn\"", 2, none⟩
    List.Forall₂ Line.Agree [header, quoted "fn"] [header, quoted "gn"] ∧
      (ofLines [header, quoted "fn"]).outline ≠ (ofLines [header, quoted "gn"]).outline := by
  intro header quoted
  have hagree : (quoted "fn").Agree (quoted "gn") :=
    ⟨.cons (Or.inr ⟨rfl, "gn", rfl⟩) .nil, rfl, rfl, rfl⟩
  exact ⟨.cons (Line.Agree.refl header) (.cons hagree .nil), by decide⟩

end Extraction
end LineAssembly
