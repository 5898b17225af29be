import LineAssembly.Proofs.Source.Grouping
import LineAssembly.Proofs.Source.Listing

/-! Relocation: tokens move to other columns, and lines to other texts and numbers. Reading a
program hangs on none of these, so that it commutes with every relocation. -/
namespace LineAssembly

/-- How the columns of tokens and the texts and numbers of lines change. -/
structure Relocation where
  column : Nat → Nat := id
  source : String → String := id
  number : Int → Int := id

variable (ρ : Relocation)

def Label.relocate (l : Label) : Label := { l with line := ρ.number l.line }

theorem Label.relocate_of_number {ρ : Relocation} (hnumber : ρ.number = id) :
    Label.relocate ρ = id := by
  funext l
  rw [relocate, hnumber]
  rfl

def Token.Kind.relocate : Token.Kind → Token.Kind
  | .label place => .label (place.relocate ρ)
  | kind => kind

def Token.relocate (t : Token) : Token :=
  { t with kind := t.kind.relocate ρ, column := ρ.column t.column }

def Line.relocate (l : Line) : Line :=
  { l with
    tokens := l.tokens.map (Token.relocate ρ)
    source := ρ.source l.source
    number := ρ.number l.number }

def Routine.relocate (r : Routine) : Routine :=
  { r with
    arguments := r.arguments.map (Token.relocate ρ)
    lines := r.lines.map (Line.relocate ρ) }

def Program.relocate (p : Program) : Program :=
  { routines := p.routines.map (Routine.relocate ρ)
    dangling := p.dangling.map (Line.relocate ρ)
    lines := p.lines.map (Line.relocate ρ)
    errorCount := p.errorCount }

namespace Token

@[simp] theorem value_relocate (t : Token) : (t.relocate ρ).value = t.value := rfl

@[simp] theorem kind_relocate (t : Token) : (t.relocate ρ).kind = t.kind.relocate ρ := rfl

/-- Only labels carry a place, so that a token is of any other kind before and after. -/
@[simp] theorem Kind.relocate_eq_iff {k k' : Kind} (hk' : ∀ place, k' ≠ .label place) :
    k.relocate ρ = k' ↔ k = k' := by
  cases k with
  | label place =>
    have hne (l : Label) : Kind.label l ≠ k' := (hk' l).symm
    simp only [relocate, hne]
  | _ => rfl

theorem relocate_default : relocate {} = id := by
  funext ⟨kind, value, column⟩
  cases kind <;> rfl

theorem label?_relocate (t : Token) : (t.relocate ρ).label? = t.label?.map (Label.relocate ρ) := by
  obtain ⟨kind, value, column⟩ := t
  cases kind <;> rfl

end Token

namespace Line

@[simp] theorem tokens_relocate (l : Line) :
    (l.relocate ρ).tokens = l.tokens.map (Token.relocate ρ) := rfl

@[simp] theorem number_relocate (l : Line) : (l.relocate ρ).number = ρ.number l.number := rfl

@[simp] theorem startsRoutine_relocate (l : Line) :
    (l.relocate ρ).startsRoutine = l.startsRoutine := by
  simp only [startsRoutine, tokens_relocate, List.head?_map]
  cases l.tokens.head? <;> rfl

theorem relocate_default : relocate {} = id := by
  funext l
  rw [relocate, Token.relocate_default, List.map_id]
  rfl

theorem labels_relocate (l : Line) : (l.relocate ρ).labels = l.labels.map (Label.relocate ρ) := by
  have hlabel : Token.label? ∘ Token.relocate ρ = fun t => t.label?.map (Label.relocate ρ) :=
    funext (Token.label?_relocate ρ)
  rw [labels, tokens_relocate, List.filterMap_map, hlabel, labels, List.map_filterMap]

end Line

theorem Program.labels_relocate (p : Program) :
    (p.relocate ρ).labels = p.labels.map (Label.relocate ρ) := by
  simp only [labels, relocate, List.flatMap_map, List.map_flatMap, Line.labels_relocate]

namespace Header

def Note.relocate : Note → Note
  | .noBracket name line => .noBracket name (ρ.number line)
  | note => note

def Arguments.relocate (a : Arguments) : Arguments :=
  { a with
    taken := a.taken.map (Token.relocate ρ)
    rest := a.rest.map (List.map (Token.relocate ρ)) }

def Reading.relocate (r : Reading) : Reading :=
  ⟨r.notes.map (Note.relocate ρ), r.routine.map (Routine.relocate ρ)⟩

theorem Note.isError_relocate (note : Note) : (note.relocate ρ).isError = note.isError := by
  cases note <;> rfl

theorem readArguments_relocate (ts : List Token) :
    readArguments (ts.map (Token.relocate ρ)) = (readArguments ts).relocate ρ := by
  induction ts with
  | nil => rfl
  | cons t ts ih =>
    simp only [List.map_cons, readArguments, Token.value_relocate, ih]
    split
    · rfl
    · split
      · rfl
      · rfl

theorem inlineBody_relocate (l : Line) (rest : List Token) :
    inlineBody (l.relocate ρ) (rest.map (Token.relocate ρ)) =
      (inlineBody l rest).map (Line.relocate ρ) := by
  have hfilter : (rest.map (Token.relocate ρ)).filter (fun t => t.kind ≠ .bracket) =
      (rest.filter fun t => t.kind ≠ .bracket).map (Token.relocate ρ) := by
    rw [List.filter_map]
    congr 2
    funext t
    simp
  simp only [inlineBody, hfilter, List.isEmpty_map]
  split
  · rfl
  · rfl

theorem read_relocate (l : Line) : read (l.relocate ρ) = (read l).relocate ρ := by
  simp only [read, Line.tokens_relocate, ← List.map_drop]
  cases l.tokens.drop 1 with
  | nil => rfl
  | cons name afterName =>
    by_cases hname : name.kind = .routineName
    · cases afterName with
      | nil => simp [hname, Reading.relocate, Note.relocate]
      | cons bracket tokens =>
        by_cases hbracket : bracket.value = "("
        · have hrest : ((readArguments tokens).rest.map (List.map (Token.relocate ρ))).getD [] =
              ((readArguments tokens).rest.getD []).map (Token.relocate ρ) := by
            cases (readArguments tokens).rest <;> rfl
          simp [hname, hbracket, Reading.relocate, readArguments_relocate, Arguments.relocate,
            Routine.relocate, hrest, inlineBody_relocate, apply_ite, Note.relocate]
        · simp [hname, hbracket, Reading.relocate, Note.relocate]
    · simp [hname, Reading.relocate, Note.relocate]

end Header

def Block.relocate (b : Block) : Block := ⟨b.header.relocate ρ, b.body.map (Line.relocate ρ)⟩

namespace Block

theorem split_relocate (ls : List Line) :
    split (ls.map (Line.relocate ρ)) =
      ((split ls).1.map (Line.relocate ρ), (split ls).2.map (relocate ρ)) := by
  induction ls with
  | nil => rfl
  | cons l ls ih =>
    simp only [List.map_cons, split, ih, Line.startsRoutine_relocate]
    split
    · rfl
    · rfl

theorem routine?_relocate (b : Block) :
    (b.relocate ρ).routine? = b.routine?.map (Routine.relocate ρ) := by
  simp only [routine?, relocate, Header.read_relocate, Header.Reading.relocate, Option.map_map]
  congr 1
  funext r
  simp [Routine.relocate]

theorem dangling_relocate (b : Block) :
    (b.relocate ρ).dangling = b.dangling.map (Line.relocate ρ) := by
  simp only [dangling, relocate, Header.read_relocate, Header.Reading.relocate, Option.isNone_map]
  split
  · rfl
  · rfl

theorem notes_relocate (b : Block) :
    (b.relocate ρ).notes = b.notes.map (Header.Note.relocate ρ) := by
  rw [notes, relocate, Header.read_relocate]
  rfl

end Block

namespace Extraction

theorem routines_relocate (ls : List Line) :
    (ofLines (ls.map (Line.relocate ρ))).routines =
      (ofLines ls).routines.map (Routine.relocate ρ) := by
  simp only [routines_ofLines, Block.split_relocate, List.filterMap_map, List.map_filterMap,
    Function.comp_def, Block.routine?_relocate]

theorem dangling_relocate (ls : List Line) :
    (ofLines (ls.map (Line.relocate ρ))).dangling =
      (ofLines ls).dangling.map (Line.relocate ρ) := by
  simp only [dangling_ofLines, Block.split_relocate, List.flatMap_map, List.map_flatMap, List.map_append,
    Block.dangling_relocate]

theorem errorCount_relocate (ls : List Line) :
    (ofLines (ls.map (Line.relocate ρ))).errorCount = (ofLines ls).errorCount := by
  simp only [errorCount_ofLines, Block.split_relocate, List.flatMap_map, List.countP_map, Function.comp_def,
    Block.notes_relocate, Line.tokens_relocate, List.isEmpty_map]
  congr 1
  rw [← List.map_flatMap, List.countP_map]
  congr 1
  funext note
  exact Header.Note.isError_relocate ρ note

end Extraction

def Word.relocate (w : Word) : Word := { w with column := ρ.column w.column }

def Item.relocate : Item → Item
  | .token t => .token (t.relocate ρ)
  | .dropped w => .dropped (w.relocate ρ)
  | i => i

namespace Mode

def relocate : Mode → Mode
  | .inString column parts => .inString (ρ.column column) parts
  | mode => mode

theorem plainStep_relocate (number : Int) (started : Bool) (w : Word) :
    plainStep (ρ.number number) started (w.relocate ρ) =
      ((plainStep number started w).1.map (Item.relocate ρ),
        (plainStep number started w).2.relocate ρ) := by
  have htext : (w.relocate ρ).text = w.text := rfl
  unfold plainStep
  rw [htext]
  cases Word.classOf w.text with
  | numeral => cases Decimal.read w.text.toList <;> rfl
  | other => cases started <;> rfl
  | _ => rfl

theorem step_relocate (number : Int) (mode : Mode) (w : Word) :
    step (ρ.number number) (mode.relocate ρ) (w.relocate ρ) =
      ((step number mode w).1.map (Item.relocate ρ), (step number mode w).2.relocate ρ) := by
  have htext : (w.relocate ρ).text = w.text := rfl
  cases mode with
  | plain started => exact plainStep_relocate ρ number started w
  | afterFn =>
    simp only [relocate, step, htext, plainStep_relocate]
    split
    · rfl
    · rfl
  | inString column parts =>
    simp only [relocate, step, htext]
    split
    · rfl
    · rfl
  | _ => rfl

theorem finish_relocate (mode : Mode) :
    (mode.relocate ρ).finish = mode.finish.map (Item.relocate ρ) := by
  cases mode <;> rfl

end Mode

/-- Only labels take the number of their line, and only tokens and dropped words their column. -/
theorem classify_relocate (number : Int) (mode : Mode) (ws : List Word) :
    classify (ρ.number number) (mode.relocate ρ) (ws.map (Word.relocate ρ)) =
      (classify number mode ws).map (Item.relocate ρ) := by
  induction ws generalizing mode with
  | nil => exact mode.finish_relocate ρ
  | cons w ws ih =>
    rw [List.map_cons, classify, classify, Mode.step_relocate, ih, List.map_append]

namespace Item

theorem overlong?_relocate (i : Item) : (i.relocate ρ).overlong? = i.overlong? := by
  cases i <;> rfl

theorem comment?_relocate (i : Item) : (i.relocate ρ).comment? = i.comment? := by
  cases i <;> rfl

theorem token?_relocate (i : Item) : (i.relocate ρ).token? = i.token?.map (Token.relocate ρ) := by
  cases i <;> rfl

theorem isError_relocate (i : Item) : (i.relocate ρ).isError = i.isError := by
  cases i <;> rfl

theorem readable_relocate (items : List Item) :
    readable (items.map (relocate ρ)) = (readable items).map (relocate ρ) := by
  simp only [readable, List.takeWhile_map, Function.comp_def, overlong?_relocate]

end Item

namespace LineReading

theorem result_relocate (number : Int) (raw : String) (items : List Item) :
    (ofItems (ρ.number number) (ρ.source raw) (items.map (Item.relocate ρ))).result =
      (ofItems number raw items).result.map (Line.relocate ρ) := by
  simp only [ofItems, List.findSome?_map, List.filterMap_map, Function.comp_def,
    Item.overlong?_relocate, Item.comment?_relocate, Item.token?_relocate]
  cases items.findSome? Item.overlong? with
  | some excess => rfl
  | none => simp only [Except.map, Line.relocate, List.map_filterMap]

end LineReading

namespace Item

theorem map_relocate_ofLine (number : Int) (raw : String) :
    (ofLine number raw).map (relocate ρ) =
      classify (ρ.number number) (.plain false) ((Word.scan raw).map (Word.relocate ρ)) :=
  (classify_relocate ρ number (.plain false) (Word.scan raw)).symm

variable {ρ}

/-- Under another number a line has the same items, but for the places of its labels. -/
theorem ofLine_relocate (hcolumn : ρ.column = id) (number : Int) (raw : String) :
    ofLine (ρ.number number) raw = (ofLine number raw).map (relocate ρ) := by
  have hword : Word.relocate ρ = id := by
    funext w
    rw [Word.relocate, hcolumn]
    rfl
  rw [map_relocate_ofLine, hword, List.map_id]
  rfl

end Item

namespace Line

theorem result_read_relocate {ρ : Relocation} (hcolumn : ρ.column = id) (hsource : ρ.source = id)
    (number : Int) (raw : String) :
    (read (ρ.number number) raw).result = (read number raw).result.map (relocate ρ) := by
  have hresult := LineReading.result_relocate ρ number raw (Item.ofLine number raw)
  rw [hsource] at hresult
  rw [read_eq_ofItems, read_eq_ofItems, Item.ofLine_relocate hcolumn, ← hresult]
  rfl

namespace IsRead

variable {ρ ρ' : Relocation} {l : Line}

theorem relocate (h : l.IsRead) (hcolumn : ρ.column = id) (hsource : ρ.source = id) :
    (l.relocate ρ).IsRead := by
  have hself : (read l.number l.source).result = .ok l := h
  have hread := result_read_relocate hcolumn hsource l.number l.source
  rw [hself] at hread
  exact isRead_of_read hread

/-- The places on a line that was read are those of the line, so that it moves by its number. -/
theorem relocate_congr (h : l.IsRead) (hcolumn : ρ.column = id) (hsource : ρ.source = id)
    (hcolumn' : ρ'.column = id) (hsource' : ρ'.source = id)
    (hnumber : ρ.number l.number = ρ'.number l.number) : l.relocate ρ = l.relocate ρ' := by
  have hself : (read l.number l.source).result = .ok l := h
  have hread := result_read_relocate hcolumn hsource l.number l.source
  rw [hnumber, result_read_relocate hcolumn' hsource', hself] at hread
  exact (Except.ok.inj hread).symm

end IsRead

theorem errors_read (number number' : Int) (raw : String) :
    (read number' raw).errors = (read number raw).errors := by
  have hitems : Item.ofLine number' raw =
      (Item.ofLine number raw).map (Item.relocate { number := fun _ => number' }) :=
    Item.ofLine_relocate (ρ := { number := fun _ => number' }) rfl number raw
  simp only [read_eq_ofItems, LineReading.ofItems, hitems, Item.readable_relocate, List.countP_map,
    Function.comp_def, Item.isError_relocate]

end Line
end LineAssembly
