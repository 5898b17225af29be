import LineAssembly.Proofs.Source.Concatenation

/-! Definitions: a header that opens a routine, with the lines of its body. A text made of
definitions has their routines, each as its own lines give it. Only the places of the lines hang on
what stands around a definition, so that they are forgotten here. -/
namespace LineAssembly

/-- The text and the number of a line forgotten. -/
def Relocation.anywhere : Relocation := { source := fun _ => "", number := fun _ => 0 }

theorem Word.scan_dropReturn (raw : String) :
    scan (String.ofList (Text.dropReturn raw.toList)) = scan raw := by
  rw [scan, scan, String.toList_ofList, Text.dropReturn]
  split
  · rename_i hlast
    obtain ⟨init, hinit⟩ := List.getLast?_eq_some_iff.mp hlast
    rw [hinit, List.dropLast_concat, scanFrom_concat_blank _ _ _ _ (by decide)]
  · rfl

theorem Item.ofLine_dropReturn (number : Int) (raw : String) :
    ofLine number (String.ofList (Text.dropReturn raw.toList)) = ofLine number raw := by
  rw [ofLine, ofLine, Word.scan_dropReturn]

namespace Line

/-- A source has no numeral that is too long, so that it can be read. -/
def Reads (raw : String) : Prop := (Item.ofLine 0 raw).findSome? Item.overlong? = none

def bare (raw : String) : Line :=
  ⟨(Item.ofLine 0 raw).filterMap Item.token?, "", 0, (Item.ofLine 0 raw).findSome? Item.comment?⟩

theorem bare_dropReturn (raw : String) :
    bare (String.ofList (Text.dropReturn raw.toList)) = bare raw := by
  rw [bare, bare, Item.ofLine_dropReturn]

theorem errors_read_dropReturn (number : Int) (raw : String) :
    (read number (String.ofList (Text.dropReturn raw.toList))).errors =
      (read number raw).errors := by
  rw [read_eq_ofItems, read_eq_ofItems, Item.ofLine_dropReturn]
  rfl

theorem result_read_anywhere (number : Int) (raw : String) :
    (read number raw).result.map (relocate .anywhere) =
      (LineReading.ofItems 0 "" (Item.ofLine 0 raw)).result := by
  have hitems := Item.ofLine_relocate (ρ := .anywhere) rfl number raw
  have hresult := LineReading.result_relocate .anywhere number raw (Item.ofLine number raw)
  rw [← hitems] at hresult
  exact hresult.symm

theorem exists_read {raw : String} (h : Reads raw) (number : Int) :
    ∃ l, (read number raw).result = .ok l ∧ l.relocate .anywhere = bare raw := by
  have hresult := result_read_anywhere number raw
  have hbare : (LineReading.ofItems 0 "" (Item.ofLine 0 raw)).result = .ok (bare raw) := by
    rw [Reads] at h
    simp only [LineReading.ofItems, h, bare]
  rw [hbare] at hresult
  cases hread : (read number raw).result with
  | error excess =>
    rw [hread] at hresult
    cases hresult
  | ok l =>
    rw [hread] at hresult
    exact ⟨l, rfl, Except.ok.inj hresult⟩

theorem reads_of_read {number : Int} {raw : String} {l : Line}
    (h : (read number raw).result = .ok l) : Reads raw := by
  have hresult := result_read_anywhere number raw
  rw [h] at hresult
  unfold Reads
  cases hoverlong : (Item.ofLine 0 raw).findSome? Item.overlong? with
  | none => rfl
  | some excess =>
    simp only [LineReading.ofItems, hoverlong] at hresult
    cases hresult

end Line

namespace Listing

theorem reads_of_addAll {l l' : Listing} {raws : List String} (h : (l.addAll raws).2 = .ok l') :
    ∀ raw ∈ raws, Line.Reads raw := by
  induction raws generalizing l with
  | nil => simp
  | cons raw raws ih =>
    cases hread : (Line.read l.next raw).result with
    | error excess =>
      rw [addAll_cons_of_error hread] at h
      cases h
    | ok line =>
      rw [addAll_cons_of_ok hread] at h
      exact List.forall_mem_cons.mpr ⟨Line.reads_of_read hread, ih h⟩

theorem addAll_of_reads (l : Listing) {raws : List String} (h : ∀ raw ∈ raws, Line.Reads raw) :
    ∃ l', (l.addAll raws).2 = .ok l' ∧
      l'.lines.map (Line.relocate .anywhere) =
        l.lines.map (Line.relocate .anywhere) ++ raws.map Line.bare ∧
      l'.errorCount = l.errorCount + (raws.map fun raw => (Line.read 0 raw).errors).sum := by
  induction raws generalizing l with
  | nil => exact ⟨l, rfl, by simp, by simp⟩
  | cons raw raws ih =>
    obtain ⟨hraw, hraws⟩ := List.forall_mem_cons.mp h
    obtain ⟨line, hread, hbare⟩ := Line.exists_read hraw l.next
    obtain ⟨l', hl', hlines, hcount⟩ := ih (l.append line (Line.read l.next raw).errors) hraws
    have herrors := Line.errors_read 0 l.next raw
    refine ⟨l', ?_, ?_, ?_⟩
    · rw [addAll_cons_of_ok hread]
      exact hl'
    · simp [hlines, append, hbare]
    · simp only [hcount, append, herrors, List.map_cons, List.sum_cons, Nat.add_assoc]

end Listing

/-- A definition: the source of a header that opens a routine of a name, and sources that start
none. No source goes over the end of its line. -/
structure Definition (tilde : Bool) where
  name : String
  header : String
  body : List String
  opens : ∃ l, (Line.read 1 header).result = .ok l ∧ l.startsRoutine = true ∧
    (Header.read l).routine.map Routine.name = some name
  inside : ∀ raw ∈ body, ∀ l, (Line.read 1 raw).result = .ok l → l.startsRoutine = false
  oneLine : ∀ raw ∈ header :: body, raw.toList.any (Text.endsLine tilde) = false

namespace Definition

variable {tilde : Bool}

def sources (d : Definition tilde) : List String := d.header :: d.body

/-- The text of definitions in a row, each line ended by a line feed. -/
def text (ds : List (Definition tilde)) : String := Text.unlines (ds.flatMap sources)

def block (d : Definition tilde) : Block := ⟨Line.bare d.header, d.body.map Line.bare⟩

/-- The errors that are counted for a definition. -/
def errors (d : Definition tilde) : Nat :=
  (d.sources.map fun raw => (Line.read 0 raw).errors).sum + d.block.notes.countP Header.Note.isError

theorem bare_header (d : Definition tilde) :
    (Line.bare d.header).startsRoutine = true ∧
      (Header.read (Line.bare d.header)).routine.map Routine.name = some d.name := by
  obtain ⟨l, hl, hstarts, hname⟩ := d.opens
  obtain ⟨l', hl', hbare⟩ := Line.exists_read (Line.reads_of_read hl) 1
  cases Except.ok.inj (hl.symm.trans hl')
  rw [← hbare, Line.startsRoutine_relocate, Header.read_relocate]
  refine ⟨hstarts, ?_⟩
  rw [Header.Reading.relocate, Option.map_map]
  exact hname

theorem exists_routine (d : Definition tilde) :
    ∃ r, d.block.routine? = some r ∧ r.name = d.name := by
  obtain ⟨r, hr, hname⟩ := Option.map_eq_some_iff.mp d.bare_header.2
  exact ⟨{ r with lines := r.lines ++ d.block.body }, by simp [Block.routine?, block, hr], hname⟩

theorem startsRoutine_body {d : Definition tilde} (h : ∀ raw ∈ d.sources, Line.Reads raw) :
    ∀ l ∈ d.block.body, l.startsRoutine = false := by
  intro l hl
  obtain ⟨raw, hraw, rfl⟩ := List.mem_map.mp hl
  obtain ⟨l, hread, hbare⟩ := Line.exists_read (h raw (List.mem_cons_of_mem _ hraw)) 1
  rw [← hbare, Line.startsRoutine_relocate]
  exact d.inside raw hraw l hread

theorem names_routines (ds : List (Definition tilde)) :
    ((ds.map block).filterMap Block.routine?).map Routine.name = ds.map name := by
  induction ds with
  | nil => rfl
  | cons d ds ih =>
    obtain ⟨r, hr, hname⟩ := d.exists_routine
    simp [hr, hname, ← ih]

theorem sourceLines_text (ds : List (Definition tilde)) :
    Text.sourceLines (text ds) tilde =
      (ds.flatMap sources).map fun raw => String.ofList (Text.dropReturn raw.toList) := by
  refine Text.sourceLines_unlines ?_
  intro raw hraw c hc
  obtain ⟨d, -, hraw⟩ := List.mem_flatMap.mp hraw
  simpa using List.any_eq_false.mp (d.oneLine raw hraw) c hc

variable {ds : List (Definition tilde)}

theorem split_blocks (h : ∀ d ∈ ds, ∀ raw ∈ d.sources, Line.Reads raw) :
    Block.split ((ds.flatMap sources).map Line.bare) = ([], ds.map block) := by
  have hlines : (ds.flatMap sources).map Line.bare =
      (ds.map block).flatMap fun b => b.header :: b.body := by
    simp only [List.map_flatMap, List.flatMap_map]
    rfl
  rw [hlines]
  refine Block.split_flatMap ?_ ?_
  · intro b hb
    obtain ⟨d, -, rfl⟩ := List.mem_map.mp hb
    exact d.bare_header.1
  · intro b hb
    obtain ⟨d, hd, rfl⟩ := List.mem_map.mp hb
    exact startsRoutine_body (h d hd)

theorem sum_errors (ds : List (Definition tilde)) :
    (ds.map errors).sum = ((ds.flatMap sources).map fun raw => (Line.read 0 raw).errors).sum +
      ((ds.map block).flatMap Block.notes).countP Header.Note.isError := by
  induction ds with
  | nil => rfl
  | cons d ds ih =>
    simp only [List.map_cons, List.sum_cons, List.flatMap_cons, List.map_append, List.sum_append,
      List.countP_append, ih, errors]
    omega

/-- A text of definitions that can be read is read as their routines, and its errors are theirs. -/
theorem exists_read_text (h : ∀ d ∈ ds, ∀ raw ∈ d.sources, Line.Reads raw) :
    ∃ p, (Program.read (text ds) tilde).result = .ok p ∧
      p.routines.map (Routine.relocate .anywhere) = (ds.map block).filterMap Block.routine? ∧
      p.errorCount = (ds.map errors).sum := by
  have hreads : ∀ raw ∈ Text.sourceLines (text ds) tilde, Line.Reads raw := by
    intro raw hraw
    rw [sourceLines_text] at hraw
    obtain ⟨source, hsource, rfl⟩ := List.mem_map.mp hraw
    obtain ⟨d, hd, hsource⟩ := List.mem_flatMap.mp hsource
    rw [Line.Reads, Item.ofLine_dropReturn]
    exact h d hd source hsource
  obtain ⟨l, hl, hlines, hcount⟩ := Listing.addAll_of_reads {} hreads
  have hbare : l.lines.map (Line.relocate .anywhere) = (ds.flatMap sources).map Line.bare := by
    simp only [hlines, sourceLines_text, List.map_nil, List.nil_append, List.map_map,
      Function.comp_def, Line.bare_dropReturn]
  have herrors : l.errorCount =
      ((ds.flatMap sources).map fun raw => (Line.read 0 raw).errors).sum := by
    simp only [hcount, sourceLines_text, Nat.zero_add, List.map_map, Function.comp_def,
      Line.errors_read_dropReturn]
  have hroutines : (Extraction.ofLines l.lines).routines.map (Routine.relocate .anywhere) =
      (ds.map block).filterMap Block.routine? := by
    rw [← Extraction.routines_relocate, hbare, Extraction.routines_ofLines, split_blocks h]
  have hnotes : (Extraction.ofLines l.lines).errorCount =
      ((ds.map block).flatMap Block.notes).countP Header.Note.isError := by
    rw [← Extraction.errorCount_relocate .anywhere, hbare, Extraction.errorCount_ofLines, split_blocks h]
    simp
  refine ⟨.ofListing l, ?_, hroutines, ?_⟩
  · rw [Program.read, Program.result_readLines, hl]
    rfl
  · rw [sum_errors, ← herrors, ← hnotes]
    rfl

theorem reads_of_read {p : Program} (h : (Program.read (text ds) tilde).result = .ok p) :
    ∀ d ∈ ds, ∀ raw ∈ d.sources, Line.Reads raw := by
  obtain ⟨l, hl, -⟩ := Program.exists_addAll_of_read h
  have hreads := Listing.reads_of_addAll hl
  intro d hd raw hraw
  have hmem : String.ofList (Text.dropReturn raw.toList) ∈ Text.sourceLines (text ds) tilde := by
    rw [sourceLines_text]
    exact List.mem_map_of_mem (List.mem_flatMap.mpr ⟨d, hd, hraw⟩)
  have hline := hreads _ hmem
  rwa [Line.Reads, Item.ofLine_dropReturn] at hline

end Definition
end LineAssembly
