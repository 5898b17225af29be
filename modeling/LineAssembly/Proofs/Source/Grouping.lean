import LineAssembly.Source.Routine

/-! The pass over the lines of a listing as a grouping. A line that starts a routine and the lines
up to the next one make a block, and what the pass finds is read off the blocks one by one. -/
namespace LineAssembly

/-- A line that starts a routine, with the lines up to the next one. -/
structure Block where
  header : Line
  body : List Line
  deriving Repr, DecidableEq

/-- The lines before the first header, and the blocks. -/
def Block.split : List Line → List Line × List Block
  | [] => ([], [])
  | l :: ls =>
    let (before, blocks) := Block.split ls
    if l.startsRoutine then ([], ⟨l, before⟩ :: blocks) else (l :: before, blocks)

namespace Block

def routine? (b : Block) : Option Routine :=
  (Header.read b.header).routine.map fun r => { r with lines := r.lines ++ b.body }

/-- The lines of a block whose header opens no routine belong to nothing. -/
def dangling (b : Block) : List Line :=
  if (Header.read b.header).routine.isNone then b.body else []

def notes (b : Block) : List Header.Note := (Header.read b.header).notes

theorem split_cons_header {l : Line} (h : l.startsRoutine = true) (ls : List Line) :
    split (l :: ls) = ([], ⟨l, (split ls).1⟩ :: (split ls).2) := by
  simp [split, h]

theorem split_cons_body {l : Line} (h : l.startsRoutine = false) (ls : List Line) :
    split (l :: ls) = (l :: (split ls).1, (split ls).2) := by
  simp [split, h]

end Block

def topLevelMessages (l : Line) : List Message :=
  if l.tokens.isEmpty then []
  else [.error ("Top level code is not allowed (line " ++ Decimal.text l.number ++ ")")]

namespace Extraction

def grouped (lines : List Line) : Extraction :=
  let (before, blocks) := Block.split lines
  { routines := blocks.filterMap Block.routine?
    dangling := before ++ blocks.flatMap Block.dangling
    messages := before.flatMap topLevelMessages ++
      blocks.flatMap fun b => b.notes.flatMap Header.Note.messages
    errorCount := before.countP (fun l => !l.tokens.isEmpty) +
      (blocks.flatMap Block.notes).countP Header.Note.isError }

namespace State

/-- The routine in progress, with the lines that are still to be put into it. -/
def completed (s : State) (before : List Line) : Option Routine :=
  s.current.map fun r => { r with lines := r.lines ++ before }

/-- The lines that dangle if they come before the next header. -/
def strayed (s : State) (before : List Line) : List Line :=
  if s.current.isNone then before else []

def forbidden (s : State) (before : List Line) : List Line :=
  if s.orphaned then [] else s.strayed before

/-- The invariant of the pass: what it will have found at the end, from what it has found so far,
the lines before the next header and the blocks from there on. -/
def outlook (s : State) (before : List Line) (blocks : List Block) : Extraction :=
  { routines := s.routines ++ (s.completed before).toList ++ blocks.filterMap Block.routine?
    dangling := s.dangling ++ s.strayed before ++ blocks.flatMap Block.dangling
    messages := s.messages ++ (s.forbidden before).flatMap topLevelMessages ++
      blocks.flatMap fun b => b.notes.flatMap Header.Note.messages
    errorCount := s.errorCount + (s.forbidden before).countP (fun l => !l.tokens.isEmpty) +
      (blocks.flatMap Block.notes).countP Header.Note.isError }

theorem foldl_record (notes : List Header.Note) (s : State) :
    notes.foldl record s =
      { s with
        messages := s.messages ++ notes.flatMap Header.Note.messages
        errorCount := s.errorCount + notes.countP Header.Note.isError } := by
  induction notes generalizing s with
  | nil => simp
  | cons n notes ih =>
    rw [List.foldl_cons, ih]
    cases hn : n.isError <;> simp [record, hn, Nat.add_comm, Nat.add_left_comm]

theorem flush_eq (s : State) :
    s.flush = { s with routines := s.routines ++ (s.completed []).toList } := by
  obtain ⟨_, current, _, _, _, _⟩ := s
  cases current <;> simp [flush, completed]

theorem outlook_flush (s : State) : s.flush.result = s.outlook [] [] := by
  simp [flush_eq, result, outlook, strayed, forbidden]

theorem outlook_openRoutine (s : State) (l : Line) (before : List Line) (blocks : List Block) :
    (s.openRoutine l).outlook before blocks = s.outlook [] (⟨l, before⟩ :: blocks) := by
  rw [openRoutine, foldl_record, flush_eq]
  cases hr : (Header.read l).routine <;>
    simp [outlook, completed, strayed, forbidden, Block.routine?, Block.dangling, Block.notes, hr,
      Nat.add_assoc]

theorem outlook_append_line {s : State} {r : Routine} (hc : s.current = some r) (l : Line)
    (before : List Line) (blocks : List Block) :
    outlook { s with current := some { r with lines := r.lines ++ [l] } } before blocks =
      s.outlook (l :: before) blocks := by
  simp [outlook, completed, strayed, forbidden, hc]

theorem outlook_leaveDangling {s : State} (hc : s.current = none) (l : Line)
    (before : List Line) (blocks : List Block) :
    (s.leaveDangling l).outlook before blocks = s.outlook (l :: before) blocks := by
  cases ho : s.orphaned <;> cases ht : l.tokens.isEmpty <;>
    simp [leaveDangling, outlook, completed, strayed, forbidden, topLevelMessages, hc, ho, ht,
      Nat.add_assoc, Nat.add_comm, Nat.add_left_comm]

theorem outlook_step (s : State) {l : Line} (h : l.startsRoutine = false) (before : List Line)
    (blocks : List Block) :
    (s.step l).outlook before blocks = s.outlook (l :: before) blocks := by
  unfold step
  rw [if_neg (by simp [h])]
  cases hc : s.current with
  | some r => exact outlook_append_line hc l before blocks
  | none => exact outlook_leaveDangling hc l before blocks

/-- A pass ends as its outlook says at every line. -/
theorem foldl_step_outlook (lines : List Line) (s : State) :
    (lines.foldl step s).flush.result = s.outlook (Block.split lines).1 (Block.split lines).2 := by
  induction lines generalizing s with
  | nil => exact outlook_flush s
  | cons l ls ih =>
    rw [List.foldl_cons, ih]
    cases h : l.startsRoutine with
    | true =>
      have hstep : s.step l = s.openRoutine l := if_pos h
      rw [hstep, Block.split_cons_header h, outlook_openRoutine]
    | false => rw [Block.split_cons_body h, outlook_step s h]

end State

/-- The pass finds what the grouping says. -/
theorem ofLines_eq_grouped (lines : List Line) : ofLines lines = grouped lines := by
  rw [ofLines, State.foldl_step_outlook]
  simp [State.outlook, State.completed, State.strayed, State.forbidden, grouped]

section Blocks

variable (lines : List Line)

theorem routines_ofLines :
    (ofLines lines).routines = (Block.split lines).2.filterMap Block.routine? := by
  rw [ofLines_eq_grouped, grouped]

theorem dangling_ofLines :
    (ofLines lines).dangling =
      (Block.split lines).1 ++ (Block.split lines).2.flatMap Block.dangling := by
  rw [ofLines_eq_grouped, grouped]

theorem errorCount_ofLines :
    (ofLines lines).errorCount =
      (Block.split lines).1.countP (fun l => !l.tokens.isEmpty) +
        ((Block.split lines).2.flatMap Block.notes).countP Header.Note.isError := by
  rw [ofLines_eq_grouped, grouped]

end Blocks
end Extraction
end LineAssembly
