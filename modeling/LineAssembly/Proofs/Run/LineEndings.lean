import LineAssembly.Proofs.Run.Reachability
import LineAssembly.Proofs.Source.Reading
import LineAssembly.Proofs.Text.Returns

/-! Line endings. Whether lines end with a line feed alone or with a carriage return before it shows
in nothing but carriage returns at the ends of source lines. These are blanks, so that no word hangs
on them, and the console drops them, so that no message shows them. -/
namespace LineAssembly

def Line.trimReturns (l : Line) : Line := { l with source := Text.trimReturns l.source }

def Routine.trimReturns (r : Routine) : Routine := { r with lines := r.lines.map Line.trimReturns }

/-- A program whose source lines have no carriage returns at their ends. All else stays. -/
def Program.trimReturns (p : Program) : Program :=
  { p with
    routines := p.routines.map Routine.trimReturns
    dangling := p.dangling.map Line.trimReturns
    lines := p.lines.map Line.trimReturns }

/-- The relocation that carriage returns are trimmed by. -/
def Relocation.trimReturns : Relocation := { source := Text.trimReturns }

theorem Token.relocate_trimReturns : Token.relocate .trimReturns = id := by
  funext ⟨kind, value, column⟩
  cases kind <;> rfl

theorem Line.relocate_trimReturns : Line.relocate .trimReturns = Line.trimReturns := by
  funext l
  rw [relocate, Token.relocate_trimReturns, List.map_id]
  rfl

theorem Program.relocate_trimReturns (p : Program) : p.relocate .trimReturns = p.trimReturns := by
  have hroutine : Routine.relocate .trimReturns = Routine.trimReturns := by
    funext r
    rw [Routine.relocate, Token.relocate_trimReturns, List.map_id, Line.relocate_trimReturns]
    rfl
  rw [relocate, hroutine, Line.relocate_trimReturns]
  rfl

namespace Word

theorem scanFrom_concat_return (delimiter : Char → Bool) (cs : List Char) :
    scanFrom delimiter 0 [] (cs ++ ['\r']) = scanFrom delimiter 0 [] cs :=
  scanFrom_concat_blank delimiter 0 [] cs (by decide)

theorem scan_trimReturns (line : String) : scan (Text.trimReturns line) = scan line := by
  rw [scan, scan, Text.trimReturns, String.toList_ofList]
  exact Text.apply_rdropWhile_return (scanFrom_concat_return isDelimiter) line.toList

theorem runs_trimReturns (line : String) : runs (Text.trimReturns line) = runs line := by
  rw [runs, runs, Text.trimReturns, String.toList_ofList]
  exact Text.apply_rdropWhile_return (scanFrom_concat_return fun _ => false) line.toList

end Word

theorem Relocation.view_trimReturns (raw : String) :
    view .trimReturns raw = (Text.trimReturns raw, Word.scan (Text.trimReturns raw)) := by
  have hword : Word.relocate .trimReturns = id := rfl
  rw [view, hword, List.map_id, Word.scan_trimReturns]
  rfl

/-- But for carriage returns at the ends of source lines, a text and its collapsed form give the
same program, with the same messages. -/
theorem Program.read_collapsed (text : String) :
    (read (Text.collapsed text) false).relocate .trimReturns =
      (read text false).relocate .trimReturns := by
  have hview (lines : List String) : lines.map (Relocation.view .trimReturns) =
      (lines.map Text.trimReturns).map fun line => (line, Word.scan line) := by
    rw [List.map_map]
    exact List.map_congr_left fun line _ => Relocation.view_trimReturns line
  refine relocate_readLines_of_view_eq rfl ?_
  rw [hview, hview, Text.sourceLines_collapsed]

namespace Caret

theorem clean_trimReturns (line : String) :
    Console.clean (Text.trimReturns line).toList = Console.clean line.toList := by
  rw [Text.trimReturns, String.toList_ofList]
  refine Text.apply_rdropWhile_return (f := Console.clean) ?_ line.toList
  intro cs
  rw [Console.clean_append, List.append_right_eq_self]
  decide

theorem wordIndex_trimReturns (line : String) (column : Int) :
    wordIndex (Text.trimReturns line) column = wordIndex line column := by
  rw [wordIndex, wordIndex, Word.runs_trimReturns]

theorem plain_trimReturns (b : Caret) :
    plain { b with source := Text.trimReturns b.source } = b.plain := by
  have htarget : target? { b with source := Text.trimReturns b.source } = b.target? := by
    simp only [target?, Word.runs_trimReturns]
  have hsource : Console.clean (' ' :: ((Text.trimReturns b.source).toList ++ ['\n'])) =
      Console.clean (' ' :: (b.source.toList ++ ['\n'])) := by
    rw [← List.singleton_append, Console.clean_append, Console.clean_append, clean_trimReturns,
      ← Console.clean_append, ← Console.clean_append, List.singleton_append]
  unfold plain pieces pad carets
  rw [htarget]
  simp only [List.cons_append, Styled.plain_cons, Piece.shown, hsource]
  rfl

end Caret

namespace Problem

/-- Whatever is reported says the same with and without carriage returns at the end of the line. -/
theorem texts_trimReturns (p : Problem) :
    (p.relocate .trimReturns).messages.map Message.text = p.messages.map Message.text := by
  have hpoint (message : String) (line : Line) (column : Nat) (label : String) :
      (pointAt message (line.relocate .trimReturns) column label).text =
        (pointAt message line column label).text := by
    have hplain := Caret.plain_trimReturns
      ⟨message, line.source, line.number, Caret.wordIndex line.source column, label⟩
    have hindex := Caret.wordIndex_trimReturns line.source column
    rw [Line.relocate_trimReturns]
    simp only [pointAt, Message.text, Message.body, Line.trimReturns, hindex, hplain]
    rfl
  cases p with
  | printWithoutOperand line column => exact congrArg (fun t => [t]) (hpoint _ line column _)
  | invalidPort port line column => exact congrArg (fun t => [t]) (hpoint _ line column _)
  | unknownValue name line column => exact congrArg (fun t => [t]) (hpoint _ line column _)
  | _ => rfl

end Problem

namespace Effect

def texts (e : Effect) : List String := e.messages.map Message.text

theorem texts_rebase_trimReturns (e : Effect) : (e.rebase (.moved .trimReturns)).texts = e.texts := by
  simp only [texts, messages, rebase, Setting.moved, List.map_flatMap, List.flatMap_map,
    Problem.texts_trimReturns]

end Effect

namespace Program

/-- A text and its collapsed form are read with the same messages. Both hold a numeral that is too
long, or they give programs that differ in nothing but carriage returns at the ends of source lines.
Then both programs do the same from every entry under every limit, and report and trace the same. -/
theorem run_collapsed (text : String) :
    (read (Text.collapsed text) false).messages = (read text false).messages ∧
    ((∃ excess, (read text false).result = .error excess ∧
      (read (Text.collapsed text) false).result = .error excess) ∨
    ∃ p q, (read text false).result = .ok p ∧ (read (Text.collapsed text) false).result = .ok q ∧
      p.lines.length = q.lines.length ∧ p.trimReturns = q.trimReturns ∧
      ∀ limit entry,
        let e := p.runWithin limit entry
        let f := q.runWithin limit entry
        e.output = f.output ∧ e.machine = f.machine ∧ e.texts = f.texts ∧ e.fault = f.fault ∧
          e.trace = f.trace) := by
  obtain ⟨hmessages, hresult⟩ := Reading.mk.inj (read_collapsed text)
  refine ⟨hmessages, ?_⟩
  obtain hexcess | ⟨p, q, hp, hq, hpq⟩ := error_or_ok_of_map_eq hresult.symm
  · exact .inl hexcess
  refine .inr ⟨p, q, hp, hq, ?_, ?_, fun limit entry => ?_⟩
  · simpa [relocate] using congrArg (fun r : Program => r.lines.length) hpq
  · rw [← relocate_trimReturns, hpq, relocate_trimReturns]
  · intro e f
    have hrun : e.rebase (.moved .trimReturns) = f.rebase (.moved .trimReturns) := by
      rw [← runWithin_relocate, hpq, runWithin_relocate]
    have hfault : Fault.relocate .trimReturns = id := Fault.relocate_of_number rfl
    have htrace : Trace.relocate .trimReturns = id := by
      funext t
      cases t <;> simp only [Trace.relocate, Token.relocate_trimReturns] <;> rfl
    have htexts := congrArg Effect.texts hrun
    rw [Effect.texts_rebase_trimReturns, Effect.texts_rebase_trimReturns] at htexts
    rw [Effect.rebase, Effect.rebase, Machine.rebase_moved rfl, Machine.rebase_moved rfl,
      Setting.moved, hfault, htrace] at hrun
    simp only [Option.map_id, List.map_id, id, Effect.mk.injEq] at hrun
    exact ⟨hrun.2.1, hrun.1, htexts, hrun.2.2.2.2, hrun.2.2.2.1⟩

end Program
end LineAssembly
