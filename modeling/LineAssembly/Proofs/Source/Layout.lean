import LineAssembly.Proofs.Source.Reading
import LineAssembly.Proofs.Source.Tidy

/-! Layout: the columns of tokens and the texts of lines. Erasing them is a relocation that leaves
the numbers of lines, so that a text gives, but for layout, the program and the messages of its
words. -/
namespace LineAssembly

def Token.eraseLayout (t : Token) : Token := { t with column := 0 }

def Line.eraseLayout (l : Line) : Line :=
  { l with tokens := l.tokens.map Token.eraseLayout, source := "" }

def Routine.eraseLayout (r : Routine) : Routine :=
  { r with arguments := r.arguments.map Token.eraseLayout, lines := r.lines.map Line.eraseLayout }

/-- A program without columns and source lines. All else stays: kinds and values of tokens, numbers
and comments of lines, routines, dangling lines and the count of errors. -/
def Program.eraseLayout (p : Program) : Program :=
  { routines := p.routines.map Routine.eraseLayout
    dangling := p.dangling.map Line.eraseLayout
    lines := p.lines.map Line.eraseLayout
    errorCount := p.errorCount }

/-- The relocation that layout is erased by. -/
def Relocation.eraseLayout : Relocation := { column := fun _ => 0, source := fun _ => "" }

theorem Token.relocate_eraseLayout : Token.relocate .eraseLayout = Token.eraseLayout := by
  funext ⟨kind, value, column⟩
  cases kind <;> rfl

theorem Line.relocate_eraseLayout : Line.relocate .eraseLayout = Line.eraseLayout := by
  funext l
  rw [relocate, Token.relocate_eraseLayout]
  rfl

theorem Routine.relocate_eraseLayout : Routine.relocate .eraseLayout = Routine.eraseLayout := by
  funext r
  rw [relocate, Token.relocate_eraseLayout, Line.relocate_eraseLayout]
  rfl

theorem Program.relocate_eraseLayout (p : Program) : p.relocate .eraseLayout = p.eraseLayout := by
  rw [relocate, Routine.relocate_eraseLayout, Line.relocate_eraseLayout]
  rfl

theorem Relocation.view_eraseLayout (raw : String) :
    view .eraseLayout raw = ("", (Word.split raw).map fun text => ⟨text, 0⟩) := by
  rw [view, Word.split, List.map_map]
  rfl

namespace Program

def Reading.eraseLayout (r : Reading) : Reading :=
  { r with result := r.result.map Program.eraseLayout }

theorem Reading.relocate_eraseLayout (r : Reading) : r.relocate .eraseLayout = r.eraseLayout := by
  have herase : Program.relocate .eraseLayout = Program.eraseLayout :=
    funext Program.relocate_eraseLayout
  rw [relocate, herase]
  rfl

/-- But for layout the words of the lines decide the program and the messages. -/
theorem readLines_of_split_eq {raws raws' : List String}
    (h : raws.map Word.split = raws'.map Word.split) :
    (readLines raws).eraseLayout = (readLines raws').eraseLayout := by
  have hview (lines : List String) : lines.map (Relocation.view .eraseLayout) =
      (lines.map Word.split).map fun texts => ("", texts.map fun text => ⟨text, 0⟩) := by
    rw [List.map_map]
    exact List.map_congr_left fun line _ => Relocation.view_eraseLayout line
  rw [← Reading.relocate_eraseLayout, ← Reading.relocate_eraseLayout]
  refine relocate_readLines_of_view_eq rfl ?_
  rw [hview, hview, h]

/-- But for layout a text and its tidy form give the same program, with the same messages. -/
theorem eraseLayout_read_tidy (text : String) (tilde : Bool) :
    (read (Text.tidy text tilde) tilde).eraseLayout = (read text tilde).eraseLayout := by
  rw [read, read, Text.sourceLines_tidy]
  refine readLines_of_split_eq ?_
  rw [List.map_map]
  exact List.map_congr_left fun line _ => Word.split_tidyLine line

end Program
end LineAssembly
