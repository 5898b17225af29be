import LineAssembly.Text.Blank

/-! Words of a line. Blanks separate words, and a delimiter is a word of its own. -/
namespace LineAssembly

structure Word where
  text : String
  column : Nat
  deriving Repr, DecidableEq

namespace Word

def delimiters : List Char := ['(', ')', '{', '}', '[', ']', ',', '=', '+', '-', '*', '"']

def isDelimiter (c : Char) : Bool := delimiters.contains c

def stop (w : Word) : Nat := w.column + w.text.length

/-- The word gathered in `run`, which ends before `column`. -/
def ofRun (column : Nat) (run : List Char) : List Word :=
  if run.isEmpty then [] else [⟨String.ofList run, column - run.length⟩]

@[simp] theorem ofRun_nil (column : Nat) : ofRun column [] = [] := rfl

theorem ofRun_of_ne_nil {run : List Char} (h : run ≠ []) (column : Nat) :
    ofRun column run = [⟨String.ofList run, column - run.length⟩] := by
  simp [ofRun, h]

/-- Scans from `column` on, with `run` the part of a word that stands right before it. -/
def scanFrom (delimiter : Char → Bool) (column : Nat) (run : List Char) : List Char → List Word
  | [] => ofRun column run
  | c :: cs =>
    if Text.isBlank c then ofRun column run ++ scanFrom delimiter (column + 1) [] cs
    else if delimiter c then
      ofRun column run ++ ⟨String.singleton c, column⟩ :: scanFrom delimiter (column + 1) [] cs
    else scanFrom delimiter (column + 1) (run ++ [c]) cs

theorem scanFrom_append_blank (delimiter : Char → Bool) (column : Nat) (run cs ds : List Char)
    {b : Char} (hb : Text.isBlank b = true) :
    scanFrom delimiter column run (cs ++ b :: ds) =
      scanFrom delimiter column run cs ++ scanFrom delimiter (column + cs.length + 1) [] ds := by
  induction cs generalizing column run with
  | nil => simp [scanFrom, hb]
  | cons c cs ih =>
    simp only [List.cons_append, scanFrom, List.length_cons]
    split
    · rw [ih]; simp [Nat.add_assoc, Nat.add_comm 1]
    · split
      · rw [ih]; simp [Nat.add_assoc, Nat.add_comm 1]
      · rw [ih]; simp [Nat.add_assoc, Nat.add_comm 1]

theorem scanFrom_concat_blank (delimiter : Char → Bool) (column : Nat) (run cs : List Char)
    {b : Char} (hb : Text.isBlank b = true) :
    scanFrom delimiter column run (cs ++ [b]) = scanFrom delimiter column run cs := by
  rw [scanFrom_append_blank delimiter column run cs [] hb, scanFrom, ofRun_nil, List.append_nil]

def scan (line : String) : List Word := scanFrom isDelimiter 0 [] line.toList

def split (line : String) : List String := (scan line).map Word.text

/-- The runs of a line between blanks, whatever delimiters they hold. -/
def runs (line : String) : List Word := scanFrom (fun _ => false) 0 [] line.toList

end Word
end LineAssembly
