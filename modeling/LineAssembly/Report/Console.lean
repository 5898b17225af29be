import LineAssembly.Text.Width

/-! Text as the console shows it: some control characters are removed and tabs become blanks. -/
namespace LineAssembly
namespace Console

/-- Bell, backspace, vertical tab, form feed and carriage return. -/
def isRemoved (c : Char) : Bool :=
  c.toNat = 7 || c.toNat = 8 || c.toNat = 11 || c.toNat = 12 || c.toNat = 13

def clean (cs : List Char) : List Char := cs.filter fun c => !isRemoved c

@[simp] theorem clean_nil : clean [] = [] := rfl

@[simp] theorem clean_append (as bs : List Char) : clean (as ++ bs) = clean as ++ clean bs := by
  simp [clean]

theorem clean_clean (cs : List Char) : clean (clean cs) = clean cs := by
  simp [clean]

/-- The blanks of a tab after a text that starts at a tab stop: one, and those from there up to
the next multiple of eight cells. -/
def tabWidth (g : Text.Gauge) : Nat := 1 + (8 - (g.add ' ').cells % 8) % 8

/-- The start of a line and the end of each tab are tab stops, so that each text between them is
measured by itself. -/
def expandTabs (g : Text.Gauge) : List Char → List Char
  | [] => []
  | c :: cs =>
    if c = '\n' then c :: expandTabs {} cs
    else if c = '\t' then List.replicate (tabWidth g) ' ' ++ expandTabs {} cs
    else c :: expandTabs (g.add c) cs

def shown (s : String) : String := String.ofList (expandTabs {} (clean s.toList))

def line (s : String) : String := shown s ++ "\n"

end Console
end LineAssembly
