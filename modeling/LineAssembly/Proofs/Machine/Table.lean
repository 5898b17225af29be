import LineAssembly.Machine.Table
import LineAssembly.Proofs.Number.Decimal
import LineAssembly.Proofs.Source.Tidy
import LineAssembly.Proofs.Text.Quoted
import Mathlib.Data.List.Basic

/-! The table of a machine shows one machine only. Its rows are told apart by the ends of lines, in
each row a blank ends the name, and numbers and quoted texts can be read in one way. Names may hold
whatever else the layout is made of. -/
namespace LineAssembly

/-- A text without blanks. -/
def Json.isUnspaced : Json → Bool
  | .string s => s.toList.all fun c => !Text.isBlank c
  | _ => false

/-- A list whose elements a function tells apart is told apart by their images. -/
theorem eq_of_map_eq {α β : Type} {P : α → Prop} {f : α → β}
    (hf : ∀ x y, P x → P y → f x = f y → x = y) {xs ys : List α} (hxs : ∀ x ∈ xs, P x)
    (hys : ∀ y ∈ ys, P y) (h : xs.map f = ys.map f) : xs = ys := by
  induction xs generalizing ys with
  | nil => exact (List.map_eq_nil_iff.mp h.symm).symm
  | cons x xs ih =>
    obtain ⟨y, ys, rfl, hxy, hrest⟩ := List.map_eq_cons_iff.mp h.symm
    rw [hf x y (hxs x List.mem_cons_self) (hys y List.mem_cons_self) hxy.symm,
      ih (fun z hz => hxs z (List.mem_cons_of_mem x hz))
        (fun z hz => hys z (List.mem_cons_of_mem y hz)) hrest.symm]

namespace Json

variable {v w : Json}

theorem not_mem_plainText (hv : v.isUnspaced = true) {c : Char} (hc : Text.isBlank c = true) :
    c ∉ v.plainText.toList := by
  intro hmem
  cases v with
  | string s =>
    have hall : ∀ c ∈ s.toList, Text.isBlank c = false := by simpa [isUnspaced] using hv
    rw [hall c hmem] at hc
    cases hc
  | _ => cases hv

theorem eq_of_plainText_eq (hv : v.isUnspaced = true) (hw : w.isUnspaced = true)
    (h : v.plainText.toList = w.plainText.toList) : v = w := by
  cases v with
  | string s =>
    cases w with
    | string t => exact congrArg string (String.toList_injective h)
    | _ => cases hw
  | _ => cases hv

theorem eq_of_plainText_append_eq (hv : v.isUnspaced = true) (hw : w.isUnspaced = true)
    {s t : List Char}
    (h : v.plainText.toList ++ ' ' :: s = w.plainText.toList ++ ' ' :: t) : v = w ∧ s = t := by
  obtain ⟨hname, hrest⟩ := Text.eq_of_append_cons_eq (not_mem_plainText hv Text.isBlank_space)
    (not_mem_plainText hw Text.isBlank_space) h
  exact ⟨eq_of_plainText_eq hv hw hname, hrest⟩

theorem fits_of_isUnspaced (hv : v.isUnspaced = true) : v.fits = true := by
  cases v with
  | string s => rfl
  | _ => cases hv

theorem isUnspaced_of_mem_split {line word : String} (h : word ∈ Word.split line) :
    (string word).isUnspaced = true := by
  have hword := (Word.isWord_of_mem_split h).1
  simpa [isUnspaced] using fun c hc => hword.isBlank_eq_false hc

end Json

namespace Decimal

theorem toList_listText (ns : List Int) :
    (listText ns).toList = '[' :: ([',', ' '].intercalate (ns.map ofInt) ++ [']']) := by
  simp [listText, String.toList_intercalate, Function.comp_def]

theorem listText_injective : Function.Injective listText := by
  have hrun (ns : List Int) : ∀ x ∈ ns.map ofInt, Text.IsRun ',' x := by
    intro x hx
    obtain ⟨n, -, rfl⟩ := List.mem_map.mp hx
    exact ⟨ofInt_ne_nil n, not_mem_ofInt (by decide) (by decide) n⟩
  intro ms ns h
  have hlists := congrArg String.toList h
  rw [toList_listText, toList_listText] at hlists
  have hinner := List.append_cancel_right (List.cons.inj hlists).2
  exact List.map_injective_iff.mpr ofInt_injective
    (Text.eq_of_intercalate_eq (hrun ms) (hrun ns) hinner)

theorem newline_not_mem_listText (ns : List Int) : '\n' ∉ (listText ns).toList := by
  have hinner : '\n' ∉ [',', ' '].intercalate (ns.map ofInt) := by
    refine Text.not_mem_intercalate (by decide) fun x hx => ?_
    obtain ⟨n, -, rfl⟩ := List.mem_map.mp hx
    exact not_mem_ofInt (by decide) (by decide) n
  simp [toList_listText, hinner]

end Decimal

namespace Variable

variable {v w : Variable}

theorem toList_shown_string (name : Json) (value : String) :
    (string name value).shown.toList = "String(".toList ++
      (name.plainText.toList ++ ' ' :: '=' :: ' ' :: (Text.quoteChars value.toList ++ [')'])) := by
  simp [shown]

theorem toList_shown_number (name : Json) (value : Int) :
    (number name value).shown.toList = "Number(".toList ++
      (name.plainText.toList ++ ' ' :: '=' :: ' ' :: (Decimal.ofInt value ++ [')'])) := by
  simp [shown]

/-- The kind comes first, then the name up to a blank, and the value fills what is left. -/
theorem eq_of_shown_eq (hv : v.name.isUnspaced = true) (hw : w.name.isUnspaced = true)
    (h : v.shown = w.shown) : v = w := by
  replace h := congrArg String.toList h
  cases v with
  | string name value =>
    cases w with
    | string name' value' =>
      rw [toList_shown_string, toList_shown_string] at h
      obtain ⟨rfl, hrest⟩ : name = name' ∧ _ :=
        Json.eq_of_plainText_append_eq hv hw (List.append_cancel_left h)
      have hquoted : Text.quoteChars value.toList = Text.quoteChars value'.toList := by
        simpa using hrest
      rw [String.toList_injective (Text.quoteChars_injective hquoted)]
    | number name' value' => simp [toList_shown_string, toList_shown_number] at h
  | number name value =>
    cases w with
    | string name' value' => simp [toList_shown_string, toList_shown_number] at h
    | number name' value' =>
      rw [toList_shown_number, toList_shown_number] at h
      obtain ⟨rfl, hrest⟩ : name = name' ∧ _ :=
        Json.eq_of_plainText_append_eq hv hw (List.append_cancel_left h)
      have hvalue : Decimal.ofInt value = Decimal.ofInt value' := by simpa using hrest
      rw [Decimal.ofInt_injective hvalue]

theorem newline_not_mem_shown (hv : v.name.isUnspaced = true) : '\n' ∉ v.shown.toList := by
  have hname : '\n' ∉ v.name.plainText.toList := Json.not_mem_plainText hv (by decide)
  cases v with
  | string name value =>
    have hname : '\n' ∉ name.plainText.toList := hname
    simp [toList_shown_string, hname, Text.newline_not_mem_quoteChars]
  | number name value =>
    have hname : '\n' ∉ name.plainText.toList := hname
    have hvalue : '\n' ∉ Decimal.ofInt value := Decimal.not_mem_ofInt (by decide) (by decide) value
    simp [toList_shown_number, hname, hvalue]

end Variable

namespace Machine

theorem toList_portText (i : Nat) (n : Int) :
    (portText i n).toList = 'P' :: (Decimal.ofInt i ++ ':' :: ' ' :: Hex.ofInt n) := by
  simp [portText, Hex.text]

theorem eq_of_portText_eq {i j : Nat} {m n : Int}
    (h : (portText i m).toList = (portText j n).toList) : i = j ∧ m = n := by
  have hcolon (k : Nat) : ':' ∉ Decimal.ofInt k := Decimal.not_mem_ofInt (by decide) (by decide) k
  rw [toList_portText, toList_portText] at h
  obtain ⟨hindex, hvalue⟩ := Text.eq_of_append_cons_eq (hcolon i) (hcolon j) (List.cons.inj h).2
  exact ⟨Int.natCast_inj.mp (Decimal.ofInt_injective hindex),
    Hex.ofInt_injective (List.cons.inj hvalue).2⟩

theorem not_mem_portText {c : Char} (hc : c = ',' ∨ c = '\n') (i : Nat) (n : Int) :
    c ∉ (portText i n).toList := by
  have hindex : c ∉ Decimal.ofInt i := by
    obtain rfl | rfl := hc <;> exact Decimal.not_mem_ofInt (by decide) (by decide) i
  have hvalue : c ∉ Hex.ofInt n := by
    obtain rfl | rfl := hc <;> exact Hex.not_mem_ofInt (by decide) (by decide) (by decide) n
  obtain rfl | rfl := hc <;> simp [toList_portText, hindex, hvalue]

def portTexts (ports : List Int) : List (List Char) :=
  ports.zipIdx.map fun p => (portText p.2 p.1).toList

theorem toList_portRow (ports : List Int) :
    (portRow ports).toList = "      ".toList ++ [',', ' '].intercalate (portTexts ports) := by
  simp only [portRow, String.toList_append, String.toList_intercalate, List.map_map]
  rfl

theorem portTexts_injective : Function.Injective portTexts := by
  intro ports ports' h
  have htext : Function.Injective fun p : Int × Nat => (portText p.2 p.1).toList := by
    rintro ⟨m, i⟩ ⟨n, j⟩ hp
    obtain ⟨rfl, rfl⟩ := eq_of_portText_eq hp
    rfl
  have hindexed : ports.zipIdx = ports'.zipIdx := List.map_injective_iff.mpr htext h
  rw [← List.zipIdx_map_fst 0 ports, hindexed, List.zipIdx_map_fst]

theorem portRow_injective : Function.Injective portRow := by
  have hrun (ports : List Int) : ∀ x ∈ portTexts ports, Text.IsRun ',' x := by
    intro x hx
    obtain ⟨⟨n, i⟩, -, rfl⟩ := List.mem_map.mp hx
    exact ⟨by simp [toList_portText], not_mem_portText (.inl rfl) i n⟩
  intro ports ports' h
  have hlists := congrArg String.toList h
  rw [toList_portRow, toList_portRow] at hlists
  exact portTexts_injective
    (Text.eq_of_intercalate_eq (hrun ports) (hrun ports') (List.append_cancel_left hlists))

theorem newline_not_mem_portRow (ports : List Int) : '\n' ∉ (portRow ports).toList := by
  have htexts : '\n' ∉ [',', ' '].intercalate (portTexts ports) := by
    refine Text.not_mem_intercalate (by decide) fun x hx => ?_
    obtain ⟨⟨n, i⟩, -, rfl⟩ := List.mem_map.mp hx
    exact not_mem_portText (.inr rfl) i n
  simp [toList_portRow, htexts]

theorem toList_labelRow (l : Label) :
    (labelRow l).toList = "    ".toList ++ (l.name.plainText.toList ++
      ' ' :: ("(line ".toList ++ (Decimal.ofInt l.line ++ [')']))) := by
  simp [labelRow]

theorem eq_of_labelRow_eq {l l' : Label} (hl : l.name.isUnspaced = true)
    (hl' : l'.name.isUnspaced = true) (h : labelRow l = labelRow l') : l = l' := by
  have hlists := congrArg String.toList h
  rw [toList_labelRow, toList_labelRow] at hlists
  obtain ⟨hname, hrest⟩ :=
    Json.eq_of_plainText_append_eq hl hl' (List.append_cancel_left hlists)
  have hline : Decimal.ofInt l.line = Decimal.ofInt l'.line :=
    List.append_cancel_right (List.append_cancel_left hrest)
  exact congrArg₂ Label.mk hname (Decimal.ofInt_injective hline)

theorem eq_of_variableRow_eq {v w : Variable} (hv : v.name.isUnspaced = true)
    (hw : w.name.isUnspaced = true) (h : variableRow v = variableRow w) : v = w :=
  Variable.eq_of_shown_eq hv hw ((String.append_right_inj _).mp h)

/-- Names of variables and labels are texts without blanks. -/
def hasUnspacedNames (m : Machine) : Bool :=
  m.labels.all (fun l => l.name.isUnspaced) && m.vars.all (fun v => v.name.isUnspaced)

/-- The stack, the accumulator and the number variables keep the digit limit. -/
def numbersFit (m : Machine) : Bool :=
  m.stack.all Decimal.fits && Decimal.fits m.accumulator && m.vars.all fun v =>
    match v with
    | .number _ n => Decimal.fits n
    | .string _ _ => true

/-- What the table shows of two machines is the same. -/
structure SameShown (m n : Machine) : Prop where
  stack : m.stack = n.stack
  ports : m.ports = n.ports
  accumulator : m.accumulator = n.accumulator
  labels : m.labels = n.labels
  vars : m.vars = n.vars

variable {m n : Machine}

theorem isUnspaced_of_mem_labels (hm : m.hasUnspacedNames = true) :
    ∀ l ∈ m.labels, l.name.isUnspaced = true := by
  simp only [hasUnspacedNames, Bool.and_eq_true, List.all_eq_true] at hm
  exact hm.1

theorem isUnspaced_of_mem_vars (hm : m.hasUnspacedNames = true) :
    ∀ v ∈ m.vars, v.name.isUnspaced = true := by
  simp only [hasUnspacedNames, Bool.and_eq_true, List.all_eq_true] at hm
  exact hm.2

/-- Rows of labels are indented, so that a brace ends them. -/
theorem brace_not_mem_labelRows (ls : List Label) : "\x7d" ∉ ls.map labelRow := by
  intro h
  obtain ⟨l, -, hl⟩ := List.mem_map.mp h
  have hlists := congrArg String.toList hl
  simp [toList_labelRow] at hlists

theorem sameShown_of_rows_eq (hm : m.hasUnspacedNames = true) (hn : n.hasUnspacedNames = true)
    (h : m.rows = n.rows) : m.SameShown n := by
  simp only [rows, List.cons_append, List.nil_append, List.append_assoc, List.cons.injEq,
    true_and] at h
  obtain ⟨hstack, hports, hrest⟩ := h
  -- the first brace behind the labels ends them, and the variables are all but the last row
  obtain ⟨hlabels, hrest⟩ := Text.eq_of_append_cons_eq (brace_not_mem_labelRows m.labels)
    (brace_not_mem_labelRows n.labels) hrest
  obtain ⟨haccumulator, hrest⟩ := List.cons.inj hrest
  have hvars : m.vars.reverse.map variableRow = n.vars.reverse.map variableRow :=
    List.append_cancel_right (List.cons.inj hrest).2
  rw [List.map_reverse, List.map_reverse] at hvars
  constructor
  · exact List.reverse_injective
      (Decimal.listText_injective ((String.append_right_inj _).mp hstack))
  · exact portRow_injective hports
  · have hdigits := congrArg String.toList ((String.append_right_inj _).mp haccumulator)
    rw [Decimal.toList_text, Decimal.toList_text] at hdigits
    exact Decimal.ofInt_injective hdigits
  · exact eq_of_map_eq (fun l l' => eq_of_labelRow_eq) (isUnspaced_of_mem_labels hm)
      (isUnspaced_of_mem_labels hn) hlabels
  · exact eq_of_map_eq (fun v w => eq_of_variableRow_eq) (isUnspaced_of_mem_vars hm)
      (isUnspaced_of_mem_vars hn) (List.reverse_injective hvars)

theorem isRun_of_mem_rows (hm : m.hasUnspacedNames = true) :
    ∀ row ∈ m.rows.map String.toList, Text.IsRun '\n' row := by
  have hdigits (k : Int) : '\n' ∉ Decimal.ofInt k := Decimal.not_mem_ofInt (by decide) (by decide) k
  have hlabel : ∀ l ∈ m.labels, Text.IsRun '\n' (labelRow l).toList := by
    intro l hl
    have hname := Json.not_mem_plainText (isUnspaced_of_mem_labels hm l hl) (c := '\n') (by decide)
    exact ⟨by simp [labelRow], by simp [toList_labelRow, hname, hdigits]⟩
  have hvariable : ∀ v ∈ m.vars, Text.IsRun '\n' (variableRow v).toList := by
    intro v hv
    have hshown := Variable.newline_not_mem_shown (isUnspaced_of_mem_vars hm v hv)
    exact ⟨by simp [variableRow], by simp [variableRow, hshown]⟩
  have hstack : Text.IsRun '\n' ("Stack:          " ++ Decimal.listText m.stack.reverse).toList :=
    ⟨by simp, by simp [Decimal.newline_not_mem_listText]⟩
  have hports : Text.IsRun '\n' (portRow m.ports).toList :=
    ⟨by simp [portRow], newline_not_mem_portRow m.ports⟩
  have haccumulator : Text.IsRun '\n' ("Accumulator:    " ++ Decimal.text m.accumulator).toList :=
    ⟨by simp, by simp [hdigits]⟩
  simp only [rows, List.forall_mem_map, List.forall_mem_append, List.forall_mem_cons,
    List.mem_reverse, List.not_mem_nil, IsEmpty.forall_iff, implies_true, and_true]
  exact ⟨⟨⟨⟨⟨hstack, by decide, hports, by decide, by decide⟩, hlabel⟩, by decide, haccumulator,
    by decide⟩, hvariable⟩, by decide⟩

theorem sameShown_of_table_eq (hm : m.hasUnspacedNames = true) (hn : n.hasUnspacedNames = true)
    (h : m.table = n.table) : m.SameShown n := by
  have hlists := congrArg String.toList ((String.append_left_inj _).mp h)
  rw [String.toList_intercalate, String.toList_intercalate] at hlists
  have hrows := Text.eq_of_intercalate_eq (isRun_of_mem_rows hm) (isRun_of_mem_rows hn) hlists
  have hinjective : Function.Injective String.toList := fun _ _ => String.toList_injective
  exact sameShown_of_rows_eq hm hn (List.map_injective_iff.mpr hinjective hrows)

/-- Names without blanks keep the digit limit, so that numbers alone decide. -/
theorem writeTable_of_numbersFit (hm : m.hasUnspacedNames = true) (hfits : m.numbersFit = true)
    (hlines : ∀ l ∈ m.labels, Decimal.fits l.line = true) : m.writeTable = .ok m.table := by
  simp only [numbersFit, Bool.and_eq_true, List.all_eq_true] at hfits
  obtain ⟨⟨hstack, haccumulator⟩, hnumbers⟩ := hfits
  have hlabels : ∀ l ∈ m.labels, (l.name.fits && Decimal.fits l.line) = true := by
    intro l hl
    rw [Json.fits_of_isUnspaced (isUnspaced_of_mem_labels hm l hl), hlines l hl]
    rfl
  have hvars : ∀ v ∈ m.vars, v.fits = true := by
    intro v hv
    have hname := Json.fits_of_isUnspaced (isUnspaced_of_mem_vars hm v hv)
    have hnumber := hnumbers v hv
    cases v with
    | string name value => exact hname
    | number name value => exact Bool.and_eq_true_iff.mpr ⟨hname, hnumber⟩
  have htable : m.tableFits = true := by
    simp only [tableFits, Bool.and_eq_true, List.all_eq_true] at hlabels ⊢
    exact ⟨⟨⟨hstack, hlabels⟩, haccumulator⟩, hvars⟩
  rw [writeTable, if_pos htable]

theorem SameShown.table_eq (h : m.SameShown n) : m.table = n.table := by
  simp only [table, rows, h.stack, h.ports, h.accumulator, h.labels, h.vars]

theorem eq_table_of_writeTable {text : String} (h : m.writeTable = .ok text) : text = m.table := by
  unfold writeTable at h
  split at h
  · exact (Except.ok.inj h).symm
  · cases h

/-- Machines whose names have no blanks, like the words of every line, have the same table only if
they have the same stack, ports, accumulator, labels and variables. They have a table if their
numbers keep the digit limit. -/
theorem table_shows_one_machine :
    (∀ line, ∀ word ∈ Word.split line, (Json.string word).isUnspaced = true) ∧
    ∀ m n : Machine, m.hasUnspacedNames = true → n.hasUnspacedNames = true →
      (∀ text text', m.writeTable = .ok text → n.writeTable = .ok text' →
        (text = text' ↔ m.SameShown n)) ∧
      (m.numbersFit = true → (∀ l ∈ m.labels, Decimal.fits l.line = true) →
        ∃ text, m.writeTable = .ok text) := by
  refine ⟨fun line word hword => Json.isUnspaced_of_mem_split hword, fun m n hm hn => ⟨?_, ?_⟩⟩
  · intro text text' htext htext'
    rw [eq_table_of_writeTable htext, eq_table_of_writeTable htext']
    exact ⟨sameShown_of_table_eq hm hn, SameShown.table_eq⟩
  · intro hfits hlines
    exact ⟨m.table, writeTable_of_numbersFit hm hfits hlines⟩

/-- A name may be a brace or close its own row, and without its escapes the one string would read as
the rows of two. The tables differ all the same. -/
theorem table_shows_one_machine_of_imitation :
    let one : Machine :=
      { stack := [-12, 7], ports := [0, -255], labels := [⟨.string "\x7d", 1⟩, ⟨.string "x)", 2⟩]
        vars := [.string (.string "s=") "1')\n    String(t = '2"] }
    let two : Machine :=
      { one with vars := [.string (.string "t") "2", .string (.string "s=") "1"] }
    ∃ text text', one.writeTable = .ok text ∧ two.writeTable = .ok text' ∧ text ≠ text' := by
  intro one two
  have hone : one.hasUnspacedNames = true := by decide
  have htwo : two.hasUnspacedNames = true := by decide
  obtain ⟨hsame, htable⟩ := table_shows_one_machine.2 one two hone htwo
  obtain ⟨-, htable'⟩ := table_shows_one_machine.2 two one htwo hone
  obtain ⟨text, htext⟩ := htable (by decide) (by decide)
  obtain ⟨text', htext'⟩ := htable' (by decide) (by decide)
  refine ⟨text, text', htext, htext', fun h => ?_⟩
  exact absurd ((hsame text text' htext htext').mp h).vars (by decide)

end Machine
end LineAssembly
