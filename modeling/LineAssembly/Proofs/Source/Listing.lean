import LineAssembly.Proofs.Source.TokenOrder
import LineAssembly.Source.Program
import Mathlib.Data.List.Nodup
import Mathlib.Data.List.TakeWhile

/-! Lines of a listing. Each line is what its own source gives under its own number, the numbers
count up from one, and the error count is that of the items of all lines. -/
namespace LineAssembly

def LineReading.ofItems (number : Int) (raw : String) (items : List Item) : LineReading :=
  { messages := (Item.readable items).flatMap (Item.messages number)
    errors := (Item.readable items).countP Item.isError
    result := match items.findSome? Item.overlong? with
      | some excess => .error excess
      | none => .ok ⟨items.filterMap Item.token?, raw, number, items.findSome? Item.comment?⟩ }

namespace Item

def isFaultless (i : Item) : Bool := !i.isError && i.overlong?.isNone

theorem messages_of_isFaultless {i : Item} (h : i.isFaultless = true) (number : Int) :
    i.messages number = [] := by
  cases i with
  | token | comment | overlong => rfl
  | dropped | nameless | unterminated => cases h

end Item

theorem LineReading.ofItems_of_isFaultless {items : List Item}
    (h : ∀ i ∈ items, i.isFaultless = true) (number : Int) (raw : String) :
    ofItems number raw items =
      ⟨[], 0, .ok ⟨Item.tokens items, raw, number, items.findSome? Item.comment?⟩⟩ := by
  have hboth : ∀ i ∈ items, i.isError = false ∧ i.overlong? = none := by
    simpa [Item.isFaultless] using h
  have hlong : items.findSome? Item.overlong? = none :=
    List.findSome?_eq_none_iff.mpr fun i hi => (hboth i hi).2
  have hreadable : Item.readable items = items :=
    List.takeWhile_eq_self_iff.mpr fun i hi => by simp [(hboth i hi).2]
  have herrors : items.countP Item.isError = 0 :=
    List.countP_eq_zero.mpr fun i hi => by simp [(hboth i hi).1]
  have hmessages : items.flatMap (Item.messages number) = [] :=
    List.flatMap_eq_nil_iff.mpr fun i hi => Item.messages_of_isFaultless (h i hi) number
  simp only [ofItems, hlong, hreadable, herrors, hmessages, Item.tokens]

namespace Line

theorem read_eq_ofItems (number : Int) (raw : String) :
    Line.read number raw = .ofItems number raw (Item.ofLine number raw) := rfl

def items (l : Line) : List Item := Item.ofLine l.number l.source

/-- A line that is what reading its source gives. -/
def IsRead (l : Line) : Prop := (Line.read l.number l.source).result = .ok l

theorem eq_of_read {number : Int} {raw : String} {l : Line}
    (h : (Line.read number raw).result = .ok l) : l.number = number ∧ l.source = raw := by
  simp only [Line.read] at h
  split at h
  · cases h
  · cases h
    exact ⟨rfl, rfl⟩

theorem isRead_of_read {number : Int} {raw : String} {l : Line}
    (h : (Line.read number raw).result = .ok l) : l.IsRead := by
  obtain ⟨rfl, rfl⟩ := eq_of_read h
  exact h

namespace IsRead

variable {l : Line}

theorem findSome?_overlong (h : l.IsRead) : l.items.findSome? Item.overlong? = none := by
  unfold IsRead Line.read at h
  simp only at h
  split at h
  · cases h
  · assumption

theorem tokens_eq (h : l.IsRead) : l.tokens = Item.tokens l.items := by
  have hn := h.findSome?_overlong
  unfold IsRead Line.read at h
  simp only [← items.eq_def, hn, Except.ok.injEq] at h
  exact (congrArg Line.tokens h).symm

theorem comment_eq (h : l.IsRead) : l.comment = l.items.findSome? Item.comment? := by
  have hn := h.findSome?_overlong
  unfold IsRead Line.read at h
  simp only [← items.eq_def, hn, Except.ok.injEq] at h
  exact (congrArg Line.comment h).symm

/-- A line that was read has no overlong numeral, so all of its items count. -/
theorem readable_items (h : l.IsRead) : Item.readable l.items = l.items := by
  have hn := h.findSome?_overlong
  apply List.takeWhile_eq_self_iff.mpr
  intro i hi
  simpa using List.findSome?_eq_none_iff.mp hn i hi

theorem errors_eq (h : l.IsRead) :
    (Line.read l.number l.source).errors = l.items.countP Item.isError :=
  congrArg (List.countP Item.isError) h.readable_items

theorem isFaultless (h : l.IsRead) (herrors : (Line.read l.number l.source).errors = 0) :
    ∀ i ∈ l.items, i.isFaultless = true := by
  intro i hi
  rw [h.errors_eq] at herrors
  have herror : i.isError = false := by simpa using List.countP_eq_zero.mp herrors i hi
  have hlong := List.findSome?_eq_none_iff.mp h.findSome?_overlong i hi
  simp [Item.isFaultless, herror, hlong]

theorem messages_eq (h : l.IsRead) :
    (Line.read l.number l.source).messages = l.items.flatMap (Item.messages l.number) :=
  congrArg (List.flatMap (Item.messages l.number)) h.readable_items

theorem number_fits (h : l.IsRead) {t : Token} (ht : t ∈ l.tokens) {n : Int}
    (hn : t.kind = .number n) : Decimal.fits n = true := by
  rw [h.tokens_eq] at ht
  obtain ⟨mode, hm⟩ := exists_admits_of_mem_tokens ht
  cases mode with
  | plain started => exact hm.number_fits n hn
  | afterFn => simp [Mode.Admits, hn] at hm
  | inComment parts => exact hm.elim
  | _ => simp [Mode.Admits, hn] at hm

end IsRead
end Line

namespace Listing

def append (l : Listing) (line : Line) (errors : Nat) : Listing :=
  { lines := l.lines ++ [line], errorCount := l.errorCount + errors }

theorem addAll_cons_of_error {l : Listing} {raw : String} {excess : Decimal.TooLong}
    (h : (Line.read l.next raw).result = .error excess) (raws : List String) :
    l.addAll (raw :: raws) = ((Line.read l.next raw).messages, .error excess) := by
  simp [addAll, add, h]

theorem addAll_cons_of_ok {l : Listing} {raw : String} {line : Line}
    (h : (Line.read l.next raw).result = .ok line) (raws : List String) :
    l.addAll (raw :: raws) =
      ((Line.read l.next raw).messages ++
          ((l.append line (Line.read l.next raw).errors).addAll raws).1,
        ((l.append line (Line.read l.next raw).errors).addAll raws).2) := by
  simp [addAll, add, append, h]

structure IsRead (l : Listing) : Prop where
  lines : ∀ line ∈ l.lines, line.IsRead
  numbers : l.lines.map Line.number = (List.range l.lines.length).map fun i : Nat => (i : Int) + 1
  errors : l.errorCount = (l.lines.flatMap Line.items).countP Item.isError

theorem isRead_empty : IsRead {} := ⟨by simp, rfl, rfl⟩

theorem isRead_add {l : Listing} (hl : l.IsRead) {raw : String} {line : Line}
    (h : (l.add raw).2.result = .ok line) : (l.add raw).1.IsRead := by
  have hread : (Line.read l.next raw).result = .ok line := by
    unfold add at h
    simp only at h
    split at h <;> exact h
  have hadd : (l.add raw).1 =
      { lines := l.lines ++ [line], errorCount := l.errorCount + (Line.read l.next raw).errors } := by
    simp only [add, hread]
  have hline := Line.isRead_of_read hread
  obtain ⟨hnumber, hsource⟩ := Line.eq_of_read hread
  rw [hadd]
  constructor
  · intro x hx
    rcases List.mem_append.mp hx with hx | hx
    · exact hl.lines x hx
    · rw [List.mem_singleton.mp hx]
      exact hline
  · simp [hl.numbers, List.range_succ, hnumber, next]
  · have herr := hline.errors_eq
    rw [hnumber, hsource] at herr
    simp [hl.errors, herr]

theorem isRead_addAll {l l' : Listing} (hl : l.IsRead) {raws : List String}
    (h : (l.addAll raws).2 = .ok l') : l'.IsRead := by
  induction raws generalizing l with
  | nil =>
    simp only [addAll, Except.ok.injEq] at h
    exact h ▸ hl
  | cons raw raws ih =>
    cases hr : (l.add raw).2.result with
    | error excess => simp [addAll, hr] at h
    | ok line =>
      simp only [addAll, hr] at h
      exact ih (isRead_add hl hr) h

namespace IsRead

variable {l : Listing}

theorem nodup_numbers (h : l.IsRead) : (l.lines.map Line.number).Nodup := by
  rw [h.numbers]
  apply List.Nodup.map _ List.nodup_range
  intro i j hij
  dsimp only at hij
  omega

theorem eq_of_number_eq (h : l.IsRead) {x y : Line} (hx : x ∈ l.lines) (hy : y ∈ l.lines)
    (hxy : x.number = y.number) : x = y :=
  List.inj_on_of_nodup_map h.nodup_numbers hx hy hxy

theorem nodup_lines (h : l.IsRead) : l.lines.Nodup := List.Nodup.of_map _ h.nodup_numbers

theorem isError_eq_false (h : l.IsRead) (h0 : l.errorCount = 0) {line : Line}
    (hline : line ∈ l.lines) {i : Item} (hi : i ∈ line.items) : i.isError = false := by
  have hzero := h.errors.symm.trans h0
  simpa using List.countP_eq_zero.mp hzero i (List.mem_flatMap.mpr ⟨line, hline, hi⟩)

end IsRead
end Listing

theorem Program.exists_listing_of_read {text : String} {tilde : Bool} {p : Program}
    (h : (Program.read text tilde).result = .ok p) :
    ∃ l : Listing, l.IsRead ∧ p = Program.ofListing l := by
  unfold Program.read Program.readLines at h
  split at h
  · cases h
  · rename_i messages l hl
    cases h
    exact ⟨l, Listing.isRead_addAll Listing.isRead_empty (by rw [hl]), rfl⟩

end LineAssembly
