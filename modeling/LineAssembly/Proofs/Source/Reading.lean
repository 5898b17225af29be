import LineAssembly.Proofs.Source.Relocation

/-! Reading up to a relocation. Where a relocation leaves the numbers of lines, the messages of a
reading do not see it, and what it leaves of the source lines decides what it leaves of the
program. -/
namespace LineAssembly

theorem error_or_ok_of_map_eq {ε α β γ : Type} {f : α → γ} {g : β → γ} {x : Except ε α}
    {y : Except ε β} (h : x.map f = y.map g) :
    (∃ e, x = .error e ∧ y = .error e) ∨ ∃ a b, x = .ok a ∧ y = .ok b ∧ f a = g b := by
  cases x with
  | error e =>
    cases y with
    | error e' => exact .inl ⟨e, rfl, by rw [Except.error.inj h]⟩
    | ok b => cases h
  | ok a =>
    cases y with
    | error e' => cases h
    | ok b => exact .inr ⟨a, b, rfl, rfl, Except.ok.inj h⟩

variable {ρ : Relocation}

/-- What a relocation leaves of a source line: its text and its words. -/
def Relocation.view (ρ : Relocation) (raw : String) : String × List Word :=
  (ρ.source raw, (Word.scan raw).map (Word.relocate ρ))

theorem Header.Note.relocate_of_number (hnumber : ρ.number = id) (note : Note) :
    note.relocate ρ = note := by
  cases note with
  | noBracket name line => rw [relocate, hnumber, id]
  | _ => rfl

theorem topLevelMessages_relocate (hnumber : ρ.number = id) (l : Line) :
    topLevelMessages (l.relocate ρ) = topLevelMessages l := by
  rw [topLevelMessages, Line.tokens_relocate, List.isEmpty_map, Line.number_relocate, hnumber]
  rfl

theorem Extraction.messages_relocate (hnumber : ρ.number = id) (ls : List Line) :
    (ofLines (ls.map (Line.relocate ρ))).messages = (ofLines ls).messages := by
  have hnotes (b : Block) : (b.relocate ρ).notes = b.notes := by
    rw [Block.notes_relocate, List.map_id'' (Header.Note.relocate_of_number hnumber)]
  simp only [ofLines_eq_grouped, grouped, Block.split_relocate, List.flatMap_map,
    topLevelMessages_relocate hnumber, hnotes]

theorem Item.messages_relocate (ρ : Relocation) (number : Int) (i : Item) :
    (i.relocate ρ).messages number = i.messages number := by
  cases i <;> rfl

namespace LineReading

def relocate (ρ : Relocation) (r : LineReading) : LineReading :=
  { r with result := r.result.map (Line.relocate ρ) }

theorem relocate_eq_iff {r r' : LineReading} :
    r.relocate ρ = r'.relocate ρ ↔
      r.messages = r'.messages ∧ r.errors = r'.errors ∧
        r.result.map (Line.relocate ρ) = r'.result.map (Line.relocate ρ) := by
  rw [relocate, relocate, LineReading.mk.injEq]

theorem relocate_ofItems (hnumber : ρ.number = id) (number : Int) (raw : String)
    (items : List Item) :
    (ofItems number raw items).relocate ρ =
      ofItems number (ρ.source raw) (items.map (Item.relocate ρ)) := by
  have hresult := result_relocate ρ number raw items
  rw [hnumber, id] at hresult
  rw [relocate, ← hresult]
  simp only [ofItems, Item.readable_relocate, List.flatMap_map, List.countP_map, Function.comp_def,
    Item.messages_relocate, Item.isError_relocate]

end LineReading

theorem Line.relocate_read_of_view_eq (hnumber : ρ.number = id) {raw raw' : String}
    (h : ρ.view raw = ρ.view raw') (number : Int) :
    (Line.read number raw).relocate ρ = (Line.read number raw').relocate ρ := by
  obtain ⟨hsource, hwords⟩ := Prod.mk.inj h
  rw [read_eq_ofItems, read_eq_ofItems, LineReading.relocate_ofItems hnumber,
    LineReading.relocate_ofItems hnumber, Item.map_relocate_ofLine, Item.map_relocate_ofLine,
    hsource, hwords]

namespace Listing

def relocate (ρ : Relocation) (l : Listing) : Listing :=
  { l with lines := l.lines.map (Line.relocate ρ) }

theorem next_relocate (ρ : Relocation) (l : Listing) : (l.relocate ρ).next = l.next := by
  rw [next, relocate, List.length_map]
  rfl

theorem relocate_append (ρ : Relocation) (l : Listing) (line : Line) (errors : Nat) :
    (l.append line errors).relocate ρ = (l.relocate ρ).append (line.relocate ρ) errors := by
  simp [append, relocate]

theorem addAll_of_view_eq (hnumber : ρ.number = id) {l l' : Listing} {raws raws' : List String}
    (h : l.relocate ρ = l'.relocate ρ) (hraws : raws.map ρ.view = raws'.map ρ.view) :
    (l.addAll raws).1 = (l'.addAll raws').1 ∧
      (l.addAll raws).2.map (relocate ρ) = (l'.addAll raws').2.map (relocate ρ) := by
  induction raws generalizing l l' raws' with
  | nil =>
    obtain rfl : raws' = [] := List.map_eq_nil_iff.mp hraws.symm
    exact ⟨rfl, congrArg Except.ok h⟩
  | cons raw raws ih =>
    obtain ⟨raw', raws', rfl, hraw, hrest⟩ := List.map_eq_cons_iff.mp hraws.symm
    have hnext : l.next = l'.next := by rw [← next_relocate ρ, h, next_relocate]
    have hreading : (Line.read l.next raw).relocate ρ = (Line.read l'.next raw').relocate ρ := by
      rw [hnext]
      exact Line.relocate_read_of_view_eq hnumber hraw.symm l'.next
    obtain ⟨hmessages, herrors, hresult⟩ := LineReading.relocate_eq_iff.mp hreading
    obtain ⟨excess, hr, hr'⟩ | ⟨line, line', hr, hr', hline⟩ := error_or_ok_of_map_eq hresult
    · rw [addAll_cons_of_error hr, addAll_cons_of_error hr', hmessages]
      exact ⟨rfl, rfl⟩
    · have happend : (l.append line (Line.read l.next raw).errors).relocate ρ =
          (l'.append line' (Line.read l'.next raw').errors).relocate ρ := by
        rw [relocate_append, relocate_append, h, hline, herrors]
      obtain ⟨hfirst, hsecond⟩ := ih happend hrest.symm
      rw [addAll_cons_of_ok hr, addAll_cons_of_ok hr']
      exact ⟨by simp only [hmessages, hfirst], hsecond⟩

end Listing

namespace Program

def Reading.relocate (ρ : Relocation) (r : Reading) : Reading :=
  { r with result := r.result.map (Program.relocate ρ) }

theorem ofListing_relocate (ρ : Relocation) (l : Listing) :
    ofListing (l.relocate ρ) = (ofListing l).relocate ρ := by
  simp only [ofListing, Listing.relocate, Extraction.routines_relocate,
    Extraction.dangling_relocate, Extraction.errorCount_relocate]
  rfl

theorem listingMessages_relocate (hnumber : ρ.number = id) (l : Listing) :
    listingMessages (l.relocate ρ) = listingMessages l := by
  simp only [listingMessages, Listing.relocate, Extraction.messages_relocate hnumber,
    Extraction.routines_relocate, List.isEmpty_map]

theorem relocate_readLines_of_error {raws : List String} {excess : Decimal.TooLong}
    (h : (Listing.addAll {} raws).2 = .error excess) :
    (readLines raws).relocate ρ =
      ⟨emptyMessages raws ++ (Listing.addAll {} raws).1, .error excess⟩ := by
  rw [readLines, ← Prod.eta (Listing.addAll {} raws), h]
  rfl

theorem relocate_readLines_of_ok (hnumber : ρ.number = id) {raws : List String} {l : Listing}
    (h : (Listing.addAll {} raws).2 = .ok l) :
    (readLines raws).relocate ρ =
      ⟨emptyMessages raws ++ (Listing.addAll {} raws).1 ++ listingMessages (l.relocate ρ),
        .ok (ofListing (l.relocate ρ))⟩ := by
  rw [readLines, ← Prod.eta (Listing.addAll {} raws), h, listingMessages_relocate hnumber,
    ofListing_relocate]
  rfl

/-- What is left of the source lines decides the messages and what is left of the program. -/
theorem relocate_readLines_of_view_eq (hnumber : ρ.number = id) {raws raws' : List String}
    (h : raws.map ρ.view = raws'.map ρ.view) :
    (readLines raws).relocate ρ = (readLines raws').relocate ρ := by
  have hempty : emptyMessages raws = emptyMessages raws' := by
    have hmap := congrArg List.isEmpty h
    rw [List.isEmpty_map, List.isEmpty_map] at hmap
    rw [emptyMessages, emptyMessages, hmap]
  obtain ⟨hmessages, hresult⟩ := Listing.addAll_of_view_eq hnumber (l := {}) rfl h
  obtain ⟨excess, hr, hr'⟩ | ⟨l, l', hr, hr', hl⟩ := error_or_ok_of_map_eq hresult
  · rw [relocate_readLines_of_error hr, relocate_readLines_of_error hr', hempty, hmessages]
  · rw [relocate_readLines_of_ok hnumber hr, relocate_readLines_of_ok hnumber hr', hempty,
      hmessages, hl]

end Program
end LineAssembly
