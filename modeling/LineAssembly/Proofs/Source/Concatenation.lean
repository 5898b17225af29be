import LineAssembly.Proofs.Source.Blocks
import LineAssembly.Proofs.Source.Relocation
import LineAssembly.Proofs.Text.Lines

/-! Texts in a row. Lines are read one by one, so that what follows is read as it would be on its
own and only numbered on. Where it begins with a header, routines do not reach across either, and
the program of both texts is the one of the first followed by the one of the second. -/
namespace LineAssembly

/-- Numbers raised by `k`. -/
def Relocation.shift (k : Int) : Relocation := { number := (· + k) }

namespace Line

theorem relocate_shift_shift (j k : Int) (l : Line) :
    (l.relocate (.shift j)).relocate (.shift k) = l.relocate (.shift (j + k)) := by
  have htoken : Token.relocate (.shift k) ∘ Token.relocate (.shift j) =
      Token.relocate (.shift (j + k)) := by
    funext ⟨kind, value, column⟩
    cases kind with
    | label place =>
      simp [Token.relocate, Token.Kind.relocate, Label.relocate, Relocation.shift, Int.add_assoc]
    | _ => rfl
  have hnumber : l.number + j + k = l.number + (j + k) := Int.add_assoc _ _ _
  simp only [relocate, List.map_map, htoken]
  simp only [Relocation.shift, hnumber, id]

theorem result_read_add (number k : Int) (raw : String) :
    (read (number + k) raw).result = (read number raw).result.map (relocate (.shift k)) :=
  result_read_relocate (ρ := .shift k) rfl rfl number raw

end Line

namespace Listing

def followedBy (l l' : Listing) : Listing :=
  { lines := l.lines ++ l'.lines.map (Line.relocate (.shift l.lines.length))
    errorCount := l.errorCount + l'.errorCount }

theorem followedBy_append (l : Listing) (line : Line) (errors : Nat) (l' : Listing) :
    l.followedBy ((append {} line errors).followedBy l') =
      (l.append (line.relocate (.shift l.lines.length)) errors).followedBy l' := by
  have hlines : (l'.lines.map (Line.relocate (.shift 1))).map
        (Line.relocate (.shift l.lines.length)) =
      l'.lines.map (Line.relocate (.shift (l.lines.length + 1))) := by
    rw [List.map_map]
    refine List.map_congr_left fun x _ => ?_
    rw [Function.comp_apply, Line.relocate_shift_shift, Int.add_comm]
  simp only [followedBy, append, List.nil_append, List.length_singleton, List.map_append,
    List.map_singleton, List.length_append, Int.natCast_add, Int.natCast_one, hlines,
    List.append_assoc, Nat.zero_add, Nat.add_assoc]

/-- Lines that are added to a listing are read as on their own and numbered on. -/
theorem addAll_eq_followedBy (l : Listing) (raws : List String) :
    (l.addAll raws).2 = (addAll {} raws).2.map l.followedBy := by
  induction raws generalizing l with
  | nil => simp [addAll, Except.map, followedBy]
  | cons raw raws ih =>
    have hnext : (l.next : Int) = (next {} : Int) + l.lines.length := by
      simp [next, Int.add_comm]
    have hread : (Line.read l.next raw).result =
        (Line.read (next {}) raw).result.map (Line.relocate (.shift l.lines.length)) := by
      rw [hnext, Line.result_read_add]
    have herrors : (Line.read l.next raw).errors = (Line.read (next {}) raw).errors :=
      Line.errors_read _ _ raw
    cases hfirst : (Line.read (next {}) raw).result with
    | error excess =>
      rw [hfirst] at hread
      rw [addAll_cons_of_error hread, addAll_cons_of_error hfirst]
      rfl
    | ok line =>
      rw [hfirst] at hread
      rw [addAll_cons_of_ok hread, addAll_cons_of_ok hfirst]
      simp only [herrors]
      rw [ih, ih (append {} line _)]
      cases (addAll {} raws).2 with
      | error excess => rfl
      | ok l' => exact congrArg Except.ok (followedBy_append l line _ l').symm

theorem addAll_append (l : Listing) (raws raws' : List String) :
    (l.addAll (raws ++ raws')).2 = (l.addAll raws).2.bind fun l' => (l'.addAll raws').2 := by
  induction raws generalizing l with
  | nil => rfl
  | cons raw raws ih =>
    cases hread : (Line.read l.next raw).result with
    | error excess =>
      rw [List.cons_append, addAll_cons_of_error hread, addAll_cons_of_error hread]
      rfl
    | ok line =>
      rw [List.cons_append, addAll_cons_of_ok hread, addAll_cons_of_ok hread]
      exact ih _

theorem sources_addAll {l l' : Listing} {raws : List String} (h : (l.addAll raws).2 = .ok l') :
    l'.lines.map Line.source = l.lines.map Line.source ++ raws := by
  induction raws generalizing l with
  | nil =>
    cases h
    simp
  | cons raw raws ih =>
    cases hread : (Line.read l.next raw).result with
    | error excess =>
      rw [addAll_cons_of_error hread] at h
      cases h
    | ok line =>
      rw [addAll_cons_of_ok hread] at h
      have hrest := ih h
      simpa [append, (Line.eq_of_read hread).2] using hrest

end Listing

def Extraction.append (x y : Extraction) : Extraction :=
  { routines := x.routines ++ y.routines
    dangling := x.dangling ++ y.dangling
    messages := x.messages ++ y.messages
    errorCount := x.errorCount + y.errorCount }

/-- A header closes whatever stands open before it, be it a routine, the lines behind a faulty
header or those before the first one. -/
theorem Extraction.ofLines_append {ls ls' : List Line}
    (h : ls'.head?.any Line.startsRoutine = true) :
    ofLines (ls ++ ls') = (ofLines ls).append (ofLines ls') := by
  cases ls' with
  | nil => cases h
  | cons header rest =>
    have hheader : header.startsRoutine = true := h
    simp only [ofLines_eq_grouped, grouped, append, Block.split_append_header hheader,
      Block.split_cons_header hheader]
    simp [Nat.add_assoc]

namespace Program

theorem result_readLines (raws : List String) :
    (readLines raws).result = (Listing.addAll {} raws).2.map ofListing := by
  unfold readLines
  split
  · rename_i h
    rw [h]
    rfl
  · rename_i h
    rw [h]
    rfl

theorem exists_addAll_of_read {text : String} {tilde : Bool} {p : Program}
    (h : (read text tilde).result = .ok p) :
    ∃ l, (Listing.addAll {} (Text.sourceLines text tilde)).2 = .ok l ∧ ofListing l = p := by
  rw [read, result_readLines] at h
  cases hl : (Listing.addAll {} (Text.sourceLines text tilde)).2 with
  | error excess =>
    rw [hl] at h
    cases h
  | ok l =>
    rw [hl] at h
    exact ⟨l, rfl, Except.ok.inj h⟩

theorem ofListing_followedBy {l l' : Listing}
    (h : l'.lines.head?.any Line.startsRoutine = true) :
    let ρ := Relocation.shift l.lines.length
    let p := ofListing l
    let q := ofListing l'
    ofListing (l.followedBy l') =
      { routines := p.routines ++ q.routines.map (Routine.relocate ρ)
        dangling := p.dangling ++ q.dangling.map (Line.relocate ρ)
        lines := p.lines ++ q.lines.map (Line.relocate ρ)
        errorCount := p.errorCount + q.errorCount } := by
  intro ρ p q
  have hheader : (l'.lines.map (Line.relocate ρ)).head?.any Line.startsRoutine = true := by
    rw [List.head?_map, Option.any_map]
    simpa only [Function.comp_def, Line.startsRoutine_relocate] using h
  have hfound : Extraction.ofLines (l.followedBy l').lines =
      (Extraction.ofLines l.lines).append (Extraction.ofLines (l'.lines.map (Line.relocate ρ))) :=
    Extraction.ofLines_append hheader
  have hcount : l.errorCount + l'.errorCount +
        ((Extraction.ofLines l.lines).errorCount + (Extraction.ofLines l'.lines).errorCount) =
      p.errorCount + q.errorCount := by
    simp only [p, q, ofListing]
    omega
  rw [ofListing]
  simp only [hfound, Extraction.append, Extraction.routines_relocate, Extraction.dangling_relocate,
    Extraction.errorCount_relocate]
  exact congrArg _ hcount

/-- The program of two texts, of which the first is closed and the second begins with a header, is
that of the first followed by that of the second, whose numbers are raised by the lines of the
first. -/
theorem read_append {text text' : String} {tilde : Bool} {p q : Program}
    (hp : (read text tilde).result = .ok p) (hq : (read text' tilde).result = .ok q)
    (hclosed : Text.isClosed tilde text = true)
    (hheader : q.lines.head?.any Line.startsRoutine = true) :
    let ρ := Relocation.shift (Text.sourceLines text tilde).length
    ∃ r, (read (text ++ text') tilde).result = .ok r ∧
      r.lines = p.lines ++ q.lines.map (Line.relocate ρ) ∧
      r.routines = p.routines ++ q.routines.map (Routine.relocate ρ) ∧
      r.dangling = p.dangling ++ q.dangling.map (Line.relocate ρ) ∧
      r.labels = p.labels ++ q.labels.map (Label.relocate ρ) ∧
      r.errorCount = p.errorCount + q.errorCount := by
  intro ρ
  obtain ⟨l, hl, rfl⟩ := exists_addAll_of_read hp
  obtain ⟨l', hl', rfl⟩ := exists_addAll_of_read hq
  have hlength : (Text.sourceLines text tilde).length = l.lines.length := by
    have hsources := congrArg List.length (Listing.sources_addAll hl)
    simpa using hsources.symm
  have hboth : (read (text ++ text') tilde).result = .ok (ofListing (l.followedBy l')) := by
    rw [read, result_readLines, Text.sourceLines_append hclosed, Listing.addAll_append, hl]
    simp only [Except.bind]
    rw [Listing.addAll_eq_followedBy, hl']
    rfl
  have hρ : ρ = .shift l.lines.length := congrArg (fun n : Nat => Relocation.shift n) hlength
  rw [ofListing_followedBy hheader, ← hρ] at hboth
  refine ⟨_, hboth, rfl, rfl, rfl, ?_, rfl⟩
  rw [← labels_relocate]
  exact List.flatMap_append

/-- The first text has a line before its only routine, and the second begins with a header that
opens none, so that both count an error and both have dangling lines. -/
theorem read_append_of_faulty_texts :
    let text := "push 1\nfn f ( )\nx: nl\n"
    let text' := "fn g\ny: nl\nfn h ( z: )\n"
    ∃ p q r, (read text false).result = .ok p ∧ (read text' false).result = .ok q ∧
      Text.isClosed false text = true ∧ q.lines.head?.any Line.startsRoutine = true ∧
      (read (text ++ text') false).result = .ok r ∧
      r.dangling = p.dangling ++ q.dangling.map (Line.relocate (.shift 3)) ∧
      r.routines = p.routines ++ q.routines.map (Routine.relocate (.shift 3)) ∧
      r.dangling.map Line.number = [1, 5] ∧ r.labels.map Label.line = [3, 5, 6] ∧
      r.errorCount = 2 := by
  intro text text'
  have hp : (read "push 1\nfn f ( )\nx: nl\n" false).result = .ok _ := rfl
  have hq : (read "fn g\ny: nl\nfn h ( z: )\n" false).result = .ok _ := rfl
  have hclosed : Text.isClosed false text = true := by decide
  obtain ⟨r, hr, -, hroutines, hdangling, hlabels, hcount⟩ := read_append hp hq hclosed rfl
  refine ⟨_, _, r, hp, hq, hclosed, rfl, hr, hdangling, hroutines, ?_, ?_, ?_⟩
  · rw [hdangling]
    rfl
  · rw [hlabels]
    rfl
  · rw [hcount]
    rfl

end Program
end LineAssembly
