import LineAssembly.Proofs.Run.Frame
import LineAssembly.Proofs.Run.Provenance
import LineAssembly.Proofs.Source.Numbering
import LineAssembly.Proofs.Source.Overlong
import LineAssembly.Proofs.Source.Scanning

/-! Labels from the reading of a line to the end of a run. A label gets the number of its line while
the line is read, which may still fail, the program lists the labels of all lines, and no step of a
run touches them. -/
namespace LineAssembly

theorem Word.isOverlong_replicate {n : Nat} (hn : Decimal.limit < n) {c : Char}
    (hc : Decimal.isDigit c = true) : isOverlong (String.ofList (List.replicate n c)) = true := by
  have hpos : n ≠ 0 := Nat.ne_of_gt (Nat.zero_lt_of_lt hn)
  simp [isOverlong, Decimal.isNumeral, hpos, hc, hn]

theorem Item.ofLine_of_isOverlong {w : String} (hword : Word.IsWord w.toList)
    (hlong : Word.isOverlong w = true) (number : Int) :
    ofLine number w = [.overlong (.reading w.length)] := by
  have hboth : Decimal.isNumeral w.toList = true ∧ Decimal.limit < w.length := by
    simpa [Word.isOverlong] using hlong
  have hscan : Word.scan w = [⟨w, 0⟩] := by
    rw [Word.scan, Word.scanFrom_of_isWord hword, String.ofList_toList]
  have hread : Decimal.read w.toList = .error (.reading w.length) := by
    rw [Decimal.read, String.length_toList, if_neg (Nat.not_le.mpr hboth.2)]
  simp [ofLine, hscan, classify, Mode.step, Mode.plainStep, Word.classOf_of_isNumeral hboth.1,
    hread, Mode.finish]

theorem Listing.add_of_isOverlong {w : String} (hword : Word.IsWord w.toList)
    (hlong : Word.isOverlong w = true) (l : Listing) :
    l.add w = (l, ⟨[], 0, .error (.reading w.length)⟩) := by
  have hitems := Item.ofLine_of_isOverlong hword hlong l.next
  simp [add, Line.read, hitems, Item.readable, Item.overlong?]

theorem Step.labels_run (x : Step) (m : Machine) : (x.run m).machine.labels = m.labels := by
  cases x with
  | statement line s =>
    have hchange := (Statement.outcome_act line s m).change
    exact hchange.labels_eq
  | leave routine | enter routine lines | unknown routine | tooDeep routine => rfl

namespace Program

theorem labels_closeRun (entry : String) (e : Effect) :
    (closeRun entry e).machine.labels = e.machine.labels := by
  unfold closeRun
  split <;> rfl

theorem labels_perform (p : Program) (steps : List Step) :
    (Step.perform steps p.freshMachine).machine.labels = p.labels := by
  apply Effect.machine_sequence (P := fun m => m.labels = p.labels) rfl
  intro x _ n hn
  exact (x.labels_run n).trans hn

theorem Visits.labels_eq {p : Program} {limit : Nat} {entry : String} {m : Machine}
    (h : p.Visits limit entry m) : m.labels = p.labels := by
  cases h with
  | @during steps part => exact p.labels_perform steps
  | final =>
    rw [runWithin, labels_closeRun, runRoutine_eq_perform]
    exact p.labels_perform _

/-- Whatever lines are tried, a listing holds those that could be read, each with its text, numbered
from one without gaps, and labels carry the number of their line. An attempt that fails reports no
progress and leaves the lines and the next number as they were. A program that was read has a line
for each line of its text and lists the labels of all of them in order, which are those of headers,
arguments, bodies and dangling lines, and every machine of a run has just these labels. -/
theorem labels_numbered_throughout :
    (∀ raws : List String,
      let l := Listing.after {} raws
      l.lines.map (fun line => (line.source, line)) =
        (Listing.attempts {} raws).filterMap (fun a => a.2.line?.map fun line => (a.1, line)) ∧
      l.lines.map Line.number = (List.range l.lines.length).map (fun i : Nat => (i : Int) + 1) ∧
      (∀ line ∈ l.lines, ∀ t ∈ line.tokens, ∀ place, t.kind = .label place →
        place.line = line.number) ∧
      ∀ raw excess, (l.add raw).2.result = .error excess →
        (l.add raw).1.lines = l.lines ∧ (l.add raw).1.next = l.next ∧
          ∀ total, Listing.progress l.next total (l.add raw).2 = []) ∧
    ∀ text tilde p, (Program.read text tilde).result = .ok p →
      p.lines.map Line.source = Text.sourceLines text tilde ∧
      p.labels = (p.lines.flatMap Line.tokens).filterMap Token.label? ∧
      (∀ place, place ∈ p.labels ↔ ∃ t, p.Holds t ∧ t.kind = .label place) ∧
      (p.labels.map Label.line).Pairwise (· ≤ ·) ∧
      ∀ limit entry m, p.Visits limit entry m → m.labels = p.labels := by
  constructor
  · intro raws l
    obtain ⟨count, hl⟩ : l.IsNumbered := Listing.isNumbered_after raws
    refine ⟨Listing.lines_after {} raws, hl.numbers, ?_, ?_⟩
    · intro line hline t ht place hkind
      exact (hl.lines line hline).line_of_mem_tokens ht hkind
    · intro raw excess hfailed
      have hlines := Listing.lines_add_of_error hfailed
      refine ⟨hlines, by rw [Listing.next, hlines, Listing.next], fun total => ?_⟩
      rw [Listing.progress, hfailed]
  · intro text tilde p hp
    obtain ⟨l, hl, rfl⟩ := exists_addAll_of_read hp
    have hread : l.IsRead := Listing.isRead_addAll Listing.isRead_empty hl
    exact ⟨Listing.sources_addAll hl, labels_eq_filterMap _, fun place => mem_labels_ofListing,
      pairwise_labels_ofListing hread, fun limit entry m h => h.labels_eq⟩

/-- The numeral over the limit leaves no gap, so that the label behind it is on line `2`. The labels
of the program stand before the first routine, in an argument list, in a body and behind a header
that opens no routine. -/
theorem labels_numbered_throughout_of_overlong :
    let long := String.ofList (List.replicate 4301 '7')
    let l := Listing.after {} ["a: nl", long, "b:"]
    (l.add long).2.result = .error (.reading 4301) ∧ (l.add long).1.next = 3 ∧
      l.lines.map Line.source = ["a: nl", "b:"] ∧ l.lines.map Line.number = [1, 2] ∧
      (l.lines.flatMap Line.labels).map Label.line = [1, 2] ∧
      ∃ p, (Program.read "a:\nfn f ( z: )\nx: nl\nfn g\ny: nl\n" false).result = .ok p ∧
        p.labels.map Label.line = [1, 2, 3, 5] ∧ p.dangling.map Line.number = [1, 5] ∧
        (p.run "f").machine.labels = p.labels := by
  intro long
  have hlength : long.length = 4301 := by rw [String.length_ofList, List.length_replicate]
  have hlong : Word.isOverlong long = true := Word.isOverlong_replicate (by decide) (by decide)
  have hword : Word.IsWord long.toList := by
    rw [String.toList_ofList]
    refine .run (mt (List.replicate_eq_nil_iff _).mp (by decide)) fun c hc => ?_
    rw [List.eq_of_mem_replicate hc]
    exact ⟨by decide, by decide⟩
  -- the numeral itself is kept out of sight of what is evaluated below
  clear_value long
  intro l
  obtain ⟨hlisting, hprogram⟩ := labels_numbered_throughout
  obtain ⟨-, hnumbers, -, hfailed⟩ := hlisting ["a: nl", long, "b:"]
  have hadd (l : Listing) : l.add long = (l, ⟨[], 0, .error (.reading 4301)⟩) := by
    rw [l.add_of_isOverlong hword hlong, hlength]
  have hl : l = Listing.after {} ["a: nl", "b:"] := by
    simp only [l, Listing.after_cons, hadd]
  have herror : (l.add long).2.result = .error (.reading 4301) := by rw [hadd]
  have hlines : l.lines.length = 2 := by
    rw [hl]
    decide +kernel
  have hp : (Program.read "a:\nfn f ( z: )\nx: nl\nfn g\ny: nl\n" false).result = .ok _ := rfl
  refine ⟨herror, ?_, ?_, ?_, ?_, _, hp, ?_, ?_, ?_⟩
  · rw [(hfailed long _ herror).2.1, Listing.next, hlines]
  · rw [hl]
    decide +kernel
  · rw [hnumbers, hlines]
    decide
  · rw [hl]
    decide +kernel
  · decide +kernel
  · decide +kernel
  · exact (hprogram _ _ _ hp).2.2.2.2 callLimit "f" _ .final

end Program
end LineAssembly
