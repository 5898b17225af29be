import LineAssembly.Proofs.Run.Outcome
import LineAssembly.Proofs.Source.Grouping
import LineAssembly.Source.Program

/-! The ledger of errors. Reading a text and running a program keep an error count beside the
messages that they report. Each error reported is counted once, but for two reports on a text that
has nothing to run, and a fatal condition is counted without a report. -/
namespace LineAssembly

theorem Category.isPrefixOf_tag (c : Category) (cs : List Char) :
    Category.error.tag.toList.isPrefixOf (c.tag.toList ++ cs) = decide (c = .error) := by
  cases c <;> simp [tag, List.isPrefixOf]

namespace Message

def saysError (text : String) : Bool := Category.error.tag.toList.isPrefixOf text.toList

theorem saysError_text (m : Message) : saysError m.text = m.isError := by
  rw [saysError, text, String.toList_append, Category.isPrefixOf_tag, isError]

/-- How many of the messages kept are errors. -/
def reportedErrors (ms : List Message) : Nat := (ms.map text).countP saysError

theorem reportedErrors_eq_countP (ms : List Message) : reportedErrors ms = ms.countP isError := by
  rw [reportedErrors, List.countP_map]
  congr 1
  funext m
  exact saysError_text m

@[simp] theorem reportedErrors_nil : reportedErrors [] = 0 := rfl

@[simp] theorem reportedErrors_append (ms ns : List Message) :
    reportedErrors (ms ++ ns) = reportedErrors ms + reportedErrors ns := by
  simp [reportedErrors]

@[simp] theorem reportedErrors_cons (m : Message) (ms : List Message) :
    reportedErrors (m :: ms) = reportedErrors ms + if m.isError then 1 else 0 := by
  simp [reportedErrors_eq_countP, List.countP_cons]

@[simp] theorem isError_error (text : String) : (Message.error text).isError = true := rfl

@[simp] theorem isError_note (c : Category) (text : String) :
    (note c text).isError = decide (c = .error) := rfl

/-- Where each thing reports one error or none, the errors reported are the things that report
one. -/
theorem reportedErrors_flatMap {α : Type} {f : α → List Message} {q : α → Bool}
    (h : ∀ x, reportedErrors (f x) = if q x then 1 else 0) (xs : List α) :
    reportedErrors (xs.flatMap f) = xs.countP q := by
  induction xs with
  | nil => rfl
  | cons x xs ih =>
    rw [List.flatMap_cons, reportedErrors_append, h, ih, List.countP_cons, Nat.add_comm]

end Message

open Message

theorem Item.reportedErrors_messages (number : Int) (i : Item) :
    reportedErrors (i.messages number) = if i.isError then 1 else 0 := by
  cases i <;> simp [messages, isError]

theorem Line.errorCount_read (number : Int) (raw : String) :
    reportedErrors (Line.read number raw).messages = (Line.read number raw).errors :=
  reportedErrors_flatMap (Item.reportedErrors_messages number) _

namespace Listing

theorem errorCount_add (l : Listing) (raw : String) :
    (l.add raw).1.errorCount = l.errorCount + reportedErrors (l.add raw).2.messages := by
  have hread := Line.errorCount_read l.next raw
  unfold add
  cases h : (Line.read l.next raw).result with
  | ok line => simp only [h]; omega
  | error excess => simp only [h]; omega

theorem errorCount_addAll {l l' : Listing} {raws : List String}
    (h : (l.addAll raws).2 = .ok l') :
    l'.errorCount = l.errorCount + reportedErrors (l.addAll raws).1 := by
  induction raws generalizing l with
  | nil =>
    simp only [addAll, Except.ok.injEq] at h
    simp [addAll, h]
  | cons raw raws ih =>
    cases hr : (l.add raw).2.result with
    | error excess => simp [addAll, hr] at h
    | ok line =>
      simp only [addAll, hr] at h ⊢
      have hline := errorCount_add l raw
      have hrest := ih h
      rw [reportedErrors_append]
      omega

end Listing

namespace Header.Note

theorem reportedErrors_messages (n : Header.Note) :
    reportedErrors n.messages = if n.isError then 1 else 0 := by
  cases n <;> simp [messages, isError]

end Header.Note

theorem reportedErrors_topLevelMessages (l : Line) :
    reportedErrors (topLevelMessages l) = if !l.tokens.isEmpty then 1 else 0 := by
  unfold topLevelMessages
  cases l.tokens.isEmpty <;> simp

theorem Extraction.reportedErrors_messages (ls : List Line) :
    reportedErrors (ofLines ls).messages = (ofLines ls).errorCount := by
  simp only [ofLines_eq_grouped, grouped, reportedErrors_append, ← List.flatMap_assoc]
  rw [reportedErrors_flatMap reportedErrors_topLevelMessages,
    reportedErrors_flatMap Header.Note.reportedErrors_messages]

namespace Program

theorem reportedErrors_listingMessages (l : Listing) :
    reportedErrors (listingMessages l) =
      (Extraction.ofLines l.lines).errorCount +
        if (ofListing l).routines.isEmpty then 1 else 0 := by
  have hroutines : (ofListing l).routines = (Extraction.ofLines l.lines).routines := rfl
  have hfound := Extraction.reportedErrors_messages l.lines
  rw [hroutines]
  cases h : (Extraction.ofLines l.lines).routines.isEmpty <;> simp [listingMessages, h, hfound]

theorem reportedErrors_emptyMessages (raws : List String) :
    reportedErrors (emptyMessages raws) = if raws.isEmpty then 1 else 0 := by
  unfold emptyMessages
  cases raws.isEmpty <;> simp

/-- Reading a text counts the errors it reports, but for the lack of lines and of routines. -/
theorem errorCount_read {text : String} {tilde : Bool} {p : Program}
    (h : (Program.read text tilde).result = .ok p) :
    p.errorCount + (if (Text.sourceLines text tilde).isEmpty then 1 else 0) +
        (if p.routines.isEmpty then 1 else 0) =
      reportedErrors (Program.read text tilde).messages := by
  unfold read readLines at h ⊢
  generalize Text.sourceLines text tilde = raws at h ⊢
  split at h
  · cases h
  · rename_i messages l hl
    cases h
    have hlisting : l.errorCount = 0 + reportedErrors messages := by
      have hadd := Listing.errorCount_addAll (congrArg Prod.snd hl)
      rwa [hl] at hadd
    rw [reportedErrors_append, reportedErrors_append, reportedErrors_emptyMessages,
      reportedErrors_listingMessages]
    have hcount : (ofListing l).errorCount =
        l.errorCount + (Extraction.ofLines l.lines).errorCount := rfl
    omega

end Program

theorem Problem.reportedErrors_messages (p : Problem) : reportedErrors p.messages = 1 := by
  have hreport := p.isError_report
  cases p <;> simp_all [messages]

namespace Effect

/-- Whether a fatal condition of the machine ended the run. -/
def halted (e : Effect) : Bool :=
  match e.fault with
  | some (.halt _) => true
  | _ => false

theorem reportedErrors_messages (e : Effect) : reportedErrors e.messages = e.problems.length := by
  have hone : ∀ p : Problem, reportedErrors p.messages = if (fun _ => true) p then 1 else 0 :=
    fun p => by simpa using p.reportedErrors_messages
  rw [messages, reportedErrors_flatMap hone, List.countP_true]

/-- The error count of the machine rises by one for each problem, and by one more if the run
halts. -/
def Balanced (m : Machine) (e : Effect) : Prop :=
  e.machine.errorCount = m.errorCount + e.problems.length + if e.halted then 1 else 0

variable {m n : Machine}

theorem balanced_of_count_eq {e : Effect} (hcount : e.machine.errorCount = m.errorCount)
    (hproblems : e.problems = []) (hhalted : e.halted = false) : Balanced m e := by
  simp [Balanced, hcount, hproblems, hhalted]

theorem balanced_report (m : Machine) (p : Problem) : Balanced m (report m p) := by
  simp [Balanced, report, halted, Machine.countError]

theorem balanced_halt (m : Machine) (h : Halt) : Balanced m (halt m h) := by
  simp [Balanced, halt, fail, halted, Machine.countError]

theorem balanced_andThen {e : Effect} {next : Machine → Effect} (he : Balanced m e)
    (hnext : Balanced e.machine (next e.machine)) : Balanced m (e.andThen next) := by
  cases h : e.fault with
  | some x => rwa [andThen_of_fault h]
  | none =>
    have hgoes : e.halted = false := by simp [halted, h]
    have hhalted : (e.andThen next).halted = (next e.machine).halted := by
      simp only [halted, andThen_of_fault_eq_none h]
    have hmachine : (e.andThen next).machine = (next e.machine).machine := by
      rw [andThen_of_fault_eq_none h]
    have hproblems : (e.andThen next).problems = e.problems ++ (next e.machine).problems := by
      rw [andThen_of_fault_eq_none h]
    unfold Balanced at he hnext ⊢
    rw [hmachine, hnext, he, hproblems, hhalted, hgoes]
    simp [Int.add_assoc]

end Effect

theorem Statement.Outcome.balanced {line : Line} {s : Statement} {m : Machine} {e : Effect}
    (h : Outcome line s m e) : e.Balanced m := by
  induction h with
  | idle | call => exact Effect.balanced_of_count_eq rfl rfl rfl
  | newline => exact Effect.balanced_of_count_eq rfl rfl rfl
  | report p => exact Effect.balanced_report _ p
  | noComma _ rest ih => exact Effect.balanced_andThen (Effect.balanced_report _ _) ih
  | push => exact Effect.balanced_of_count_eq rfl rfl rfl
  | pop => exact Effect.balanced_of_count_eq rfl rfl rfl
  | compute => exact Effect.balanced_of_count_eq rfl rfl rfl
  | underflow => exact Effect.balanced_halt _ _
  | zeroDivisor => exact Effect.balanced_halt _ _
  | setPort => exact Effect.balanced_of_count_eq rfl rfl rfl
  | setAccumulator => exact Effect.balanced_of_count_eq rfl rfl rfl
  | moveFault => exact Effect.balanced_of_count_eq rfl rfl rfl
  | print => exact Effect.balanced_of_count_eq rfl rfl rfl
  | printFault => exact Effect.balanced_of_count_eq rfl rfl rfl
  | bind => exact Effect.balanced_of_count_eq rfl rfl rfl

namespace Program

end Program
end LineAssembly
