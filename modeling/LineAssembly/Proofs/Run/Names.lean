import LineAssembly.Proofs.Run.Script
import LineAssembly.Proofs.Source.Grammar

/-! Names where they are due. In a program that was read, what a statement finds behind `let` or
`call` is a name of the right kind, so that no run reports a wrong one. A name can only be missing,
at the end of a line. -/
namespace LineAssembly

/-- The problems with a name: the one behind `let` is none, or `call` is without one. -/
def Problem.isNaming : Problem → Bool
  | .letNotName _ | .callWithoutName _ => true
  | _ => false

namespace Effect

def FindsNames (e : Effect) : Prop := ∀ p ∈ e.problems, p.isNaming = false

variable {m : Machine} {e : Effect} {α : Type}

theorem findsNames_none (m : Machine) : (none m).FindsNames := by simp [FindsNames, none]

theorem findsNames_write (m : Machine) (text : String) : (write m text).FindsNames := by
  simp [FindsNames, write]

theorem findsNames_fail (m : Machine) (f : Fault) : (fail m f).FindsNames := by
  simp [FindsNames, fail]

theorem findsNames_report {p : Problem} (hp : p.isNaming = false) (m : Machine) :
    (report m p).FindsNames := by
  simpa [FindsNames, report] using hp

theorem FindsNames.traced (he : e.FindsNames) (ts : List Trace) : (e.traced ts).FindsNames := he

theorem FindsNames.andThen {next : Machine → Effect} (he : e.FindsNames)
    (hnext : ∀ n, (next n).FindsNames) : (e.andThen next).FindsNames := by
  cases h : e.fault with
  | some f => rwa [andThen_of_fault h]
  | none =>
    rw [andThen_of_fault_eq_none h]
    intro p hp
    rcases List.mem_append.mp hp with hp | hp
    · exact he p hp
    · exact hnext e.machine p hp

theorem exists_of_mem_problems_sequence {f : α → Machine → Effect} {xs : List α} {p : Problem}
    (h : p ∈ (sequence f xs m).problems) : ∃ x ∈ xs, ∃ n, p ∈ (f x n).problems := by
  induction xs generalizing m with
  | nil => simp [sequence, none] at h
  | cons x xs ih =>
    rw [sequence] at h
    cases hx : (f x m).fault with
    | some y =>
      rw [andThen_of_fault hx] at h
      exact ⟨x, by simp, m, h⟩
    | none =>
      rw [andThen_of_fault_eq_none hx] at h
      rcases List.mem_append.mp h with h | h
      · exact ⟨x, by simp, m, h⟩
      · obtain ⟨y, hy, n, hp⟩ := ih h
        exact ⟨y, by simp [hy], n, hp⟩

end Effect

theorem Fetch.findsNames_run {α : Type} {m : Machine} {x : Fetch α} {next : α → Effect}
    (hx : ∀ p, x = .problem p → p.isNaming = false) (hnext : ∀ a, (next a).FindsNames) :
    (x.run m next).FindsNames := by
  cases x with
  | value a => exact hnext a
  | problem p => exact Effect.findsNames_report (hx p rfl) m
  | fault f => exact Effect.findsNames_fail m f

namespace Statement

variable {m : Machine} {line : Line} {p : Problem}

theorem isNaming_of_fetchPort {t : Token} (h : fetchPort m line t = .problem p) :
    p.isNaming = false := by
  unfold fetchPort at h
  split at h <;> cases h
  rfl

theorem isNaming_of_bind_fetchPort {α : Type} {t : Token} {next : Nat → Fetch α}
    (hnext : ∀ i, next i ≠ .problem p) (h : (fetchPort m line t).bind next = .problem p) :
    p.isNaming = false := by
  cases hi : fetchPort m line t with
  | value i =>
    rw [hi] at h
    exact absurd h (hnext i)
  | problem q =>
    rw [hi] at h
    cases h
    exact isNaming_of_fetchPort hi
  | fault f =>
    rw [hi] at h
    cases h

theorem isNaming_of_fetchSource {target : Target} {t : Token}
    (h : fetchSource m line target t = .problem p) : p.isNaming = false := by
  unfold fetchSource at h
  split at h
  · cases h
  · exact isNaming_of_bind_fetchPort (by simp) h
  · cases h
    rfl

theorem isNaming_of_fetchText {t : Token} (h : fetchText m line t = .problem p) :
    p.isNaming = false := by
  have hwrite (r : Except Decimal.TooLong String) : Fetch.ofWriting r ≠ .problem p := by
    cases r <;> simp [Fetch.ofWriting]
  unfold fetchText at h
  split at h
  · cases h
  · exact absurd h (hwrite _)
  · exact absurd h (hwrite _)
  · exact absurd h (hwrite _)
  · exact isNaming_of_bind_fetchPort (fun i => hwrite _) h
  · split at h
    · cases h
    · exact absurd h (hwrite _)
    · cases h
      rfl

theorem findsNames_runPush (line : Line) (operands : List Token) (m : Machine) :
    (runPush line operands m).effect.FindsNames := by
  unfold runPush
  split
  · exact Effect.findsNames_report rfl m
  · split
    · exact Effect.findsNames_none _
    · exact Effect.findsNames_report rfl m

theorem findsNames_runMove (line : Line) (dest source : Token) (m : Machine) :
    (runMove line dest source m).FindsNames := by
  have hsource (target : Target) (set : Int → Machine) :
      ((fetchSource m line target source).run m fun n => .none (set n)).FindsNames := by
    apply Fetch.findsNames_run
    · intro p hp
      exact isNaming_of_fetchSource hp
    · intro n
      exact Effect.findsNames_none _
  unfold runMove
  split
  · apply Fetch.findsNames_run
    · intro p hp
      exact isNaming_of_fetchPort hp
    · intro i
      exact hsource .port _
  · exact hsource .accumulator _
  · exact Effect.findsNames_report rfl m

theorem findsNames_runMov (line : Line) (operands : List Token) (m : Machine) :
    (runMov line operands m).effect.FindsNames := by
  unfold runMov
  split
  · apply Effect.FindsNames.andThen
    · unfold runComma
      split
      · exact Effect.findsNames_none m
      · exact Effect.findsNames_report rfl m
    · exact findsNames_runMove line _ _
  · exact Effect.findsNames_report rfl m

theorem findsNames_runArithmetic (line : Line) (op : Arithmetic) (m : Machine) :
    (runArithmetic line op m).FindsNames := by
  rw [runArithmetic_eq]
  split
  · split
    · exact Effect.findsNames_fail _ _
    · exact Effect.findsNames_none _
  · exact Effect.findsNames_fail _ _

theorem findsNames_runPrint (line : Line) (head : Token) (operands : List Token) (m : Machine) :
    (runPrint line head operands m).effect.FindsNames := by
  unfold runPrint
  split
  · exact Effect.findsNames_report rfl m
  · apply Fetch.findsNames_run
    · intro p hp
      exact isNaming_of_fetchText hp
    · exact Effect.findsNames_write m

theorem findsNames_bindValue (level : Nat) (name value : Token) (m : Machine) :
    (bindValue level name value m).FindsNames := by
  unfold bindValue
  split
  · exact (Effect.findsNames_none (m.define _)).traced _
  · exact (Effect.findsNames_none (m.define _)).traced _
  · exact Effect.findsNames_report rfl m

theorem findsNames_runBinding {operands : List Token}
    (h : ∀ t ∈ operands.head?, t.kind = .variableName) (level : Nat) (line : Line) (m : Machine) :
    (runBinding level line operands m).effect.FindsNames := by
  unfold runBinding
  split
  · exact Effect.findsNames_report rfl m
  · rename_i name rest
    rw [if_neg (by simpa using h)]
    split
    · apply Effect.FindsNames.andThen (Effect.findsNames_report rfl m)
      exact Effect.findsNames_report rfl
    · split
      · split
        · exact Effect.findsNames_report rfl m
        · exact findsNames_bindValue _ _ _ m
      · apply Effect.FindsNames.andThen (Effect.findsNames_report rfl m)
        exact findsNames_bindValue _ _ _

/-- What a statement finds where a name is due is a name. -/
structure TakesNames (s : Statement) : Prop where
  binding : s.head.isLet = true → ∀ t ∈ s.operands.head?, t.kind = .variableName
  call : s.head.isCall = true → ∀ t ∈ s.operands.head?, t.kind = .routineName

variable {s : Statement}

theorem isCall_of_operation? (h : s.operation? = some .call) : s.head.isCall = true := by
  obtain ⟨hkind, hop⟩ := operation?_eq_some.mp h
  have hvalue : s.head.value = "call" := by
    by_contra hne
    unfold Operation.ofOpcode at hop
    simp only [if_neg hne] at hop
    repeat' split at hop
    all_goals cases hop
  simp [Token.isCall, hkind, hvalue]

theorem TakesNames.findsNames_act (hs : s.TakesNames)
    (hoperands : s.head.isCall = true → s.operands ≠ []) (line : Line) (m : Machine) :
    (s.act (fun _ => Effect.none) line m).FindsNames := by
  unfold act
  split
  · rename_i hkind
    unfold runOperation
    split
    · exact findsNames_runPush line s.operands m
    · exact Effect.findsNames_none m.pop
    · exact findsNames_runMov line s.operands m
    · exact findsNames_runArithmetic line _ m
    · exact findsNames_runPrint line s.head s.operands m
    · rename_i hop
      have hcall := isCall_of_operation? (operation?_eq_some.mpr ⟨hkind, hop⟩)
      obtain ⟨t, rest, hrest⟩ := List.exists_cons_of_ne_nil (hoperands hcall)
      have ht : t.kind = .routineName := hs.call hcall t (by simp [hrest])
      simp only [hrest, runCall, if_pos ht]
      exact Effect.findsNames_none m
    · exact Effect.findsNames_none m
  · rename_i hkind
    unfold runKeyword
    split
    · rename_i hvalue
      have hlet : s.head.isLet = true := by simp [Token.isLet, hkind, hvalue]
      exact findsNames_runBinding (hs.binding hlet) _ line m
    · exact Effect.findsNames_none m
  · exact Effect.findsNames_none m
  · exact Effect.findsNames_none m
  · exact Effect.findsNames_none m
  · exact Effect.findsNames_none m
  · exact Effect.findsNames_write m "\n"
  · exact Effect.findsNames_report rfl m

theorem TakesNames.problem_runAlone (hs : s.TakesNames) (hp : p ∈ (s.runAlone line m).problems)
    (hname : p.isNaming = true) :
    p = .callWithoutName line.number ∧ s.head.isCall = true ∧ s.operands = [] := by
  have hact : p ∈ (s.act (fun _ => Effect.none) line m).problems := hp
  by_cases hmissing : s.head.isCall = true ∧ s.operands = []
  · obtain ⟨hcall, hoperands⟩ := hmissing
    have hhead : s.head.kind = .opcode ∧ s.head.value = "call" := by
      simpa [Token.isCall] using hcall
    have hreport : s.act (fun _ => Effect.none) line m =
        .report m (.callWithoutName line.number) := by
      simp [act, hhead.1, runOperation, hhead.2, Operation.ofOpcode, runCall, hoperands]
    rw [hreport] at hact
    exact ⟨List.mem_singleton.mp hact, hcall, hoperands⟩
  · have hnames := hs.findsNames_act (fun hcall hnil => hmissing ⟨hcall, hnil⟩) line m p hact
    rw [hname] at hnames
    cases hnames

theorem exists_suffix_of_mem_split {ts : List Token} (h : s ∈ split ts) :
    ∃ rest, s.head :: rest <:+ ts ∧ s.operands = rest.take (operandCount s.head rest) := by
  fun_induction split ts with
  | case1 => cases h
  | case2 head rest ih =>
    rcases List.mem_cons.mp h with rfl | h
    · exact ⟨rest, List.suffix_rfl, rfl⟩
    · obtain ⟨behind, hsuffix, hoperands⟩ := ih h
      have hdrop := List.drop_suffix (operandCount head rest) rest
      exact ⟨behind, (hsuffix.trans hdrop).trans (List.suffix_cons head rest), hoperands⟩

theorem takesNames_of_mem_split {ts : List Token} (hts : ts.IsChain Token.Follows)
    (h : s ∈ split ts) : s.TakesNames := by
  obtain ⟨rest, hsuffix, hoperands⟩ := exists_suffix_of_mem_split h
  obtain ⟨hfollows, -⟩ := List.isChain_cons.mp (hts.suffix hsuffix)
  have hhead : ∀ t ∈ s.operands.head?, s.head.Follows t := by
    intro t ht
    rw [hoperands, List.head?_take] at ht
    split at ht
    · cases ht
    · exact hfollows t ht
  refine ⟨?_, ?_⟩
  · intro hlet t ht
    exact (hhead t ht).variableName.mpr hlet
  · intro hcall t ht
    exact (hhead t ht).call hcall

theorem getLast?_of_mem_split {ts : List Token} (h : s ∈ split ts) (hcall : s.head.isCall = true)
    (hoperands : s.operands = []) : ts.getLast? = some s.head := by
  obtain ⟨rest, ⟨before, rfl⟩, htake⟩ := exists_suffix_of_mem_split h
  simp only [Token.isCall, Bool.and_eq_true, decide_eq_true_eq] at hcall
  have hcount : operandCount s.head rest = 1 := by
    simp [operandCount, hcall.1, hcall.2, Operation.ofOpcode, Operation.operandCount]
  rw [hoperands, hcount] at htake
  have hrest : rest = [] := by
    cases rest with
    | nil => rfl
    | cons t rest => simp at htake
  simp [hrest]

end Statement

namespace Program

theorem grammatical_of_read {text : String} {tilde : Bool} {p : Program}
    (h : (Program.read text tilde).result = .ok p) {r : Routine} (hr : r ∈ p.routines) {line : Line}
    (hline : line ∈ r.lines) : Token.Grammatical line.tokens := by
  obtain ⟨l, hl, rfl⟩ := exists_listing_of_read h
  exact Extraction.grammatical_of_mem_lines hl.lines hr hline

theorem problem_runRoutine {p : Program}
    (hp : ∀ r ∈ p.routines, ∀ line ∈ r.lines, Token.Grammatical line.tokens) {depth : Nat}
    {name : String} {m : Machine} {problem : Problem}
    (h : problem ∈ (p.runRoutine depth name m).problems) (hname : problem.isNaming = true) :
    ∃ r ∈ p.routines, ∃ line ∈ r.lines, problem = .callWithoutName line.number ∧
      ∃ t ∈ line.tokens.getLast?, t.isCall = true := by
  rw [runRoutine_eq_perform] at h
  obtain ⟨step, hstep, n, h⟩ := Effect.exists_of_mem_problems_sequence h
  cases step with
  | statement line s =>
    obtain ⟨r, hr, hline, hs⟩ := mem_routines_of_mem_script hstep
    have htakes := Statement.takesNames_of_mem_split (hp r hr line hline).follows hs
    obtain ⟨rfl, hcall, hoperands⟩ := htakes.problem_runAlone h hname
    have hlast := Statement.getLast?_of_mem_split hs hcall hoperands
    exact ⟨r, hr, line, hline, rfl, s.head, hlast, hcall⟩
  | unknown routine =>
    rw [List.mem_singleton.mp h] at hname
    cases hname
  | enter routine lines => cases h
  | leave routine => cases h
  | tooDeep routine => cases h

end Program

/-- The grammar of every line that is read and of every line of a routine, and what it comes to when
a program is run: a statement never finds anything but a name where one is due, no run reports that
`let` has a wrong name, and where a run reports that `call` has none, the line ends with it. -/
theorem Token.grammar_of_reading :
    (∀ number raw line, (Line.read number raw).result = .ok line →
      Token.Grammatical line.tokens ∧ ∀ t ∈ line.tokens.head?, t.kind ≠ .generic) ∧
    (∀ ls : List Line, (∀ l ∈ ls, (Line.read l.number l.source).result = .ok l) →
      ∀ r ∈ (Extraction.ofLines ls).routines, ∀ line ∈ r.lines, Token.Grammatical line.tokens) ∧
    ∀ text tilde p, (Program.read text tilde).result = .ok p →
      (∀ r ∈ p.routines, ∀ line ∈ r.lines, ∀ s ∈ Statement.split line.tokens, s.TakesNames) ∧
      ∀ depth name m n,
        .letNotName n ∉ (p.runRoutine depth name m).problems ∧
        (.callWithoutName n ∈ (p.runRoutine depth name m).problems →
          ∃ r ∈ p.routines, ∃ line ∈ r.lines, line.number = n ∧
            ∃ t ∈ line.tokens.getLast?, t.isCall = true) := by
  refine ⟨?_, ?_, ?_⟩
  · intro number raw line h
    have hread := Line.isRead_of_read h
    exact ⟨hread.grammatical, fun t ht => hread.head?_not_generic ht⟩
  · intro ls hls r hr line hline
    exact Extraction.grammatical_of_mem_lines hls hr hline
  · intro text tilde p h
    have hlines : ∀ r ∈ p.routines, ∀ line ∈ r.lines, Token.Grammatical line.tokens := by
      intro r hr line hline
      exact Program.grammatical_of_read h hr hline
    refine ⟨?_, ?_⟩
    · intro r hr line hline s hs
      exact Statement.takesNames_of_mem_split (hlines r hr line hline).follows hs
    · intro depth name m n
      constructor
      · intro hn
        obtain ⟨r, hr, line, hline, hproblem, -⟩ := Program.problem_runRoutine hlines hn rfl
        cases hproblem
      · intro hn
        obtain ⟨r, hr, line, hline, hproblem, hlast⟩ := Program.problem_runRoutine hlines hn rfl
        cases hproblem
        exact ⟨r, hr, line, hline, rfl, hlast⟩

/-- The closing bracket of the header is the name of a variable, a brace is left out behind `call`'s
name, and the last line is a `call` without one. -/
theorem Token.grammar_of_reading_closing :
    let reading := Program.read "fn f ( let ) call g \x7b let x 1\n\x7d\ncall\n" false
    ∃ p, reading.result = .ok p ∧
      (∀ n, .letNotName n ∉ (p.runRoutine 2 "f" {}).problems) ∧
      .callWithoutName 3 ∈ (p.runRoutine 2 "f" {}).problems ∧
      ∃ r ∈ p.routines, ∃ line ∈ r.lines, line.number = 3 ∧
        ∃ t ∈ line.tokens.getLast?, t.isCall = true := by
  intro reading
  have hexists : ∃ p, reading.result = .ok p ∧
      .callWithoutName 3 ∈ (p.runRoutine 2 "f" {}).problems := ⟨_, rfl, by decide +kernel⟩
  obtain ⟨p, hp, hcall⟩ := hexists
  have hrun := (grammar_of_reading.2.2 _ _ p hp).2 2 "f" {}
  exact ⟨p, hp, fun n => (hrun n).1, hcall, (hrun 3).2 hcall⟩

end LineAssembly
