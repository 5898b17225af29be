import LineAssembly.Proofs.Source.Blocks
import LineAssembly.Proofs.Source.Listing
import Mathlib.Data.List.Forall2

/-! Whether a clean error count means that no line was lost. It does, but for one case: a line that
starts with a string literal reading `fn` counts as a header, opens no routine, and is counted
neither when it is read nor when the routines are extracted. -/
namespace LineAssembly

namespace Line

/-- The first token of the line is a string literal that reads `fn`. -/
def startsQuotedFn (l : Line) : Bool :=
  l.tokens.head?.any fun t => t.kind = .string && t.value = "fn"

/-- A header line opened a routine, which has the name and the arguments of the header and begins
with what stands behind it. -/
def Opened (l : Line) (r : Routine) : Prop :=
  ∃ h body, (Header.read l).routine = some h ∧ r = { h with lines := h.lines ++ body }

theorem startsRoutine_of_startsQuotedFn {l : Line} (h : l.startsQuotedFn = true) :
    l.startsRoutine = true := by
  unfold startsQuotedFn at h
  unfold startsRoutine
  cases ht : l.tokens with
  | nil => simp [ht] at h
  | cons t ts =>
    simp only [ht, List.head?_cons, Option.any_some, Bool.and_eq_true] at h
    simpa using h.2

end Line

namespace Header

/-- A header with a name opens a routine or has an error of its own. -/
theorem isSome_routine {l : Line} {first name : Token} {rest : List Token}
    (ht : l.tokens = first :: name :: rest) (hname : name.kind = .routineName)
    (hnotes : ∀ note ∈ (read l).notes, note.isError = false) : (read l).routine.isSome = true := by
  cases rest with
  | nil => simp [read, ht, hname, Note.isError] at hnotes
  | cons bracket tokens =>
    by_cases hb : bracket.value = "("
    · simp [read, ht, hname, hb]
    · simp [read, ht, hname, hb, Note.isError] at hnotes

end Header

namespace Line.IsRead

variable {l : Line}

/-- A quoted `fn` has no name behind it: names only follow the words `call` and `fn`. -/
theorem routine_of_startsQuotedFn (h : l.IsRead) (hq : l.startsQuotedFn = true) :
    (Header.read l).routine = none := by
  apply Option.eq_none_iff_forall_ne_some.mpr
  intro r hr
  obtain ⟨first, name, bracket, tokens, ht, hname, -, -⟩ := Header.exists_of_routine hr
  simp only [startsQuotedFn, ht, List.head?_cons, Option.any_some, Bool.and_eq_true,
    decide_eq_true_eq] at hq
  have hafter : Mode.after first = .plain true := by simp [Mode.after, hq.1]
  obtain ⟨-, items, rest, -, hts⟩ := exists_of_tokens_classify (h.tokens_eq.symm.trans ht)
  rw [hafter] at hts
  exact (exists_of_tokens_classify hts.symm).1.not_routineName hname

theorem exists_name (h : l.IsRead) (herr : ∀ i ∈ l.items, i.isError = false)
    (hs : l.startsRoutine = true) (hq : l.startsQuotedFn = false) :
    ∃ first name rest, l.tokens = first :: name :: rest ∧ name.kind = .routineName := by
  have htokens := h.tokens_eq
  cases ht : l.tokens with
  | nil => simp [startsRoutine, ht] at hs
  | cons first ts =>
    have hfn : first.value = "fn" := by simpa [startsRoutine, ht] using hs
    obtain ⟨hfirst, items', rest, hitems, hts⟩ := exists_of_tokens_classify (htokens.symm.trans ht)
    have hkey : first.kind = .keyword := by
      rcases hfirst.reads_fn hfn with hk | hk
      · exact hk
      · simp [startsQuotedFn, ht, hk, hfn] at hq
    have hafter : Mode.after first = .afterFn := by simp [Mode.after, hkey, hfn]
    rw [hafter] at hitems hts
    have hrest : ∀ i ∈ classify l.number .afterFn rest, i.isError = false := by
      intro i hi
      apply herr
      rw [items, Item.ofLine, hitems]
      exact List.mem_append_right items' hi
    obtain ⟨name, more, hmore, hname⟩ := exists_name_of_afterFn hrest
    exact ⟨first, name, more, by rw [hts, hmore], hname⟩

end Line.IsRead

/-- No line of the program was lost: the header lines opened the routines one by one, any other
line with a token is in the body of exactly one routine, and only empty lines dangle. -/
structure Program.KeepsLines (p : Program) : Prop where
  headers : List.Forall₂ Line.Opened (p.lines.filter Line.startsRoutine) p.routines
  bodies : ∀ l ∈ p.lines, l.startsRoutine = false → l.tokens ≠ [] →
    p.routines.countP (fun r => l ∈ r.lines) = 1
  dangling : ∀ l ∈ p.dangling, l.tokens = []

theorem countP_mem_of_nodup {α β : Type} [DecidableEq β] {f : α → List β} {xs : List α} {a : β}
    (hn : (xs.flatMap f).Nodup) (ha : a ∈ xs.flatMap f) : xs.countP (fun x => a ∈ f x) = 1 := by
  induction xs with
  | nil => simp at ha
  | cons x xs ih =>
    simp only [List.flatMap_cons, List.nodup_append] at hn
    rw [List.flatMap_cons, List.mem_append] at ha
    by_cases hx : a ∈ f x
    · have hrest : xs.countP (fun x => a ∈ f x) = 0 := by
        apply List.countP_eq_zero.mpr
        intro y hy hay
        have hay : a ∈ f y := by simpa using hay
        exact hn.2.2 a hx a (List.mem_flatMap.mpr ⟨y, hy, hay⟩) rfl
      simp [hx, hrest]
    · have hrest := ih hn.2.1 (ha.resolve_left hx)
      simpa [hx] using hrest

namespace Listing

variable {l : Listing}

open Block in
/-- If every header opened a routine and no line with a token stands before them, no line is
lost. -/
theorem keepsLines_of_opens (hl : l.IsRead) (hbefore : ∀ x ∈ (split l.lines).1, x.tokens = [])
    (hopen : ∀ b ∈ (split l.lines).2, (Header.read b.header).routine.isSome = true) :
    (Program.ofListing l).KeepsLines where
  headers := by
    show List.Forall₂ Line.Opened (l.lines.filter Line.startsRoutine)
      (Extraction.ofLines l.lines).routines
    rw [← map_header_split, Extraction.routines_ofLines]
    generalize (split l.lines).2 = bs at hopen
    induction bs with
    | nil => exact List.Forall₂.nil
    | cons b bs ih =>
      obtain ⟨r, hr⟩ := Option.isSome_iff_exists.mp (hopen b (by simp))
      have hb : b.routine? = some { r with lines := r.lines ++ b.body } := by simp [routine?, hr]
      rw [List.map_cons, List.filterMap_cons_some hb]
      exact List.Forall₂.cons ⟨r, b.body, hr, rfl⟩ (ih fun x hx => hopen x (by simp [hx]))
  bodies := by
    intro x hx hs ht
    have hlines := append_flatMap_split l.lines
    have hnodup := hl.nodup_lines
    rw [← hlines, List.nodup_append] at hnodup
    have hin : x ∈ (split l.lines).2.flatMap fun b => b.header :: b.body := by
      have hx : x ∈ l.lines := hx
      rw [← hlines, List.mem_append] at hx
      exact hx.resolve_left fun h => ht (hbefore x h)
    show (Extraction.ofLines l.lines).routines.countP (fun r => x ∈ r.lines) = 1
    rw [Extraction.routines_ofLines, List.countP_filterMap, ← countP_mem_of_nodup hnodup.2.1 hin]
    apply List.countP_congr
    intro b hb
    obtain ⟨hmem, hstart⟩ := startsRoutine_header hb
    obtain ⟨r, hr⟩ := Option.isSome_iff_exists.mp (hopen b hb)
    have hne : x ≠ b.header := by
      rintro rfl
      simp [hs] at hstart
    have hinline : x ∉ r.lines := by
      intro hxr
      exact hne (hl.eq_of_number_eq hx hmem (Header.partOf_of_mem_lines hr hxr).number)
    simp [routine?, hr, hinline, hne]
  dangling := by
    intro x hx
    have hnone : (split l.lines).2.flatMap Block.dangling = [] := by
      apply List.flatMap_eq_nil_iff.mpr
      intro b hb
      have hsome := hopen b hb
      simp [Block.dangling, Option.isNone_iff_eq_none, Option.isSome_iff_ne_none.mp hsome]
    have hx : x ∈ (Extraction.ofLines l.lines).dangling := hx
    rw [Extraction.dangling_ofLines, hnone, List.append_nil] at hx
    exact hbefore x hx

end Listing

theorem Extraction.errorCount_eq_zero_iff (ls : List Line) :
    (Extraction.ofLines ls).errorCount = 0 ↔
      (∀ x ∈ (Block.split ls).1, x.tokens = []) ∧
        ∀ b ∈ (Block.split ls).2, ∀ note ∈ b.notes, note.isError = false := by
  simp only [Extraction.errorCount_ofLines, Nat.add_eq_zero_iff, List.countP_eq_zero,
    List.mem_flatMap]
  constructor
  · rintro ⟨hbefore, hnotes⟩
    refine ⟨fun x hx => by simpa using hbefore x hx, fun b hb note hnote => ?_⟩
    simpa using hnotes note ⟨b, hb, hnote⟩
  · rintro ⟨hbefore, hnotes⟩
    refine ⟨fun x hx => by simp [hbefore x hx], ?_⟩
    rintro note ⟨b, hb, hnote⟩
    simp [hnotes b hb note hnote]

namespace Program

/-- With a clean error count no line is lost, unless some line starts with a quoted `fn`; and any
such line is lost. -/
theorem keepsLines_iff {text : String} {tilde : Bool} {p : Program}
    (h : (Program.read text tilde).result = .ok p) (h0 : p.errorCount = 0) :
    p.KeepsLines ↔ ∀ l ∈ p.lines, l.startsQuotedFn = false := by
  obtain ⟨l, hl, rfl⟩ := exists_listing_of_read h
  have hsum : l.errorCount + (Extraction.ofLines l.lines).errorCount = 0 := h0
  have hread : l.errorCount = 0 := by omega
  obtain ⟨hbefore, hnotes⟩ := (Extraction.errorCount_eq_zero_iff l.lines).mp (by omega)
  constructor
  · intro hkeeps x hx
    by_contra hq
    have hq : x.startsQuotedFn = true := by simpa using hq
    have hheader : x ∈ (ofListing l).lines.filter Line.startsRoutine :=
      List.mem_filter.mpr ⟨hx, Line.startsRoutine_of_startsQuotedFn hq⟩
    have hopened : ∀ y r, Line.Opened y r → (Header.read y).routine ≠ none ∧ Line.Opened y r := by
      rintro y r ⟨routine, body, hr, hbody⟩
      exact ⟨by simp [hr], routine, body, hr, hbody⟩
    have hall := ((List.forall₂_and_left _ _).mp (hkeeps.headers.imp hopened)).1
    exact hall x hheader ((hl.lines x hx).routine_of_startsQuotedFn hq)
  · intro hquoted
    apply Listing.keepsLines_of_opens hl hbefore
    intro b hb
    obtain ⟨hmem, hstart⟩ := Block.startsRoutine_header hb
    obtain ⟨first, name, rest, ht, hname⟩ := (hl.lines _ hmem).exists_name
      (fun i hi => hl.isError_eq_false hread hmem hi) hstart (hquoted _ hmem)
    exact Header.isSome_routine ht hname (hnotes b hb)

/-- The quoted `fn` of the first line is counted nowhere, and the line behind it is lost. -/
theorem quoted_fn_loses_line : ∃ p, (Program.read "\"fn\"\npush 1\n" false).result = .ok p ∧
    p.errorCount = 0 ∧ ¬ p.KeepsLines := by
  have hp : (Program.read "\"fn\"\npush 1\n" false).result = .ok _ := rfl
  refine ⟨_, hp, rfl, ?_⟩
  rw [keepsLines_iff hp rfl]
  decide

end Program
end LineAssembly
