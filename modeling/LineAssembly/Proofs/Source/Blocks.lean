import LineAssembly.Proofs.Source.Grouping
import Mathlib.Data.List.Nodup
import Mathlib.Data.List.Perm.Basic

/-! Lines in blocks. Grouping keeps every line in its place, a header divides the lines before it
from those behind it, and what the extraction holds can be counted line by line. -/
namespace LineAssembly
namespace Block

theorem append_flatMap_split (ls : List Line) :
    (split ls).1 ++ (split ls).2.flatMap (fun b => b.header :: b.body) = ls := by
  induction ls with
  | nil => rfl
  | cons l ls ih =>
    by_cases h : l.startsRoutine = true
    · rw [split_cons_header h]
      simpa using ih
    · rw [split_cons_body (by simpa using h)]
      simpa using ih

theorem map_header_split (ls : List Line) :
    (split ls).2.map header = ls.filter Line.startsRoutine := by
  induction ls with
  | nil => rfl
  | cons l ls ih =>
    by_cases h : l.startsRoutine = true
    · simp [split_cons_header h, h, ih]
    · rw [split_cons_body (by simpa using h)]
      simpa [h] using ih

/-- A header begins a block, whatever stands before it. -/
theorem split_append_header {l : Line} (h : l.startsRoutine = true) (pre post : List Line) :
    split (pre ++ l :: post) =
      ((split pre).1, (split pre).2 ++ ⟨l, (split post).1⟩ :: (split post).2) := by
  induction pre with
  | nil => simp [split_cons_header h, split]
  | cons x pre ih =>
    rw [List.cons_append]
    by_cases hx : x.startsRoutine = true
    · simp [split_cons_header hx, ih]
    · have hx : x.startsRoutine = false := by simpa using hx
      simp [split_cons_body hx, ih]

theorem split_append_body {pre : List Line} (h : ∀ l ∈ pre, l.startsRoutine = false)
    (post : List Line) : split (pre ++ post) = (pre ++ (split post).1, (split post).2) := by
  induction pre with
  | nil => rfl
  | cons x pre ih =>
    have hrest := ih fun l hl => h l (List.mem_cons_of_mem x hl)
    rw [List.cons_append, split_cons_body (h x List.mem_cons_self), hrest]
    rfl

theorem split_flatMap {bs : List Block} (hheader : ∀ b ∈ bs, b.header.startsRoutine = true)
    (hbody : ∀ b ∈ bs, ∀ l ∈ b.body, l.startsRoutine = false) :
    split (bs.flatMap fun b => b.header :: b.body) = ([], bs) := by
  induction bs with
  | nil => rfl
  | cons b bs ih =>
    have hrest := ih (fun c hc => hheader c (List.mem_cons_of_mem b hc))
      fun c hc => hbody c (List.mem_cons_of_mem b hc)
    rw [List.flatMap_cons, List.cons_append, split_cons_header (hheader b List.mem_cons_self),
      split_append_body (hbody b List.mem_cons_self), hrest, List.append_nil]

theorem startsRoutine_header {ls : List Line} {b : Block} (hb : b ∈ (split ls).2) :
    b.header ∈ ls ∧ b.header.startsRoutine = true := by
  have hm : b.header ∈ (split ls).2.map header := List.mem_map_of_mem hb
  rw [map_header_split] at hm
  exact List.mem_filter.mp hm

end Block

/-- A line that holds some of the tokens of another, in their order and under its number. -/
structure Line.PartOf (x l : Line) : Prop where
  tokens : x.tokens.Sublist l.tokens
  number : x.number = l.number

namespace Header

theorem exists_closing_of_readArguments {ts rest : List Token}
    (h : (readArguments ts).rest = some rest) :
    ∃ taken closing, ts = taken ++ closing :: rest ∧ closing.value = ")" := by
  induction ts with
  | nil => simp [readArguments] at h
  | cons t ts ih =>
    simp only [readArguments] at h
    split at h
    · rename_i hclosing
      cases h
      exact ⟨[], t, rfl, hclosing⟩
    · have hrest : (readArguments ts).rest = some rest := by split at h <;> exact h
      obtain ⟨taken, closing, rfl, hclosing⟩ := ih hrest
      exact ⟨t :: taken, closing, rfl, hclosing⟩

theorem suffix_of_readArguments {ts rest : List Token} (h : (readArguments ts).rest = some rest) :
    rest <:+ ts := by
  obtain ⟨taken, closing, rfl, -⟩ := exists_closing_of_readArguments h
  exact (List.suffix_cons closing rest).trans (List.suffix_append taken (closing :: rest))

theorem exists_of_routine {l : Line} {r : Routine} (hr : (read l).routine = some r) :
    ∃ first name bracket tokens, l.tokens = first :: name :: bracket :: tokens ∧
      name.kind = .routineName ∧ bracket.value = "(" ∧
      r = ⟨name.value, (readArguments tokens).taken,
        inlineBody l ((readArguments tokens).rest.getD [])⟩ := by
  match ht : l.tokens with
  | [] => simp [read, ht] at hr
  | [_] => simp [read, ht] at hr
  | [_, name] => by_cases hk : name.kind = .routineName <;> simp [read, ht, hk] at hr
  | first :: name :: bracket :: tokens =>
    by_cases hk : name.kind = .routineName
    · by_cases hb : bracket.value = "("
      · simp only [read, ht, List.drop_one, List.tail_cons, hk, hb, ne_eq, not_true_eq_false,
          if_false, Option.some.injEq] at hr
        exact ⟨first, name, bracket, tokens, rfl, hk, hb, hr.symm⟩
      · simp [read, ht, hk, hb] at hr
    · simp [read, ht, hk] at hr

theorem partOf_of_mem_inlineBody {l x : Line} {rest : List Token} (hrest : rest.Sublist l.tokens)
    (hx : x ∈ inlineBody l rest) : x.PartOf l := by
  simp only [inlineBody] at hx
  split at hx
  · simp at hx
  · rw [List.mem_singleton.mp hx]
    exact ⟨List.filter_sublist.trans hrest, rfl⟩

theorem partOf_of_mem_lines {l x : Line} {r : Routine} (hr : (read l).routine = some r)
    (hx : x ∈ r.lines) : x.PartOf l := by
  obtain ⟨first, name, bracket, tokens, ht, -, -, rfl⟩ := exists_of_routine hr
  have hrest : (readArguments tokens).rest.getD [] <:+ tokens := by
    cases h : (readArguments tokens).rest with
    | none => exact List.nil_suffix
    | some rest => exact suffix_of_readArguments h
  refine partOf_of_mem_inlineBody ?_ hx
  rw [ht]
  exact hrest.sublist.trans (((List.sublist_cons_self bracket tokens).cons name).cons first)

end Header

namespace Line

def opens (l : Line) : Bool := l.startsRoutine && (Header.read l).routine.isSome

/-- What the extraction keeps of a line: of a header what stands behind it if it opens a routine,
and any other line as it is. -/
def kept (l : Line) : List Line :=
  if l.startsRoutine then ((Header.read l).routine.map Routine.lines).getD [] else [l]

theorem partOf_of_mem_kept {x l : Line} (h : x ∈ l.kept) : x.PartOf l := by
  unfold kept at h
  split at h
  · cases hr : (Header.read l).routine with
    | none => simp [hr] at h
    | some r => exact Header.partOf_of_mem_lines hr (by simpa [hr] using h)
  · rw [List.mem_singleton.mp h]
    exact ⟨List.Sublist.refl _, rfl⟩

end Line

namespace Block

theorem lines_append_dangling {b : Block} (hb : b.header.startsRoutine = true) :
    (b.routine?.map Routine.lines).getD [] ++ b.dangling = b.header.kept ++ b.body := by
  cases h : (Header.read b.header).routine with
  | none => simp [routine?, dangling, Line.kept, hb, h]
  | some r => simp [routine?, dangling, Line.kept, hb, h]

theorem isSome_routine? (b : Block) : b.routine?.isSome = (Header.read b.header).routine.isSome := by
  simp [routine?]

end Block

namespace Extraction

open Block

theorem flatMap_lines_routines (bs : List Block) :
    (bs.filterMap routine?).flatMap Routine.lines =
      bs.flatMap fun b => (b.routine?.map Routine.lines).getD [] := by
  induction bs with
  | nil => rfl
  | cons b bs ih => cases h : b.routine? <;> simp [h, ih]

theorem flatMap_kept_split (ls : List Line) :
    (split ls).1 ++ (split ls).2.flatMap (fun b => b.header.kept ++ b.body) =
      ls.flatMap Line.kept := by
  induction ls with
  | nil => rfl
  | cons l ls ih =>
    by_cases h : l.startsRoutine = true
    · simp [split_cons_header h, ← ih]
    · have hf : l.startsRoutine = false := by simpa using h
      simp [split_cons_body hf, ← ih, Line.kept, hf]

/-- The bodies and the dangling lines together are what is kept of the lines. -/
theorem perm_kept (ls : List Line) :
    ((ofLines ls).routines.flatMap Routine.lines ++ (ofLines ls).dangling).Perm
      (ls.flatMap Line.kept) := by
  have hblocks : ((split ls).2.flatMap (fun b => (b.routine?.map Routine.lines).getD []) ++
      (split ls).2.flatMap Block.dangling).Perm
      ((split ls).2.flatMap fun b => b.header.kept ++ b.body) := by
    refine (List.flatMap_append_perm _ _ _).trans (List.Perm.of_eq ?_)
    apply List.flatMap_congr
    intro b hb
    exact lines_append_dangling (startsRoutine_header hb).2
  rw [← flatMap_kept_split]
  simp only [routines_ofLines, dangling_ofLines, flatMap_lines_routines]
  exact (List.perm_append_comm_assoc _ _ _).trans (hblocks.append_left _)

theorem exists_kept {ls : List Line} {r : Routine} (hr : r ∈ (ofLines ls).routines) {x : Line}
    (hx : x ∈ r.lines) : ∃ l ∈ ls, x ∈ l.kept := by
  have hkept : x ∈ ls.flatMap Line.kept :=
    (perm_kept ls).mem_iff.mp (List.mem_append_left _ (List.mem_flatMap.mpr ⟨r, hr, hx⟩))
  exact List.mem_flatMap.mp hkept

theorem exists_partOf {ls : List Line} {r : Routine} (hr : r ∈ (ofLines ls).routines) {x : Line}
    (hx : x ∈ r.lines) : ∃ l ∈ ls, x.PartOf l := by
  obtain ⟨l, hl, hxl⟩ := exists_kept hr hx
  exact ⟨l, hl, Line.partOf_of_mem_kept hxl⟩

theorem length_routines (ls : List Line) : (ofLines ls).routines.length = ls.countP Line.opens := by
  simp only [routines_ofLines, List.length_filterMap_eq_countP, isSome_routine?]
  calc (split ls).2.countP (fun b => (Header.read b.header).routine.isSome)
      = ((split ls).2.map header).countP (fun l => (Header.read l).routine.isSome) := by
        rw [List.countP_map]; rfl
    _ = ls.countP Line.opens := by
        rw [map_header_split, List.countP_filter]
        congr 1
        funext l
        exact Bool.and_comm _ _

end Extraction
end LineAssembly
