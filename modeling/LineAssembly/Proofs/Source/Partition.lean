import LineAssembly.Proofs.Source.Blocks
import Mathlib.Algebra.GroupWithZero.Nat

/-! Where the lines go. Lines may be alike, so that they are followed by their positions: the body
of a routine has the positions for which its header is the nearest one before them, and a line
dangles where that header opens nothing or there is none. -/
namespace LineAssembly
namespace Line

def headerAt (ls : List Line) (i : Nat) : Bool := ls[i]?.any startsRoutine

def opensAt (ls : List Line) (i : Nat) : Bool := ls[i]?.any opens

/-- The position of the nearest header before a position. -/
def headerBefore (ls : List Line) (i : Nat) : Option Nat :=
  (List.range i).reverse.find? (headerAt ls)

/-- The positions of the lines that are no headers. -/
def plainPositions (ls : List Line) : List Nat :=
  (List.range ls.length).filter fun i => !headerAt ls i

/-- The positions of the headers that open a routine. -/
def openingPositions (ls : List Line) : List Nat := (List.range ls.length).filter (opensAt ls)

/-- The positions of the lines that are no headers and have a certain header before them. -/
def positionsBehind (ls : List Line) (wanted : Option Nat → Bool) : List Nat :=
  (plainPositions ls).filter fun i => wanted (headerBefore ls i)

/-- The positions between a header and the next one. -/
def bodyPositions (ls : List Line) (header : Nat) : List Nat := positionsBehind ls (· = some header)

def opensNothing (ls : List Line) (header : Option Nat) : Bool := !header.any (opensAt ls)

def danglingPositions (ls : List Line) : List Nat := positionsBehind ls (opensNothing ls)

/-- The lines at some positions. -/
def select (ls : List Line) (positions : List Nat) : List Line :=
  positions.filterMap fun i => ls[i]?

theorem select_map_succ (l : Line) (ls : List Line) (positions : List Nat) :
    select (l :: ls) (positions.map (· + 1)) = select ls positions := by
  rw [select, List.filterMap_map]
  rfl

theorem select_cons_zero (l : Line) (ls : List Line) (positions : List Nat) :
    select (l :: ls) (0 :: positions.map (· + 1)) = l :: select ls positions := by
  rw [← select_map_succ l ls]
  rfl

theorem headerBefore_cons_succ (l : Line) (ls : List Line) (i : Nat) :
    headerBefore (l :: ls) (i + 1) =
      ((headerBefore ls i).map (· + 1)).or (if l.startsRoutine then some 0 else none) := by
  have hshift : headerAt (l :: ls) ∘ Nat.succ = headerAt ls := rfl
  have hzero : headerAt (l :: ls) 0 = l.startsRoutine := rfl
  rw [headerBefore, List.range_succ_eq_map, List.reverse_cons, List.find?_append,
    ← List.map_reverse, List.find?_map, hshift, ← headerBefore, List.find?_singleton, hzero]

theorem plainPositions_cons (l : Line) (ls : List Line) :
    plainPositions (l :: ls) =
      if l.startsRoutine then (plainPositions ls).map (· + 1)
      else 0 :: (plainPositions ls).map (· + 1) := by
  have hshift : (fun i => !headerAt (l :: ls) i) ∘ Nat.succ = fun i => !headerAt ls i := rfl
  have hzero : headerAt (l :: ls) 0 = l.startsRoutine := rfl
  rw [plainPositions, List.length_cons, List.range_succ_eq_map, List.filter_cons, List.filter_map,
    hshift, ← plainPositions, hzero]
  cases l.startsRoutine <;> rfl

section Cons

variable {l : Line} {p q : Option Nat → Bool}

theorem positionsBehind_cons_header (h : l.startsRoutine = true) (hnone : p (some 0) = q none)
    (hsome : ∀ j, p (some (j + 1)) = q (some j)) (ls : List Line) :
    positionsBehind (l :: ls) p = (positionsBehind ls q).map (· + 1) := by
  have hshift : (fun i => p (headerBefore (l :: ls) i)) ∘ (· + 1) =
      fun i => q (headerBefore ls i) := by
    funext i
    rw [Function.comp_apply, headerBefore_cons_succ, if_pos h]
    cases headerBefore ls i with
    | none => exact hnone
    | some j => exact hsome j
  rw [positionsBehind, plainPositions_cons, if_pos h, List.filter_map, hshift, ← positionsBehind]

theorem positionsBehind_cons_body (h : l.startsRoutine = false) (hnone : p none = q none)
    (hsome : ∀ j, p (some (j + 1)) = q (some j)) (ls : List Line) :
    positionsBehind (l :: ls) p =
      if p none then 0 :: (positionsBehind ls q).map (· + 1)
      else (positionsBehind ls q).map (· + 1) := by
  have hshift : (fun i => p (headerBefore (l :: ls) i)) ∘ (· + 1) =
      fun i => q (headerBefore ls i) := by
    funext i
    rw [Function.comp_apply, headerBefore_cons_succ, if_neg (by simp [h]), Option.or_none]
    cases headerBefore ls i with
    | none => exact hnone
    | some j => exact hsome j
  have hfirst : headerBefore (l :: ls) 0 = none := rfl
  rw [positionsBehind, plainPositions_cons, if_neg (by simp [h]), List.filter_cons, List.filter_map,
    hshift, ← positionsBehind, hfirst]

end Cons

def leadingPositions (ls : List Line) : List Nat := positionsBehind ls Option.isNone

def isFaulty (ls : List Line) (header : Option Nat) : Bool := header.any fun j => !opensAt ls j

def orphanPositions (ls : List Line) : List Nat := positionsBehind ls (isFaulty ls)

section Kinds

variable {l : Line} (ls : List Line)

theorem leadingPositions_cons_header (h : l.startsRoutine = true) :
    leadingPositions (l :: ls) = [] := by
  have hnone : positionsBehind ls (fun _ => false) = [] := List.filter_false _
  rw [leadingPositions, positionsBehind_cons_header (q := fun _ => false) h rfl (fun _ => rfl),
    hnone, List.map_nil]

theorem leadingPositions_cons_body (h : l.startsRoutine = false) :
    leadingPositions (l :: ls) = 0 :: (leadingPositions ls).map (· + 1) :=
  positionsBehind_cons_body (q := Option.isNone) h rfl (fun _ => rfl) ls

theorem bodyPositions_cons_header (h : l.startsRoutine = true) :
    bodyPositions (l :: ls) 0 = (leadingPositions ls).map (· + 1) :=
  positionsBehind_cons_header (q := Option.isNone) h rfl (fun _ => by simp) ls

theorem bodyPositions_cons_succ (l : Line) (j : Nat) :
    bodyPositions (l :: ls) (j + 1) = (bodyPositions ls j).map (· + 1) := by
  cases h : l.startsRoutine with
  | true =>
    exact positionsBehind_cons_header (q := (· = some j)) h (by simp) (fun _ => by simp) ls
  | false =>
    exact positionsBehind_cons_body (q := (· = some j)) h (by simp) (fun _ => by simp) ls

/-- Below a header no position is without one, so that only those count that open nothing. Whether
the new header is such a one decides about what stands right behind it. -/
theorem positionsBehind_cons_opening (h : l.startsRoutine = true) {p : Option Nat → Bool}
    (hp : ∀ j, p (some j) = !opensAt (l :: ls) j) :
    positionsBehind (l :: ls) p =
      (if l.opens then orphanPositions ls else danglingPositions ls).map (· + 1) := by
  have hfirst : p (some 0) = !l.opens := hp 0
  have hlater (j : Nat) : p (some (j + 1)) = !opensAt ls j := hp (j + 1)
  cases hl : l.opens with
  | true =>
    have hnone : p (some 0) = isFaulty ls none := by rw [hfirst, hl]; rfl
    exact positionsBehind_cons_header h hnone hlater ls
  | false =>
    have hnone : p (some 0) = opensNothing ls none := by rw [hfirst, hl]; rfl
    exact positionsBehind_cons_header h hnone hlater ls

theorem danglingPositions_cons_body (h : l.startsRoutine = false) :
    danglingPositions (l :: ls) = 0 :: (danglingPositions ls).map (· + 1) :=
  positionsBehind_cons_body (p := opensNothing (l :: ls)) (q := opensNothing ls) h rfl
    (fun _ => rfl) ls

theorem orphanPositions_cons_body (h : l.startsRoutine = false) :
    orphanPositions (l :: ls) = (orphanPositions ls).map (· + 1) :=
  positionsBehind_cons_body (p := isFaulty (l :: ls)) (q := isFaulty ls) h rfl (fun _ => rfl) ls

end Kinds

variable {ls : List Line}

theorem mem_bodyPositions {i j : Nat} :
    i ∈ bodyPositions ls j ↔ i ∈ plainPositions ls ∧ headerBefore ls i = some j := by
  simp [bodyPositions, positionsBehind]

theorem mem_danglingPositions {i : Nat} :
    i ∈ danglingPositions ls ↔ i ∈ plainPositions ls ∧ opensNothing ls (headerBefore ls i) := by
  simp [danglingPositions, positionsBehind]

theorem mem_openingPositions {j : Nat} : j ∈ openingPositions ls ↔ opensAt ls j := by
  rw [openingPositions, List.mem_filter, List.mem_range, and_iff_right_iff_imp]
  intro h
  by_contra hlength
  simp [opensAt, List.getElem?_eq_none (Nat.le_of_not_lt hlength)] at h

/-- A position is in some body just if the header before it opens a routine. -/
theorem mem_flatMap_bodyPositions {i : Nat} :
    i ∈ (openingPositions ls).flatMap (bodyPositions ls) ↔
      i ∈ plainPositions ls ∧ opensNothing ls (headerBefore ls i) = false := by
  simp only [List.mem_flatMap, mem_openingPositions, mem_bodyPositions]
  cases headerBefore ls i <;> simp [opensNothing, and_comm]

/-- No position is in two bodies, and each is in one or dangles. -/
theorem perm_positions (ls : List Line) :
    ((openingPositions ls).flatMap (bodyPositions ls) ++ danglingPositions ls).Perm
      (plainPositions ls) := by
  have hplain : (plainPositions ls).Nodup := List.nodup_range.filter _
  have hopening : (openingPositions ls).Nodup := List.nodup_range.filter _
  have hbodies : ((openingPositions ls).flatMap (bodyPositions ls)).Nodup := by
    refine List.nodup_flatMap.mpr ⟨fun j _ => hplain.filter _, hopening.pairwise_of_forall_ne ?_⟩
    intro j _ k _ hne i hj hk
    have hheader := (mem_bodyPositions.mp hj).2.symm.trans (mem_bodyPositions.mp hk).2
    exact hne (Option.some.inj hheader)
  have hdangling : (danglingPositions ls).Nodup := hplain.filter _
  refine (List.perm_ext_iff_of_nodup (hbodies.append hdangling ?_) hplain).mpr ?_
  · intro i hbody hi
    have hopens := (mem_flatMap_bodyPositions.mp hbody).2
    rw [(mem_danglingPositions.mp hi).2] at hopens
    cases hopens
  · intro i
    rw [List.mem_append, mem_flatMap_bodyPositions, mem_danglingPositions]
    cases opensNothing ls (headerBefore ls i) <;> simp

end Line

namespace Block

open Line

theorem split_fst (ls : List Line) : (split ls).1 = ls.takeWhile fun l => !l.startsRoutine := by
  induction ls with
  | nil => rfl
  | cons l ls ih =>
    cases h : l.startsRoutine with
    | true => simp [split_cons_header h, h]
    | false => simp [split_cons_body h, h, ih]

theorem select_leadingPositions (ls : List Line) :
    select ls (leadingPositions ls) = (split ls).1 := by
  induction ls with
  | nil => rfl
  | cons l ls ih =>
    cases h : l.startsRoutine with
    | true =>
      rw [leadingPositions_cons_header ls h, split_cons_header h]
      rfl
    | false => rw [leadingPositions_cons_body ls h, split_cons_body h, select_cons_zero, ih]

/-- The block of the header at a position, if there is one. -/
def atHeader? (ls : List Line) (j : Nat) : Option Block :=
  (ls[j]?.filter startsRoutine).map fun l => ⟨l, select ls (bodyPositions ls j)⟩

theorem atHeader?_cons_succ (l : Line) (ls : List Line) (j : Nat) :
    atHeader? (l :: ls) (j + 1) = atHeader? ls j := by
  rw [atHeader?, atHeader?, bodyPositions_cons_succ, select_map_succ, List.getElem?_cons_succ]

theorem split_snd (ls : List Line) :
    (split ls).2 = (List.range ls.length).filterMap (atHeader? ls) := by
  induction ls with
  | nil => rfl
  | cons l ls ih =>
    have hlater : atHeader? (l :: ls) ∘ Nat.succ = atHeader? ls := funext (atHeader?_cons_succ l ls)
    rw [List.length_cons, List.range_succ_eq_map, List.filterMap_cons, List.filterMap_map, hlater,
      ← ih]
    cases h : l.startsRoutine with
    | true =>
      have hfirst : atHeader? (l :: ls) 0 = some ⟨l, (split ls).1⟩ := by
        rw [atHeader?, bodyPositions_cons_header ls h, select_map_succ, select_leadingPositions]
        simp [h]
      rw [split_cons_header h, hfirst]
    | false =>
      have hfirst : atHeader? (l :: ls) 0 = none := by simp [atHeader?, h]
      rw [split_cons_body h, hfirst]

theorem select_danglingPositions (ls : List Line) :
    select ls (orphanPositions ls) = (split ls).2.flatMap dangling ∧
      select ls (danglingPositions ls) = (split ls).1 ++ (split ls).2.flatMap dangling := by
  induction ls with
  | nil => exact ⟨rfl, rfl⟩
  | cons l ls ih =>
    cases h : l.startsRoutine with
    | true =>
      have hdangling : danglingPositions (l :: ls) = _ :=
        positionsBehind_cons_opening ls h fun _ => rfl
      have horphan : orphanPositions (l :: ls) = _ :=
        positionsBehind_cons_opening ls h fun _ => rfl
      rw [hdangling, horphan, select_map_succ, split_cons_header h]
      have hopens : l.opens = (Header.read l).routine.isSome := by simp [opens, h]
      cases hl : (Header.read l).routine with
      | none => simp [hopens, hl, dangling, ih.2]
      | some r => simp [hopens, hl, dangling, ih.1]
    | false =>
      rw [orphanPositions_cons_body ls h, danglingPositions_cons_body ls h, split_cons_body h,
        select_map_succ, select_cons_zero, ih.1, ih.2]
      exact ⟨rfl, rfl⟩

end Block

/-- The errors that a header line has apart from those of its words. -/
def Header.errorCount (l : Line) : Nat := (Header.read l).notes.countP Note.isError

theorem Header.length_lines_le {l : Line} {r : Routine} (h : (read l).routine = some r) :
    r.lines.length ≤ 1 := by
  obtain ⟨first, name, bracket, tokens, -, -, -, rfl⟩ := exists_of_routine h
  simp only [inlineBody]
  split <;> simp

/-- The routine that the header at a position opens: what stands behind the header, then the lines
of its body. -/
def Routine.atHeader? (ls : List Line) (j : Nat) : Option Routine :=
  (ls[j]?.filter Line.startsRoutine).bind fun l =>
    (Header.read l).routine.map fun r =>
      { r with lines := r.lines ++ Line.select ls (Line.bodyPositions ls j) }

theorem Routine.isSome_atHeader? (ls : List Line) (j : Nat) :
    (Routine.atHeader? ls j).isSome = Line.opensAt ls j := by
  rw [Routine.atHeader?, Line.opensAt]
  cases ls[j]? with
  | none => rfl
  | some l => cases h : l.startsRoutine <;> simp [Option.filter, Line.opens, h]

theorem Block.routine?_atHeader? (ls : List Line) (j : Nat) :
    (Block.atHeader? ls j).bind Block.routine? = Routine.atHeader? ls j := by
  rw [Block.atHeader?, Routine.atHeader?]
  cases ls[j]?.filter Line.startsRoutine <;> rfl

namespace Extraction

open Line

theorem map_some_routines (ls : List Line) :
    (ofLines ls).routines.map some = (openingPositions ls).map (Routine.atHeader? ls) := by
  have hat : (fun j => (Block.atHeader? ls j).bind Block.routine?) = Routine.atHeader? ls :=
    funext (Block.routine?_atHeader? ls)
  have hroutines : (ofLines ls).routines =
      (List.range ls.length).filterMap (Routine.atHeader? ls) := by
    rw [routines_ofLines, Block.split_snd, List.filterMap_filterMap, hat]
  have hopening : Option.isSome ∘ Routine.atHeader? ls = opensAt ls :=
    funext (Routine.isSome_atHeader? ls)
  rw [hroutines, List.map_filterMap_some_eq_filter_map_isSome, List.filter_map, hopening,
    ← openingPositions]

theorem errorCount_eq (ls : List Line) :
    (ofLines ls).errorCount =
      ((ls.filter startsRoutine).map Header.errorCount).sum +
        (ls.takeWhile fun l => !l.startsRoutine).countP fun l => !l.tokens.isEmpty := by
  have hnotes : ((Block.split ls).2.flatMap Block.notes).countP Header.Note.isError =
      (((Block.split ls).2.map Block.header).map Header.errorCount).sum := by
    rw [List.countP_flatMap, List.map_map]
    rfl
  rw [errorCount_ofLines, ← Block.map_header_split, ← Block.split_fst, ← hnotes, Nat.add_comm]

/-- The lines that are no headers fall into the bodies of the routines and the dangling lines, each
in one place and in order. A routine has at most one line before those of its body. What is counted
are the errors of the headers and the lines with tokens before the first of them. -/
theorem partition_of_lines (ls : List Line) :
    (ofLines ls).routines.map some = (openingPositions ls).map (Routine.atHeader? ls) ∧
      (ofLines ls).dangling = select ls (danglingPositions ls) ∧
      ((openingPositions ls).flatMap (bodyPositions ls) ++ danglingPositions ls).Perm
        (plainPositions ls) ∧
      (∀ l r, (Header.read l).routine = some r → r.lines.length ≤ 1) ∧
      (ofLines ls).errorCount =
        ((ls.filter startsRoutine).map Header.errorCount).sum +
          (ls.takeWhile fun l => !l.startsRoutine).countP fun l => !l.tokens.isEmpty :=
  ⟨map_some_routines ls, (dangling_ofLines ls).trans (Block.select_danglingPositions ls).2.symm,
    perm_positions ls, fun _ _ => Header.length_lines_le, errorCount_eq ls⟩

end Extraction
end LineAssembly
