import LineAssembly.Proofs.Text.Lines
import Mathlib.Data.List.DropRight
import Mathlib.Data.List.Forall2
import Mathlib.Data.List.Induction

/-! Carriage returns before line feeds. Dropping them all keeps the lines of a text, but for carriage
returns at their ends: a line that ends with one is ended by two, and loses the first when the second
is dropped. -/
namespace LineAssembly
namespace Text

/-- Drops a carriage return right before a line feed, and no other. -/
def collapseReturns : List Char → List Char
  | [] => []
  | '\r' :: '\n' :: cs => '\n' :: collapseReturns cs
  | c :: cs => c :: collapseReturns cs

def collapsed (text : String) : String := String.ofList (collapseReturns text.toList)

/-- The first line is the second one, or has one more carriage return at its end. -/
def LosesReturn (l l' : List Char) : Prop := l = l' ∨ l = l' ++ ['\r']

theorem LosesReturn.cons {l l' : List Char} (h : LosesReturn l l') (c : Char) :
    LosesReturn (c :: l) (c :: l') := by
  obtain rfl | rfl := h
  · exact .inl rfl
  · exact .inr rfl

theorem consFirst_append_singleton (c : Char) {xs ys : List (List Char)}
    (h : List.Forall₂ LosesReturn xs ys) (l : List Char) :
    ∃ us vs k, consFirst c (xs ++ [l]) = us ++ [k] ∧ consFirst c (ys ++ [l]) = vs ++ [k] ∧
      List.Forall₂ LosesReturn us vs := by
  cases h with
  | nil => exact ⟨[], [], c :: l, rfl, rfl, .nil⟩
  | cons hfirst hrest => exact ⟨_ :: _, _ :: _, l, rfl, rfl, .cons (hfirst.cons c) hrest⟩

theorem head?_collapseReturns {cs : List Char} (h : (collapseReturns cs).head? = some '\n') :
    cs.head? = some '\n' ∨ ∃ rest, cs = '\r' :: '\n' :: rest := by
  fun_cases collapseReturns cs with
  | case1 => cases h
  | case2 rest => exact .inr ⟨rest, rfl⟩
  | case3 c rest hpair =>
    rw [collapseReturns.eq_3 c rest hpair] at h
    exact .inl h

theorem exists_pieces_collapseReturns (cs : List Char) :
    ∃ xs ys l, pieces cs = xs ++ [l] ∧ pieces (collapseReturns cs) = ys ++ [l] ∧
      List.Forall₂ LosesReturn xs ys := by
  fun_induction collapseReturns cs with
  | case1 => exact ⟨[], [], [], rfl, rfl, .nil⟩
  | case2 cs ih =>
    obtain ⟨xs, ys, l, hxs, hys, h⟩ := ih
    refine ⟨[] :: xs, [] :: ys, l, ?_, ?_, .cons (.inl rfl) h⟩
    · rw [pieces, hxs, List.cons_append]
    · rw [pieces, hys, List.cons_append]
  | case3 c cs hpair ih =>
    obtain ⟨xs, ys, l, hxs, hys, h⟩ := ih
    by_cases hnewline : c = '\n'
    · subst hnewline
      refine ⟨[] :: xs, [] :: ys, l, ?_, ?_, .cons (.inl rfl) h⟩
      · rw [pieces, hxs, List.cons_append]
      · rw [pieces, hys, List.cons_append]
    · have hreturn : c = '\r' → cs.head? ≠ some '\n' := by
        intro hc hhead
        obtain ⟨rest, rfl⟩ := List.head?_eq_some_iff.mp hhead
        exact hpair rest hc rfl
      rw [pieces_cons hnewline hreturn, hxs]
      by_cases hmeets : c = '\r' ∧ (collapseReturns cs).head? = some '\n'
      · -- two returns and a line feed: the second return is dropped and the first ends the line
        obtain ⟨rfl, hhead⟩ := hmeets
        obtain ⟨rest, rfl⟩ := (head?_collapseReturns hhead).resolve_left (hreturn rfl)
        rw [collapseReturns, pieces] at hys
        rw [collapseReturns, pieces, hys]
        cases h with
        | nil =>
          rw [List.nil_append, List.cons.injEq] at hys
          exact absurd hys.2 (pieces_ne_nil _)
        | @cons x y xs ys hfirst hrest =>
          rw [pieces, List.cons_append, List.cons.injEq] at hxs
          obtain ⟨rfl, -⟩ := hxs
          rw [List.cons_append, List.cons.injEq] at hys
          obtain ⟨rfl, -⟩ := hys
          exact ⟨['\r'] :: xs, [] :: ys, l, rfl, rfl, .cons (.inr rfl) hrest⟩
      · have hkeeps : c = '\r' → (collapseReturns cs).head? ≠ some '\n' :=
          fun hc hhead => hmeets ⟨hc, hhead⟩
        rw [pieces_cons hnewline hkeeps, hys]
        exact consFirst_append_singleton c h l

/-- Each line of the collapsed text is the line of the text, less at most one carriage return at its
end. -/
theorem lines_collapseReturns (cs : List Char) :
    List.Forall₂ LosesReturn (lines cs) (lines (collapseReturns cs)) := by
  obtain ⟨xs, ys, l, hxs, hys, h⟩ := exists_pieces_collapseReturns cs
  rw [lines, lines, hxs, hys, dropEmptyLast_append xs (by simp), dropEmptyLast_append ys (by simp)]
  exact List.rel_append h (List.forall₂_same.mpr fun k _ => .inl rfl)

/-- A line without the carriage returns at its end. -/
def trimReturns (line : String) : String := String.ofList (line.toList.rdropWhile (· = '\r'))

theorem apply_rdropWhile_return {α : Type} {f : List Char → α}
    (hf : ∀ cs, f (cs ++ ['\r']) = f cs) (cs : List Char) :
    f (cs.rdropWhile (· = '\r')) = f cs := by
  induction cs using List.reverseRecOn with
  | nil => rw [List.rdropWhile_nil]
  | append_singleton cs c ih =>
    by_cases hc : c = '\r'
    · subst hc
      rw [List.rdropWhile_concat_pos _ _ _ (by simp), ih, hf]
    · rw [List.rdropWhile_concat_neg _ _ _ (by simpa using hc)]

theorem sourceLines_collapsed (text : String) :
    (sourceLines (collapsed text) false).map trimReturns =
      (sourceLines text false).map trimReturns := by
  have htrim {l l' : List Char} (h : LosesReturn l l') :
      trimReturns (String.ofList l') = trimReturns (String.ofList l) := by
    obtain rfl | rfl := h
    · rfl
    · simp [trimReturns, List.rdropWhile_concat_pos]
  simp only [sourceLines, collapsed, String.toList_ofList, List.map_map, Bool.false_eq_true,
    if_false]
  have hlines := lines_collapseReturns text.toList
  generalize lines text.toList = ls, lines (collapseReturns text.toList) = ls' at hlines
  induction hlines with
  | nil => rfl
  | cons hfirst _ ih => simp only [List.map_cons, Function.comp_apply, htrim hfirst, ih]

example : sourceLines "x\r\r\ny\rz\r\n\r" false = ["x\r", "y\rz", "\r"] ∧
    sourceLines (collapsed "x\r\r\ny\rz\r\n\r") false = ["x", "y\rz", "\r"] := by
  decide +kernel

end Text
end LineAssembly
