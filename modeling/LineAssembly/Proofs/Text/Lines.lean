import LineAssembly.Text.Lines

/-! Lines of joined texts. What ends with the end of a line keeps its lines whatever follows it, and
lines that are each ended by a line feed are read back, but for a carriage return at their end. -/
namespace LineAssembly
namespace Text

theorem pieces_cons {c : Char} {cs : List Char} (hnewline : c ≠ '\n')
    (hreturn : c = '\r' → cs.head? ≠ some '\n') : pieces (c :: cs) = consFirst c (pieces cs) := by
  refine pieces.eq_4 c cs ?_ hnewline
  rintro rest hc rfl
  exact hreturn hc rfl

theorem exists_pieces_append (cs : List Char) :
    ∃ ls, ls ≠ [] ∧ ∀ ds, pieces (cs ++ '\n' :: ds) = ls ++ pieces ds := by
  fun_induction pieces cs with
  | case1 => exact ⟨[[]], by simp, fun ds => by simp [pieces]⟩
  | case2 cs ih =>
    obtain ⟨ls, -, hls⟩ := ih
    exact ⟨[] :: ls, by simp, fun ds => by simp [pieces, hls]⟩
  | case3 cs ih =>
    obtain ⟨ls, -, hls⟩ := ih
    exact ⟨[] :: ls, by simp, fun ds => by simp [pieces, hls]⟩
  | case4 c cs hreturn hnewline ih =>
    by_cases hlast : c = '\r' ∧ cs = []
    · obtain ⟨rfl, rfl⟩ := hlast
      exact ⟨[[]], by simp, fun ds => by simp [pieces]⟩
    · obtain ⟨ls, hne, hls⟩ := ih
      obtain ⟨l, ls, rfl⟩ := List.exists_cons_of_ne_nil hne
      refine ⟨(c :: l) :: ls, by simp, fun ds => ?_⟩
      have hhead : c = '\r' → (cs ++ '\n' :: ds).head? ≠ some '\n' := by
        intro hc hd
        cases cs with
        | nil => exact hlast ⟨hc, rfl⟩
        | cons d cs => exact hreturn cs hc (by simpa using hd)
      rw [List.cons_append, pieces_cons hnewline hhead, hls ds]
      rfl

theorem dropEmptyLast_append (ls : List (List Char)) {ps : List (List Char)} (hps : ps ≠ []) :
    dropEmptyLast (ls ++ ps) = ls ++ dropEmptyLast ps := by
  have hlast : (ls ++ ps).getLast? = ps.getLast? := by
    rw [List.getLast?_append, List.getLast?_eq_some_getLast hps, Option.some_or]
  unfold dropEmptyLast
  rw [hlast]
  split
  · exact List.dropLast_append_of_ne_nil hps
  · rfl

theorem lines_append_newline (cs ds : List Char) :
    lines (cs ++ '\n' :: ds) = lines (cs ++ ['\n']) ++ lines ds := by
  obtain ⟨ls, -, hls⟩ := exists_pieces_append cs
  have hfirst : lines (cs ++ ['\n']) = ls := by
    rw [lines, hls []]
    simp [dropEmptyLast, pieces]
  rw [hfirst, lines, hls ds, dropEmptyLast_append ls (pieces_ne_nil ds)]
  rfl

/-- The characters of a text, with the tildes that stand for line feeds read as such. -/
def feeds (tilde : Bool) (cs : List Char) : List Char :=
  if tilde then cs.map tildeToNewline else cs

theorem sourceLines_eq (text : String) (tilde : Bool) :
    sourceLines text tilde = (lines (feeds tilde text.toList)).map String.ofList := rfl

theorem feeds_append (tilde : Bool) (cs ds : List Char) :
    feeds tilde (cs ++ ds) = feeds tilde cs ++ feeds tilde ds := by
  cases tilde with
  | false => rfl
  | true => exact List.map_append

def endsLine (tilde : Bool) (c : Char) : Bool := c = '\n' || tilde && c = '~'

theorem feeds_singleton {tilde : Bool} {c : Char} (h : endsLine tilde c = true) :
    feeds tilde [c] = ['\n'] := by
  cases tilde with
  | false =>
    have hc : c = '\n' := by simpa [endsLine] using h
    simp [feeds, hc]
  | true =>
    have hc : c = '\n' ∨ c = '~' := by simpa [endsLine] using h
    obtain rfl | rfl := hc <;> decide

theorem feeds_of_forall {tilde : Bool} {cs : List Char} (h : ∀ c ∈ cs, endsLine tilde c = false) :
    feeds tilde cs = cs := by
  cases tilde with
  | false => rfl
  | true =>
    have hid : ∀ c ∈ cs, tildeToNewline c = id c := by
      intro c hc
      have hne : c ≠ '~' := by simpa [endsLine] using (Bool.or_eq_false_iff.mp (h c hc)).2
      exact if_neg hne
    exact (List.map_congr_left hid).trans (List.map_id cs)

/-- A text that is empty or ends with the end of a line. -/
def isClosed (tilde : Bool) (text : String) : Bool := text.toList.getLast?.all (endsLine tilde)

theorem sourceLines_append {tilde : Bool} {text : String} (h : isClosed tilde text = true)
    (rest : String) :
    sourceLines (text ++ rest) tilde = sourceLines text tilde ++ sourceLines rest tilde := by
  simp only [sourceLines_eq, String.toList_append, feeds_append, ← List.map_append]
  congr 1
  cases hlast : text.toList.getLast? with
  | none =>
    rw [List.getLast?_eq_none_iff.mp hlast]
    cases tilde <;> rfl
  | some c =>
    have hc : endsLine tilde c = true := by simpa [isClosed, hlast] using h
    obtain ⟨init, hinit⟩ := List.getLast?_eq_some_iff.mp hlast
    rw [hinit, feeds_append, feeds_singleton hc, List.append_assoc, List.singleton_append,
      lines_append_newline]

/-- A carriage return at the end of a line goes with the line feed that ends it. -/
def dropReturn (l : List Char) : List Char := if l.getLast? = some '\r' then l.dropLast else l

theorem lines_newline {l : List Char} (hl : '\n' ∉ l) : lines (l ++ ['\n']) = [dropReturn l] := by
  have hpieces : pieces (l ++ ['\n']) = [dropReturn l, []] := by
    induction l with
    | nil => rfl
    | cons c l ih =>
      have hc : c ≠ '\n' := fun h => hl (h ▸ List.mem_cons_self)
      have hrest : '\n' ∉ l := fun h => hl (List.mem_cons_of_mem c h)
      by_cases hlast : c = '\r' ∧ l = []
      · obtain ⟨rfl, rfl⟩ := hlast
        rfl
      · have hhead : c = '\r' → (l ++ ['\n']).head? ≠ some '\n' := by
          intro hreturn hd
          cases l with
          | nil => exact hlast ⟨hreturn, rfl⟩
          | cons d l =>
            have hd : d = '\n' := by simpa using hd
            exact hrest (hd ▸ List.mem_cons_self)
        have hdrop : dropReturn (c :: l) = c :: dropReturn l := by
          cases l with
          | nil =>
            have hne : c ≠ '\r' := fun h => hlast ⟨h, rfl⟩
            simp [dropReturn, hne]
          | cons d l =>
            simp only [dropReturn, List.getLast?_cons_cons, List.dropLast_cons_cons]
            split
            · rfl
            · rfl
        rw [List.cons_append, pieces_cons hc hhead, ih hrest, hdrop]
        rfl
  simp [lines, hpieces, dropEmptyLast]

def unlines (raws : List String) : String := String.join (raws.map (· ++ "\n"))

theorem sourceLines_unlines {tilde : Bool} {raws : List String}
    (h : ∀ raw ∈ raws, ∀ c ∈ raw.toList, endsLine tilde c = false) :
    sourceLines (unlines raws) tilde =
      raws.map fun raw => String.ofList (dropReturn raw.toList) := by
  induction raws with
  | nil => cases tilde <;> rfl
  | cons raw raws ih =>
    have hraw := h raw List.mem_cons_self
    have hnewline : '\n' ∉ raw.toList := by
      intro hmem
      have hends := hraw _ hmem
      simp [endsLine] at hends
    have hclosed : isClosed tilde (raw ++ "\n") = true := by
      simp [isClosed, endsLine]
    have hline : sourceLines (raw ++ "\n") tilde = [String.ofList (dropReturn raw.toList)] := by
      have hfeed : feeds tilde "\n".toList = ['\n'] := by cases tilde <;> rfl
      rw [sourceLines_eq, String.toList_append, feeds_append, feeds_of_forall hraw, hfeed,
        lines_newline hnewline]
      rfl
    have hjoin : unlines (raw :: raws) = (raw ++ "\n") ++ unlines raws := by
      simp [unlines, String.join_cons]
    rw [hjoin, sourceLines_append hclosed, hline, ih fun r hr => h r (List.mem_cons_of_mem raw hr)]
    rfl

end Text
end LineAssembly
