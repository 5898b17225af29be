import LineAssembly.Proofs.Text.Returns

/-! Lines taken apart and put together. The pieces of a text are what its line feeds divide, once
the carriage returns before them are dropped. So joining the lines gives the text back, but for its last
line feed, and lines that were ended in either way are read back. -/
namespace LineAssembly
namespace Text

/-- How a line ends: with a line feed, or with a carriage return before it. -/
inductive Ending where
  | feed
  | returnFeed
  deriving Repr, DecidableEq

def Ending.text : Ending → String
  | .feed => "\n"
  | .returnFeed => "\r\n"

/-- The text of some lines, each with its ending. -/
def terminated (ls : List (String × Ending)) : String :=
  String.join (ls.map fun l => l.1 ++ l.2.text)

/-- A text that is one line. A carriage return at its end would be read as part of the ending. -/
structure IsLine (raw : String) : Prop where
  newline_not_mem : '\n' ∉ raw.toList
  getLast?_ne_return : raw.toList.getLast? ≠ some '\r'

instance (raw : String) : Decidable (IsLine raw) :=
  decidable_of_iff ('\n' ∉ raw.toList ∧ raw.toList.getLast? ≠ some '\r')
    ⟨fun h => ⟨h.1, h.2⟩, fun h => ⟨h.1, h.2⟩⟩

theorem isClosed_append {tilde : Bool} {text rest : String} (htext : isClosed tilde text = true)
    (hrest : isClosed tilde rest = true) : isClosed tilde (text ++ rest) = true := by
  rw [isClosed, String.toList_append, List.getLast?_append]
  cases hlast : rest.toList.getLast? with
  | none => exact htext
  | some c =>
    rw [isClosed, hlast] at hrest
    exact hrest

theorem isClosed_ending (raw : String) (e : Ending) : isClosed false (raw ++ e.text) = true := by
  cases e <;> simp [isClosed, Ending.text, endsLine]

theorem terminated_cons (raw : String) (e : Ending) (ls : List (String × Ending)) :
    terminated ((raw, e) :: ls) = raw ++ e.text ++ terminated ls := by
  simp [terminated, String.join_cons]

theorem isClosed_terminated (ls : List (String × Ending)) :
    isClosed false (terminated ls) = true := by
  induction ls with
  | nil => rfl
  | cons l ls ih =>
    rw [terminated_cons]
    exact isClosed_append (isClosed_ending l.1 l.2) ih

theorem sourceLines_ending {raw : String} (h : IsLine raw) (e : Ending) :
    sourceLines (raw ++ e.text) false = [raw] := by
  have hdrop : dropReturn raw.toList = raw.toList := if_neg h.getLast?_ne_return
  cases e with
  | feed =>
    have htext : (raw ++ Ending.feed.text).toList = raw.toList ++ ['\n'] := String.toList_append
    simp [sourceLines, htext, lines_newline h.newline_not_mem, hdrop]
  | returnFeed =>
    have htext : (raw ++ Ending.returnFeed.text).toList = (raw.toList ++ ['\r']) ++ ['\n'] := by
      simp [Ending.text]
    have hnewline : '\n' ∉ raw.toList ++ ['\r'] := by simp [h.newline_not_mem]
    have hlast : dropReturn (raw.toList ++ ['\r']) = raw.toList := by simp [dropReturn]
    rw [sourceLines_eq, feeds, if_neg Bool.false_ne_true, htext, lines_newline hnewline, hlast]
    simp

theorem sourceLines_terminated {ls : List (String × Ending)} (h : ∀ l ∈ ls, IsLine l.1) :
    sourceLines (terminated ls) false = ls.map Prod.fst := by
  induction ls with
  | nil => rfl
  | cons l ls ih =>
    have hrest := ih fun k hk => h k (List.mem_cons_of_mem l hk)
    rw [terminated_cons, sourceLines_append (isClosed_ending l.1 l.2), hrest,
      sourceLines_ending (h l List.mem_cons_self)]
    rfl

theorem collapseReturns_of_no_newline {cs : List Char} (h : '\n' ∉ cs) :
    collapseReturns cs = cs := by
  fun_induction collapseReturns cs with
  | case1 => rfl
  | case2 cs ih => simp at h
  | case3 c cs hpair ih => rw [ih fun hmem => h (List.mem_cons_of_mem c hmem)]

theorem consFirst_eq_modifyHead (c : Char) {ls : List (List Char)} (h : ls ≠ []) :
    consFirst c ls = ls.modifyHead (c :: ·) := by
  cases ls with
  | nil => contradiction
  | cons l ls => rfl

/-- Without the carriage returns before them, the line feeds alone divide a text into its pieces. -/
theorem pieces_eq_splitOn (cs : List Char) : pieces cs = (collapseReturns cs).splitOn '\n' := by
  fun_induction pieces cs with
  | case1 => rfl
  | case2 cs ih => simp [collapseReturns, List.splitOn_cons_eq_if_modifyHead, ih]
  | case3 cs ih => simp [collapseReturns, List.splitOn_cons_eq_if_modifyHead, ih]
  | case4 c cs hreturn hnewline ih =>
    have hc : (c == '\n') = false := by simpa using hnewline
    rw [collapseReturns.eq_3 c cs hreturn, List.splitOn_cons_eq_if_modifyHead, hc, ← ih,
      consFirst_eq_modifyHead c (pieces_ne_nil cs)]
    rfl

theorem newline_not_mem_of_mem_splitOn {cs l : List Char} (h : l ∈ cs.splitOn '\n') : '\n' ∉ l := by
  induction cs generalizing l with
  | nil => simp_all
  | cons c cs ih =>
    rw [List.splitOn_cons_eq_if_modifyHead] at h
    split at h
    · rcases List.mem_cons.mp h with rfl | h
      · exact List.not_mem_nil
      · exact ih h
    · rename_i hc
      obtain ⟨k, ks, hks⟩ := List.exists_cons_of_ne_nil (List.splitOn_ne_nil '\n' cs)
      rw [hks] at h ih
      rcases List.mem_cons.mp h with rfl | h
      · have hne : c ≠ '\n' := by simpa using hc
        simp [hne.symm, ih List.mem_cons_self]
      · exact ih (List.mem_cons_of_mem k h)

theorem newline_not_mem_of_mem_lines {cs l : List Char} (h : l ∈ lines cs) : '\n' ∉ l := by
  rw [lines, dropEmptyLast, pieces_eq_splitOn] at h
  split at h
  · exact newline_not_mem_of_mem_splitOn (List.dropLast_subset _ h)
  · exact newline_not_mem_of_mem_splitOn h

theorem getLast?_splitOn_ne {cs : List Char} {c : Char} (hlast : cs.getLast? = some c)
    (hc : c ≠ '\n') : (cs.splitOn '\n').getLast? ≠ some [] := by
  induction cs with
  | nil => cases hlast
  | cons d cs ih =>
    cases cs with
    | nil =>
      have hd : d = c := by simpa using hlast
      simp [List.splitOn_cons_eq_if_modifyHead, hd, hc]
    | cons e cs =>
      have hrest := ih (by simpa using hlast)
      obtain ⟨k, ks, hks⟩ := List.exists_cons_of_ne_nil (List.splitOn_ne_nil '\n' (e :: cs))
      rw [List.splitOn_cons_eq_if_modifyHead, hks]
      rw [hks] at hrest
      split
      · rwa [List.getLast?_cons_cons]
      · cases ks with
        | nil => simp
        | cons k' ks => simpa using hrest

def dropFinalFeed (cs : List Char) : List Char :=
  if cs.getLast? = some '\n' then cs.dropLast else cs

def chomped (text : String) : String := String.ofList (dropFinalFeed text.toList)

theorem intercalate_lines (cs : List Char) :
    ['\n'].intercalate (lines cs) = dropFinalFeed (collapseReturns cs) := by
  rw [lines, pieces_eq_splitOn]
  generalize collapseReturns cs = ds
  cases hlast : ds.getLast? with
  | none =>
    rw [List.getLast?_eq_none_iff.mp hlast]
    rfl
  | some c =>
    by_cases hc : c = '\n'
    · subst hc
      obtain ⟨init, rfl⟩ := List.getLast?_eq_some_iff.mp hlast
      have hpieces : (init ++ ['\n']).splitOn '\n' = init.splitOn '\n' ++ [[]] :=
        List.splitOn_append_cons_self init []
      have hdrop : dropEmptyLast (init.splitOn '\n' ++ [[]]) = init.splitOn '\n' := by
        simp [dropEmptyLast]
      rw [hpieces, hdrop, List.intercalate_splitOn, dropFinalFeed, if_pos hlast,
        List.dropLast_concat]
    · have hkeeps : dropEmptyLast (ds.splitOn '\n') = ds.splitOn '\n' :=
        if_neg (getLast?_splitOn_ne hlast hc)
      have hfeed : ds.getLast? ≠ some '\n' := by simp [hlast, hc]
      rw [hkeeps, List.intercalate_splitOn, dropFinalFeed, if_neg hfeed]

theorem intercalate_sourceLines (text : String) :
    "\n".intercalate (sourceLines text false) = chomped (collapsed text) := by
  have hlines : (sourceLines text false).map String.toList = lines text.toList := by
    simp [sourceLines, Function.comp_def]
  have hchars : ("\n".intercalate (sourceLines text false)).toList =
      dropFinalFeed (collapseReturns text.toList) := by
    rw [String.toList_intercalate, hlines]
    exact intercalate_lines text.toList
  rw [chomped, collapsed, String.toList_ofList, ← hchars, String.ofList_toList]

theorem sourceLines_of_isLine {raw : String} (h : IsLine raw) (hne : raw ≠ "") :
    sourceLines raw false = [raw] := by
  have hchars : raw.toList ≠ [] := by simpa using hne
  have hlines : lines raw.toList = [raw.toList] := by
    rw [lines, pieces_eq_splitOn, collapseReturns_of_no_newline h.newline_not_mem,
      List.splitOn_eq_singleton h.newline_not_mem]
    exact if_neg (by simpa using hchars)
  simp [sourceLines, hlines]

/-- Lines are read back from the text that joins them, whichever ending each of them has, and the
last one needs none unless it is empty. From any text come lines without a line feed, and joined by
line feeds these are the text, with each carriage return before a line feed and then one last line
feed left out. -/
theorem sourceLines_undo_joining :
    (∀ ls : List (String × Ending), (∀ l ∈ ls, IsLine l.1) →
      sourceLines (terminated ls) false = ls.map Prod.fst ∧
      ∀ last, IsLine last → last ≠ "" →
        sourceLines (terminated ls ++ last) false = ls.map Prod.fst ++ [last]) ∧
    ∀ text, (∀ raw ∈ sourceLines text false, '\n' ∉ raw.toList) ∧
      "\n".intercalate (sourceLines text false) = chomped (collapsed text) := by
  refine ⟨fun ls h => ⟨sourceLines_terminated h, fun last hlast hne => ?_⟩, fun text => ⟨?_, ?_⟩⟩
  · rw [sourceLines_append (isClosed_terminated ls), sourceLines_terminated h,
      sourceLines_of_isLine hlast hne]
  · intro raw hraw
    obtain ⟨l, hl, rfl⟩ := List.mem_map.mp hraw
    rw [String.toList_ofList]
    exact newline_not_mem_of_mem_lines hl
  · exact intercalate_sourceLines text

/-- A line may begin with a carriage return or be empty, and the last one is read without an
ending. -/
theorem sourceLines_undo_joining_mixed :
    let ls : List (String × Ending) :=
      [("", .feed), ("\ra", .returnFeed), ("", .returnFeed), ("b\rc", .feed)]
    terminated ls = "\n\ra\r\n\r\nb\rc\n" ∧ (∀ l ∈ ls, IsLine l.1) ∧ IsLine "d" ∧
      sourceLines (terminated ls) false = ["", "\ra", "", "b\rc"] ∧
      sourceLines (terminated ls ++ "d") false = ["", "\ra", "", "b\rc", "d"] := by
  intro ls
  have hls : ∀ l ∈ ls, IsLine l.1 := by decide
  have hd : IsLine "d" := by decide
  obtain ⟨hended, hlast⟩ := sourceLines_undo_joining.1 ls hls
  exact ⟨by decide +kernel, hls, hd, hended, hlast "d" hd (by decide)⟩

end Text
end LineAssembly
