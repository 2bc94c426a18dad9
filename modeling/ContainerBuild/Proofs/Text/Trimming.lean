import ContainerBuild.Proofs.Text.Lines
import ContainerBuild.Text.Blank
import Mathlib.Data.List.DropRight

/-!
# White space at the ends of lines

What is left of the lines of a text without the white space at their ends and without
blank lines (`trimmed`) depends neither on the carriage returns that are counted to
the line breaks (`trimmed_lines`) nor on line feeds at the end of the text
(`trimmed_splitOn_append`).
-/

namespace ContainerBuild.Text

theorem dropEndWhile_eq_self {p : Char → Bool} {text : List Char} (h : ∀ c ∈ text, ¬p c) :
    dropEndWhile p text = text := by
  have hreverse : text.reverse.dropWhile p = text.reverse := by
    rw [List.dropWhile_eq_self_iff]
    exact fun hpos => h _ (List.mem_reverse.1 (List.getElem_mem hpos))
  rw [dropEndWhile, hreverse, List.reverse_reverse]

theorem dropEndWhile_concat {p : Char → Bool} {c : Char} (h : p c) (text : List Char) :
    dropEndWhile p (text ++ [c]) = dropEndWhile p text := by
  rw [dropEndWhile, List.reverse_concat, List.dropWhile_cons_of_pos h, dropEndWhile]

theorem dropEndWhile_idempotent (p : Char → Bool) (text : List Char) :
    dropEndWhile p (dropEndWhile p text) = dropEndWhile p text := by
  rw [dropEndWhile, dropEndWhile, List.reverse_reverse, List.dropWhile_idempotent]

/-- What is dropped from the end of a text is in the class. -/
theorem exists_dropEndWhile_append (p : Char → Bool) (text : List Char) :
    ∃ dropped, text = dropEndWhile p text ++ dropped ∧ ∀ c ∈ dropped, p c := by
  refine ⟨(text.reverse.takeWhile p).reverse, ?_, fun c hc => ?_⟩
  · rw [dropEndWhile, ← List.reverse_append, List.takeWhile_append_dropWhile, List.reverse_reverse]
  · exact List.mem_takeWhile_imp (List.mem_reverse.1 hc)

/-! ### Trimmed lines -/

theorem dropEndWhile_closeLine (line : List Char) :
    dropEndWhile isBlank (closeLine '\r' line) = dropEndWhile isBlank line.reverse := by
  cases line with
  | nil => rfl
  | cons c line =>
    rw [closeLine]
    split_ifs with hc
    · have hblank : isBlank c := by rw [hc]; decide
      rw [List.reverse_cons, dropEndWhile_concat hblank]
    · rfl

/-- What is left of lines without the white space at their ends, but for those of
    which nothing is left. -/
def trimmed (ls : List (List Char)) : List (List Char) :=
  (ls.map (dropEndWhile isBlank)).filter (· ≠ [])

theorem trimmed_cons_congr {line line' : List Char} {ls ls' : List (List Char)}
    (h : dropEndWhile isBlank line = dropEndWhile isBlank line') (hls : trimmed ls = trimmed ls') :
    trimmed (line :: ls) = trimmed (line' :: ls') := by
  rw [trimmed, trimmed] at *
  rw [List.map_cons, List.map_cons, h, List.filter_cons, List.filter_cons, hls]

theorem trimmed_append (ls ls' : List (List Char)) :
    trimmed (ls ++ ls') = trimmed ls ++ trimmed ls' := by
  rw [trimmed, List.map_append, List.filter_append]
  rfl

theorem mem_trimmed_iff {line : List Char} (h : line ≠ []) {ls : List (List Char)} :
    line ∈ trimmed ls ↔ ∃ l ∈ ls, dropEndWhile isBlank l = line := by
  rw [trimmed, List.mem_filter, List.mem_map, decide_eq_true_eq]
  exact and_iff_left h

/-- A carriage return that is counted to a line break is white space at the end of
    what stands before the line feed. -/
theorem trimmed_linesFrom (text current : List Char) :
    trimmed (linesFrom '\n' '\r' current text) =
      trimmed ((text.splitOn '\n').modifyHead (current.reverse ++ ·)) := by
  induction text generalizing current with
  | nil =>
    cases current with
    | nil => rfl
    | cons c current =>
      rw [linesFrom, List.splitOn_nil, List.modifyHead_cons, List.append_nil]
      rfl
  | cons c text ih =>
    by_cases hc : c = '\n'
    · have hrest : trimmed (linesFrom '\n' '\r' [] text) = trimmed (text.splitOn '\n') := by
        rw [ih]
        exact congrArg trimmed (congrFun List.modifyHead_id _)
      rw [linesFrom, if_pos hc, List.splitOn_cons_eq_if_modifyHead, if_pos (beq_iff_eq.2 hc),
        List.modifyHead_cons, List.append_nil]
      exact trimmed_cons_congr (dropEndWhile_closeLine current) hrest
    · rw [linesFrom, if_neg hc, ih, List.splitOn_cons_eq_if_modifyHead,
        if_neg (mt beq_iff_eq.1 hc), List.modifyHead_modifyHead]
      congr 2
      funext line
      rw [List.reverse_cons, List.append_assoc]
      rfl

theorem trimmed_lines (text : List Char) : trimmed (lines text) = trimmed (text.splitOn '\n') := by
  rw [lines, trimmed_linesFrom]
  exact congrArg trimmed (congrFun List.modifyHead_id _)

/-- Line feeds at the end of a text end blank lines. -/
theorem trimmed_splitOn_append {text feeds : List Char} (h : ∀ c ∈ feeds, c = '\n') :
    trimmed ((text ++ feeds).splitOn '\n') = trimmed (text.splitOn '\n') := by
  induction feeds generalizing text with
  | nil => rw [List.append_nil]
  | cons c feeds ih =>
    obtain ⟨rfl, hfeeds⟩ := List.forall_mem_cons.1 h
    have hblank : trimmed (feeds.splitOn '\n') = [] := @ih [] hfeeds
    rw [List.splitOn_append_cons_self, trimmed_append, hblank, List.append_nil]

end ContainerBuild.Text
