import ContainerBuild.Text.Lines
import Mathlib.Data.List.Basic
import Mathlib.Data.List.TakeDrop
import Mathlib.Data.List.TakeWhile

/-!
# Cutting texts

* `span_eq_iff`: a text is cut behind the longest beginning in a class exactly
  where something else than the class begins;
* `splitFirst_eq_some_iff`, `append_cons_inj`: it is cut at the first mark;
* `splitOn_append_of_notMem`, `splitOn_written`: what the pieces between marks become
  if something is written behind a text;
* `feed_not_mem_lines`: no line of a text has a line feed;
* `lines_written`: lines that are written one after the other, each with a line
  feed, are read back;
* `extends_append`, `extends_feed`, `extends_returnFeed`: a text goes on with other
  lines (`Extends`) behind a line break.
-/

namespace ContainerBuild.Text

theorem span_eq_iff {α : Type} {p : α → Bool} {l before after : List α} :
    l.span p = (before, after) ↔
      l = before ++ after ∧ (∀ c ∈ before, p c) ∧ ∀ c ∈ after.head?, ¬p c := by
  rw [List.span_eq_takeWhile_dropWhile]
  constructor
  · intro h
    obtain ⟨rfl, rfl⟩ := Prod.mk.inj h
    refine ⟨List.takeWhile_append_dropWhile.symm, fun _ => List.mem_takeWhile_imp, fun c hc => ?_⟩
    have hnot := List.head?_dropWhile_not p l
    rw [Option.mem_def.1 hc] at hnot
    exact Bool.not_eq_true _ ▸ hnot
  · rintro ⟨rfl, hbefore, hafter⟩
    cases after with
    | nil =>
      rw [List.append_nil, List.takeWhile_eq_self_iff.2 hbefore, List.dropWhile_eq_nil_iff.2 hbefore]
    | cons c after =>
      have hc : ¬p c := hafter c rfl
      rw [List.takeWhile_append_of_pos hbefore, List.dropWhile_append_of_pos hbefore,
        List.takeWhile_cons_of_neg hc, List.dropWhile_cons_of_neg hc, List.append_nil]

/-- The same from the end of the text. -/
theorem reverse_takeWhile_eq_iff {α : Type} {p : α → Bool} {l after : List α} :
    (l.reverse.takeWhile p).reverse = after ↔
      ∃ before, l = before ++ after ∧ (∀ c ∈ after, p c) ∧ ∀ c ∈ before.getLast?, ¬p c := by
  constructor
  · rintro rfl
    have hspan : l.reverse.span p = (l.reverse.takeWhile p, l.reverse.dropWhile p) :=
      List.span_eq_takeWhile_dropWhile p _
    obtain ⟨hl, hafter, hbefore⟩ := span_eq_iff.1 hspan
    refine ⟨(l.reverse.dropWhile p).reverse, ?_, fun c hc => hafter c (List.mem_reverse.1 hc), ?_⟩
    · rw [← List.reverse_append, ← hl, List.reverse_reverse]
    · rw [List.getLast?_reverse]
      exact hbefore
  · rintro ⟨before, rfl, hafter, hbefore⟩
    have hspan : (before ++ after).reverse.span p = (after.reverse, before.reverse) := by
      refine span_eq_iff.2 ⟨List.reverse_append, fun c hc => hafter c (List.mem_reverse.1 hc), ?_⟩
      rw [List.head?_reverse]
      exact hbefore
    rw [List.span_eq_takeWhile_dropWhile] at hspan
    rw [(Prod.mk.inj hspan).1, List.reverse_reverse]

/-- The first mark of a list is found again. -/
theorem append_cons_inj {α : Type} [DecidableEq α] {mark : α} {before before' after after' : List α}
    (h : mark ∉ before) (h' : mark ∉ before')
    (heq : before ++ mark :: after = before' ++ mark :: after') :
    before = before' ∧ after = after' := by
  have hspan : ∀ l rest : List α, mark ∉ l →
      (l ++ mark :: rest).span (· ≠ mark) = (l, mark :: rest) := by
    intro l rest hl
    refine span_eq_iff.2 ⟨rfl, fun c hc => decide_eq_true fun hmark => hl (hmark ▸ hc), ?_⟩
    intro c hc
    rw [← Option.some.inj hc]
    simp
  have hcut := hspan before after h
  rw [heq, hspan before' after' h'] at hcut
  obtain ⟨rfl, hafter⟩ := Prod.mk.inj hcut
  exact ⟨rfl, (List.cons.inj hafter).2.symm⟩

theorem splitFirst_append {mark : Char} {before after : List Char} (h : mark ∉ before) :
    splitFirst mark (before ++ mark :: after) = some (before, after) := by
  induction before with
  | nil => rw [List.nil_append, splitFirst, if_pos rfl]
  | cons c before ih =>
    obtain ⟨hc, hbefore⟩ := not_or.1 (mt List.mem_cons.2 h)
    rw [List.cons_append, splitFirst, if_neg (Ne.symm hc), ih hbefore]
    rfl

theorem splitFirst_eq_some_iff {mark : Char} {text before after : List Char} :
    splitFirst mark text = some (before, after) ↔
      text = before ++ mark :: after ∧ mark ∉ before := by
  refine ⟨fun h => ?_, fun ⟨htext, hbefore⟩ => htext ▸ splitFirst_append hbefore⟩
  induction text generalizing before with
  | nil => cases h
  | cons c text ih =>
    rw [splitFirst] at h
    split_ifs at h with hc
    · obtain ⟨rfl, rfl⟩ := Prod.mk.inj (Option.some.inj h)
      exact ⟨by rw [hc, List.nil_append], List.not_mem_nil⟩
    · obtain ⟨⟨before', after'⟩, hrest, heq⟩ := Option.map_eq_some_iff.1 h
      obtain ⟨rfl, rfl⟩ := Prod.mk.inj heq
      obtain ⟨rfl, hbefore⟩ := ih hrest
      exact ⟨rfl, fun hmem => (List.mem_cons.1 hmem).elim (fun heq => hc heq.symm) hbefore⟩

/-- What is written behind a text is a part of its last piece. -/
theorem splitOn_append_of_notMem {mark : Char} {suffix : List Char} (h : mark ∉ suffix)
    (text : List Char) : ∃ before last, text.splitOn mark = before ++ [last] ∧
      (text ++ suffix).splitOn mark = before ++ [last ++ suffix] := by
  induction text with
  | nil => exact ⟨[], [], List.splitOn_nil mark, List.splitOn_eq_singleton h⟩
  | cons c text ih =>
    obtain ⟨before, last, htext, hsuffix⟩ := ih
    rw [List.cons_append, List.splitOn_cons_eq_if_modifyHead, List.splitOn_cons_eq_if_modifyHead,
      htext, hsuffix]
    split_ifs with hc
    · exact ⟨[] :: before, last, rfl, rfl⟩
    · cases before with
      | nil => exact ⟨[], c :: last, rfl, rfl⟩
      | cons first before => exact ⟨(c :: first) :: before, last, rfl, rfl⟩

/-! ### Lines -/

/-- A line that a line feed can be written behind: it has no line feed of its own,
    and no carriage return at its end. -/
def IsLine (line : List Char) : Prop :=
  '\n' ∉ line ∧ '\r' ∉ line.getLast?

instance (line : List Char) : Decidable (IsLine line) :=
  inferInstanceAs (Decidable (_ ∧ _))

theorem IsLine.append {before line : List Char} (h : IsLine line) (hne : line ≠ [])
    (hbefore : '\n' ∉ before) : IsLine (before ++ line) := by
  refine ⟨fun hmem => (List.mem_append.1 hmem).elim hbefore h.1, ?_⟩
  rw [List.getLast?_append_of_ne_nil before hne]
  exact h.2

theorem IsLine.cons {c : Char} {line : List Char} (h : IsLine line) (hfeed : c ≠ '\n')
    (hreturn : c ≠ '\r') : IsLine (c :: line) := by
  have hc : '\n' ∉ [c] := fun hmem => hfeed (List.mem_singleton.1 hmem).symm
  cases line with
  | nil => exact ⟨hc, fun hmem => hreturn (Option.some.inj hmem)⟩
  | cons d line => exact h.append (List.cons_ne_nil d line) hc

/-- Lines as they are written. -/
def written (lines : List (List Char)) : List Char :=
  lines.flatMap (· ++ ['\n'])

theorem written_cons (line : List Char) (ls : List (List Char)) :
    written (line :: ls) = line ++ '\n' :: written ls := by
  rw [written, List.flatMap_cons, List.append_assoc]
  rfl

/-- What is written as some texts, each with a line feed, has the lines of the texts and
    nothing behind them. -/
theorem splitOn_written (texts : List (List Char)) :
    (written texts).splitOn '\n' = texts.flatMap (·.splitOn '\n') ++ [[]] := by
  induction texts with
  | nil => rfl
  | cons text texts ih =>
    rw [written_cons, List.splitOn_append_cons_self, ih, List.flatMap_cons, List.append_assoc]

section
variable {α : Type} [DecidableEq α] {feed ret : α} {line current : List α}

/-- What stands before the first line feed is read into the current line. -/
theorem linesFrom_notMem (h : feed ∉ line) (rest : List α) :
    linesFrom feed ret current (line ++ rest) =
      linesFrom feed ret (line.reverse ++ current) rest := by
  induction line generalizing current with
  | nil => rfl
  | cons c line ih =>
    obtain ⟨hc, hline⟩ := not_or.1 (mt List.mem_cons.2 h)
    rw [List.cons_append, linesFrom, if_neg (Ne.symm hc), ih hline, List.reverse_cons,
      List.append_assoc, List.singleton_append]

theorem linesFrom_append (h : feed ∉ line) (rest : List α) :
    linesFrom feed ret current (line ++ feed :: rest) =
      closeLine ret (line.reverse ++ current) :: linesFrom feed ret [] rest := by
  rw [linesFrom_notMem h, linesFrom, if_pos rfl]

end

/-- No line of a text has a line feed. -/
theorem feed_not_mem_linesFrom {text current : List Char} (hcurrent : '\n' ∉ current) :
    ∀ line ∈ linesFrom '\n' '\r' current text, '\n' ∉ line := by
  have hreverse : '\n' ∉ current.reverse := mt List.mem_reverse.1 hcurrent
  induction text generalizing current with
  | nil =>
    intro line hline
    rw [linesFrom] at hline
    split_ifs at hline
    · exact absurd hline List.not_mem_nil
    · exact List.mem_singleton.1 hline ▸ hreverse
  | cons c text ih =>
    rw [linesFrom]
    split_ifs with hc
    · refine List.forall_mem_cons.2 ⟨?_, ih List.not_mem_nil List.not_mem_nil⟩
      cases current with
      | nil => exact List.not_mem_nil
      | cons d current =>
        rw [closeLine]
        split_ifs
        · exact fun hmem => hcurrent (List.mem_cons_of_mem _ (List.mem_reverse.1 hmem))
        · exact hreverse
    · have hcurrent' : '\n' ∉ c :: current := fun hmem =>
        (List.mem_cons.1 hmem).elim (fun heq => hc heq.symm) hcurrent
      exact ih hcurrent' (mt List.mem_reverse.1 hcurrent')

theorem feed_not_mem_lines {text line : List Char} (h : line ∈ lines text) : '\n' ∉ line :=
  feed_not_mem_linesFrom List.not_mem_nil line h

theorem closeLine_reverse {line : List Char} (h : '\r' ∉ line.getLast?) :
    closeLine '\r' line.reverse = line := by
  rcases List.eq_nil_or_concat line with rfl | ⟨line, c, rfl⟩
  · rfl
  · rw [List.concat_eq_append] at h ⊢
    rw [List.getLast?_concat] at h
    rw [List.reverse_concat, closeLine, if_neg (fun hc : c = '\r' => h (hc ▸ rfl)), List.reverse_cons,
      List.reverse_reverse]

/-- Lines are read as they were written. -/
theorem lines_written {ls : List (List Char)} (h : ∀ line ∈ ls, IsLine line) :
    lines (written ls) = ls := by
  induction ls with
  | nil => rfl
  | cons line ls ih =>
    obtain ⟨hline, hls⟩ := List.forall_mem_cons.1 h
    rw [lines, written_cons, linesFrom_append hline.1, List.append_nil, closeLine_reverse hline.2]
    exact congrArg (line :: ·) (ih hls)

/-! ### Texts that go on -/

/-- The lines of a text are the first lines of another one. -/
def Extends (text text' : String) : Prop :=
  lines text.toList <+: lines text'.toList

variable {before after current : List Char}

/-- What stands behind a line feed begins a line of its own. -/
theorem linesFrom_append_feed (before after current : List Char) :
    linesFrom '\n' '\r' current (before ++ '\n' :: after) =
      linesFrom '\n' '\r' current (before ++ ['\n']) ++ lines after := by
  induction before generalizing current with
  | nil => rfl
  | cons c before ih =>
    rw [List.cons_append, List.cons_append, linesFrom, linesFrom]
    split_ifs
    · rw [ih, List.cons_append]
    · exact ih _

/-- A line feed ends the last line, unless the line has a carriage return at its end, which
    is counted to the line break then. -/
theorem linesFrom_prefix_feed (h : '\r' ∉ (current.reverse ++ before).getLast?) :
    linesFrom '\n' '\r' current before <+: linesFrom '\n' '\r' current (before ++ ['\n']) := by
  induction before generalizing current with
  | nil =>
    cases current with
    | nil => exact List.nil_prefix
    | cons c current =>
      have hc : c ≠ '\r' := by
        rintro rfl
        exact h (by simp)
      rw [List.nil_append, linesFrom, linesFrom, if_pos rfl, closeLine, if_neg hc]
      exact List.prefix_rfl
  | cons c before ih =>
    rw [List.cons_append, linesFrom, linesFrom]
    split_ifs with hc
    · refine (List.prefix_cons_inj _).2 (ih fun hlast => h ?_)
      rw [List.reverse_nil, List.nil_append] at hlast
      rw [List.getLast?_append, List.getLast?_cons, Option.mem_def.1 hlast]
      rfl
    · exact ih (by rwa [List.reverse_cons, List.append_assoc])

/-- A carriage return and a line feed end any last line. -/
theorem linesFrom_prefix_returnFeed (before current : List Char) :
    linesFrom '\n' '\r' current before <+:
      linesFrom '\n' '\r' current (before ++ ['\r', '\n']) := by
  induction before generalizing current with
  | nil =>
    cases current with
    | nil => exact List.nil_prefix
    | cons c current => exact List.prefix_rfl
  | cons c before ih =>
    rw [List.cons_append, linesFrom, linesFrom]
    split_ifs
    · exact (List.prefix_cons_inj _).2 (ih _)
    · exact ih _

/-- Whatever stands behind the last line break of a text, the text goes on with it. -/
theorem extends_append {text : String} (h : '\n' ∈ text.toList.getLast?) (more : String) :
    Extends text (text ++ more) := by
  obtain ⟨before, hbefore⟩ := List.getLast?_eq_some_iff.1 h
  rw [Extends, String.toList_append, hbefore, List.append_assoc, List.singleton_append, lines,
    lines, linesFrom_append_feed before more.toList]
  exact List.prefix_append _ _

/-- So does a text whose last line is ended. -/
theorem extends_feed {text : String} (h : '\r' ∉ text.toList.getLast?) (more : String) :
    Extends text (text ++ "\n" ++ more) := by
  have hfeed : (text ++ "\n" ++ more).toList = text.toList ++ '\n' :: more.toList := by
    rw [String.toList_append, String.toList_append, List.append_assoc]
    rfl
  rw [Extends, hfeed, lines, lines, linesFrom_append_feed]
  exact (linesFrom_prefix_feed h).trans (List.prefix_append _ _)

theorem extends_returnFeed (text more : String) : Extends text (text ++ "\r\n" ++ more) := by
  have hfeed : (text ++ "\r\n" ++ more).toList =
      (text.toList ++ ['\r']) ++ '\n' :: more.toList := by
    simp only [String.toList_append, List.append_assoc]
    rfl
  rw [Extends, hfeed, lines, lines, linesFrom_append_feed, List.append_assoc]
  exact (linesFrom_prefix_returnFeed _ _).trans (List.prefix_append _ _)

end ContainerBuild.Text
