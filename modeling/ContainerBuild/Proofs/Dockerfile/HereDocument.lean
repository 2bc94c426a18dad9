import ContainerBuild.Proofs.Dockerfile.Lines
import ContainerBuild.Proofs.Text.Framing
import ContainerBuild.Proofs.Text.Trimming
import Mathlib.Data.List.Nodup
import Mathlib.Data.List.Perm.Subperm
import Mathlib.Data.List.Range

/-!
# The end of a here-document

The delimiter of a command is the first that no line of the command equals, not
counting white space at the end of the line (`Run.delimiter_outcome`). There is
always one, as more are tried than there are lines. Line breaks at the end of the
command make no difference to it (`Run.mem_endings_iff`), so the lines of the
here-document are those of the command up to its delimiter, whatever stands behind
(`framed_hereDocument`).
-/

namespace ContainerBuild.Dockerfile

open Text

/-! ### Delimiters -/

theorem not_isBlank_of_isDigit {c : Char} (h : c.isDigit) : ¬isBlank c := by
  have hrange : 48 ≤ c.toNat ∧ c.toNat ≤ 57 := by
    simpa [Char.isDigit, UInt32.le_iff_toNat_le] using h
  simp only [isBlank, blanks, CodePoints.has, List.any_cons, List.any_nil, Bool.or_false,
    Bool.or_eq_true, Bool.and_eq_true, decide_eq_true_eq]
  omega

theorem not_isBlank_delimiter {n : Nat} {c : Char} (h : c ∈ (delimiter n).toList) :
    ¬isBlank c := by
  have hletters : "EOF_".toList.all (!isBlank ·) := by decide
  have hletter : ∀ c ∈ "EOF_".toList, ¬isBlank c := by
    intro c hc
    simpa using List.all_eq_true.1 hletters c hc
  cases n with
  | zero =>
    have hsub : "EOF".toList ⊆ "EOF_".toList := by decide
    exact hletter c (hsub h)
  | succ n =>
    rw [delimiter, String.toList_append, List.mem_append] at h
    · rcases h with h | h
      · exact hletter c h
      · rw [Nat.toString_eq_repr, Nat.toList_repr] at h
        exact not_isBlank_of_isDigit (Nat.isDigit_of_mem_toDigits (by decide) (by decide) h)
    · exact Nat.succ_ne_zero n

theorem delimiter_ne_empty (n : Nat) : delimiter n ≠ "" := by
  intro h
  cases n with
  | zero => exact absurd h (by decide)
  | succ n =>
    have htext := congrArg String.toList h
    rw [delimiter, String.toList_append] at htext
    · cases htext
    · exact Nat.succ_ne_zero n

theorem delimiter_injective : Function.Injective delimiter := by
  -- The one without a number is shorter than the others.
  have hshorter : ∀ n, delimiter 0 ≠ delimiter (n + 1) := by
    intro n h
    have htext := congrArg String.toList h
    rw [delimiter, delimiter, String.toList_append] at htext
    · cases htext
    · exact Nat.succ_ne_zero n
  intro m n h
  cases m with
  | zero =>
    cases n with
    | zero => rfl
    | succ n => exact absurd h (hshorter n)
  | succ m =>
    cases n with
    | zero => exact absurd h.symm (hshorter m)
    | succ n =>
      have hnumber := congrArg String.toList ((String.append_right_inj "EOF_").1 h)
      rw [Nat.toString_eq_repr, Nat.toString_eq_repr, Nat.toList_repr, Nat.toList_repr] at hnumber
      rw [← Nat.ofDigitChars_toDigits (by decide : 1 < 10) (by decide) (n := m + 1), hnumber,
        Nat.ofDigitChars_toDigits (by decide) (by decide)]

/-- One of the delimiters that are tried is free. -/
theorem exists_delimiter_notMem (taken : List String) :
    ∃ n < taken.length + 1, delimiter n ∉ taken := by
  by_contra! hall
  have hnodup : ((List.range (taken.length + 1)).map delimiter).Nodup :=
    List.Nodup.map delimiter_injective List.nodup_range
  have hsub : (List.range (taken.length + 1)).map delimiter ⊆ taken := by
    intro name hname
    obtain ⟨n, hn, rfl⟩ := List.mem_map.1 hname
    exact hall n (List.mem_range.1 hn)
  -- There are more of them than there is place for.
  have hlength := (List.subperm_of_subset hnodup hsub).length_le
  rw [List.length_map, List.length_range] at hlength
  exact absurd hlength (Nat.not_succ_le_self _)

namespace Run

variable {r r' : Run}

/-- The delimiter of a command is the first that is free. -/
theorem delimiter_outcome (r : Run) :
    ∃ n, r.delimiter = Dockerfile.delimiter n ∧ Dockerfile.delimiter n ∉ r.endings ∧
      ∀ m < n, Dockerfile.delimiter m ∈ r.endings := by
  obtain ⟨free, hfree, hnot⟩ := exists_delimiter_notMem r.endings
  rw [delimiter]
  cases hfind : (List.range (r.endings.length + 1)).find?
      fun n => !r.endings.contains (Dockerfile.delimiter n) with
  | none =>
    have htaken := List.find?_eq_none.1 hfind free (List.mem_range.2 hfree)
    simp [hnot] at htaken
  | some n =>
    obtain ⟨hn, _, hbefore⟩ := List.find?_range_eq_some.1 hfind
    refine ⟨n, rfl, by simpa using hn, fun m hm => by simpa using hbefore m hm⟩

/-- The lines of the here-document and line feeds are the command. -/
theorem exists_command_eq (r : Run) :
    ∃ feeds, r.command.toList = r.body.toList ++ feeds ∧ ∀ c ∈ feeds, c = '\n' := by
  obtain ⟨feeds, hcommand, hfeeds⟩ := exists_dropEndWhile_append (· = '\n') r.command.toList
  rw [body, String.toList_ofList]
  exact ⟨feeds, hcommand, fun c hc => of_decide_eq_true (hfeeds c hc)⟩

/-- Whether a command has a line depends on its here-document only, unless the line is
    blank. -/
theorem mem_endings_iff {ending : String} (h : ending ≠ "") :
    ending ∈ r.endings ↔ ∃ line ∈ linesOf r.body, trimEnd (String.ofList line) = ending := by
  have hne : ending.toList ≠ [] := mt String.toList_eq_nil_iff.1 h
  have htrimmed : trimmed (lines r.command.toList) = trimmed (linesOf r.body) := by
    obtain ⟨feeds, hcommand, hfeeds⟩ := r.exists_command_eq
    rw [trimmed_lines, hcommand, trimmed_splitOn_append hfeeds, linesOf]
  have htrim : ∀ line, trimEnd (String.ofList line) = ending ↔
      dropEndWhile isBlank line = ending.toList := by
    intro line
    rw [trimEnd, String.toList_ofList, ← String.toList_inj, String.toList_ofList]
  simp only [endings, stringLines, List.map_map, List.mem_map, Function.comp_apply, htrim]
  rw [← mem_trimmed_iff hne, ← mem_trimmed_iff hne, htrimmed]

theorem delimiter_eq_of_body_eq (h : r.body = r'.body) : r.delimiter = r'.delimiter := by
  have hmem : ∀ n, Dockerfile.delimiter n ∈ r.endings ↔ Dockerfile.delimiter n ∈ r'.endings := by
    intro n
    rw [mem_endings_iff (delimiter_ne_empty n), mem_endings_iff (delimiter_ne_empty n), h]
  obtain ⟨n, hn, hfree, hbefore⟩ := r.delimiter_outcome
  obtain ⟨n', hn', hfree', hbefore'⟩ := r'.delimiter_outcome
  rcases Nat.lt_trichotomy n n' with hlt | rfl | hlt
  · exact absurd ((hmem n).2 (hbefore' n hlt)) hfree
  · rw [hn, hn']
  · exact absurd ((hmem n').1 (hbefore n' hlt)) hfree'

theorem not_isBlank_of_mem_delimiter {c : Char} (h : c ∈ r.delimiter.toList) : ¬isBlank c := by
  obtain ⟨n, hn, _⟩ := r.delimiter_outcome
  rw [hn] at h
  exact not_isBlank_delimiter h

theorem feed_not_mem_delimiter (r : Run) : '\n' ∉ r.delimiter.toList :=
  fun hmem => not_isBlank_of_mem_delimiter hmem (by decide)

/-- No line of a here-document is its delimiter. -/
theorem delimiter_notMem_linesOf_body (r : Run) : r.delimiter.toList ∉ linesOf r.body := by
  obtain ⟨n, hn, hfree, _⟩ := r.delimiter_outcome
  rw [mem_endings_iff (delimiter_ne_empty n)] at hfree
  intro hmem
  refine hfree ⟨r.delimiter.toList, hmem, ?_⟩
  rw [trimEnd, String.toList_ofList, dropEndWhile_eq_self fun c => not_isBlank_of_mem_delimiter,
    String.ofList_toList, hn]

end Run

/-! ### Here-documents -/

/-- The here-document of a command, from its delimiter to the line break behind the
    closing one. -/
def Run.hereDocument (r : Run) : String :=
  r.delimiter ++ "\n" ++ r.body ++ "\n" ++ r.delimiter ++ "\n"

theorem Run.toList_hereDocument_append (r : Run) (rest : List Char) :
    r.hereDocument.toList ++ rest = r.delimiter.toList ++ '\n' ::
      (r.body.toList ++ '\n' :: (r.delimiter.toList ++ '\n' :: rest)) := by
  simp only [Run.hereDocument, String.toList_append, List.append_assoc]
  rfl

theorem framed_hereDocument :
    Framed (fun _ : Run => True) (fun _ => True) (fun r => r.hereDocument.toList) Run.body := by
  intro r r' s s' _ _ _ _ h
  beta_reduce at h
  rw [r.toList_hereDocument_append, r'.toList_hereDocument_append] at h
  obtain ⟨hdelimiter, h⟩ := append_cons_inj r.feed_not_mem_delimiter r'.feed_not_mem_delimiter h
  -- Cut into lines, the two sides have the delimiter in common.
  have hlines := congrArg (List.splitOn '\n') h
  rw [← hdelimiter] at hlines
  simp only [List.splitOn_append_cons_self,
    List.splitOn_eq_singleton r.feed_not_mem_delimiter, List.singleton_append] at hlines
  have hfree' := r'.delimiter_notMem_linesOf_body
  rw [← hdelimiter] at hfree'
  obtain ⟨hbody, hrest⟩ := append_cons_inj r.delimiter_notMem_linesOf_body hfree' hlines
  have hinj : ∀ text text' : List Char, text.splitOn '\n' = text'.splitOn '\n' → text = text' := by
    intro text text' heq
    have htext := congrArg (['\n'].intercalate ·) heq
    simpa only [List.intercalate_splitOn] using htext
  exact ⟨String.toList_inj.1 (hinj _ _ hbody), hinj _ _ hrest⟩

end ContainerBuild.Dockerfile
