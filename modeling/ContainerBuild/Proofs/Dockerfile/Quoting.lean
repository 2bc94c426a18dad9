import ContainerBuild.Dockerfile.Basic
import Mathlib.Data.List.Basic

/-!
# Quoted values

The value of an environment variable stands between double quotes, with a
backslash before every character that would mean something else there. A reader
that undoes the backslashes and stops at the first quote without one finds the
value again, whatever follows it (`unquote_quoteValue`), but for its line breaks:
they have become spaces, so a quoted value is part of one line.
-/

namespace ContainerBuild.Dockerfile

/-- A character as it can stand in the value of a variable. -/
def foldBreak (c : Char) : Char :=
  if c = '\n' ∨ c = '\r' then ' ' else c

/-- A value with a space for every line feed and every carriage return. -/
def folded (value : String) : String :=
  String.ofList (value.toList.map foldBreak)

/-- Reads a text up to the first quote that has no backslash before it. Of every
    backslash and the character behind it, only the character is kept. -/
def unquote : List Char → Option (List Char × List Char)
  | [] => none
  | ['\\'] => none
  | '\\' :: c :: rest => (unquote rest).map fun (text, after) => (c :: text, after)
  | '"' :: rest => some ([], rest)
  | c :: rest => (unquote rest).map fun (text, after) => (c :: text, after)

/-- What is neither a backslash nor a quote stands for itself. -/
theorem unquote_cons {c : Char} (hbackslash : c ≠ '\\') (hquote : c ≠ '"') (rest : List Char) :
    unquote (c :: rest) = (unquote rest).map fun (text, after) => (c :: text, after) := by
  rw [unquote]
  · exact fun heq => absurd heq hbackslash
  · exact fun _ _ heq => absurd heq hbackslash
  · exact hquote

theorem unquote_quoteChar (c : Char) (rest : List Char) :
    unquote (quoteChar c ++ rest) =
      (unquote rest).map fun (text, after) => (foldBreak c :: text, after) := by
  unfold quoteChar foldBreak
  split_ifs with hspecial hbreak hbreak
  · -- What has a backslash before it is no line break.
    rcases hspecial with rfl | rfl | rfl <;> simp at hbreak
  · rw [List.cons_append, List.singleton_append, unquote]
  · exact unquote_cons (by decide) (by decide) rest
  · obtain ⟨hbackslash, hquote, _⟩ := (not_or.1 hspecial).imp_right not_or.1
    exact unquote_cons hbackslash hquote rest

theorem toList_folded (value : String) : (folded value).toList = value.toList.map foldBreak :=
  String.toList_ofList

theorem toList_quoteValue (value : String) :
    (quoteValue value).toList = value.toList.flatMap quoteChar :=
  String.toList_ofList

/-- A quoted value is read back, up to the quote behind it. -/
theorem unquote_quoteValue (value : String) (rest : List Char) :
    unquote ((quoteValue value).toList ++ '"' :: rest) = some ((folded value).toList, rest) := by
  rw [toList_quoteValue, toList_folded]
  induction value.toList with
  | nil => rfl
  | cons c text ih =>
    rw [List.flatMap_cons, List.append_assoc, unquote_quoteChar, ih]
    rfl

/-- A quoted value has no line break. -/
theorem feed_not_mem_quoteValue (value : String) : '\n' ∉ (quoteValue value).toList := by
  rw [toList_quoteValue, List.mem_flatMap]
  rintro ⟨c, _, hmem⟩
  unfold quoteChar at hmem
  split_ifs at hmem with hspecial hbreak
  · rcases hspecial with rfl | rfl | rfl <;> simp at hmem
  · simp at hmem
  · exact hbreak (.inl (List.mem_singleton.1 hmem).symm)

/-- Line breaks are quoted as the spaces that they become. -/
theorem quoteValue_folded (value : String) : quoteValue (folded value) = quoteValue value := by
  have hchar : ∀ c, quoteChar (foldBreak c) = quoteChar c := by
    intro c
    unfold foldBreak
    split_ifs with hbreak
    · rcases hbreak with rfl | rfl <;> rfl
    · rfl
  rw [quoteValue, toList_folded, List.flatMap_map]
  simp only [hchar]
  rfl

end ContainerBuild.Dockerfile
