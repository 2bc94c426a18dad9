import ContainerBuild.Proofs.BuildFile.Brackets
import ContainerBuild.Proofs.Json.WellFormed

/-!
# Evaluation before reading

The text of a build file is looked at twice: it is evaluated, which only asks whether it is
well-formed (`evaluate_eq`), and then it is read. Evaluation is never the stricter one: what
is read at once is also read after evaluation (`load_eq_ok_iff`). A fault of syntax is told of
all texts that are not well-formed and of no others, whatever their fields are
(`load_eq_syntaxError_iff`).

The same holds of the file at a path, of which a text is needed first (`loadFile_evaluated`).
-/

namespace ContainerBuild.BuildFile

open Json (WellFormed)

variable {text : String} {file : BuildFile}

/-! ### Texts -/

/-- A well-formed text is evaluated to itself, and no other text is evaluated. -/
theorem evaluate_eq :
    evaluate text = if WellFormed text.toList then .ok text else .error .syntaxError := by
  rw [evaluate]
  split
  · next h => rw [if_pos (Json.wellFormed_iff_isSome.2 (Option.isSome_of_eq_some h))]
  · next h =>
    rw [if_neg]
    rw [Json.wellFormed_iff_isSome, h]
    exact Bool.false_ne_true

/-- What is read of a text is read of the value that the text writes. -/
theorem parse_eq_ok_iff :
    parse text = .ok file ↔
      ∃ v : Json.Value, v.Writes text.toList ∧ read nestingLimit v = .ok file := by
  simp only [← Json.parse?_eq_some_iff]
  rw [parse]
  cases Json.parse? text.toList with
  | none => simp
  | some v => cases hread : read nestingLimit v <;> simp [hread]

theorem wellFormed_of_parse (h : parse text = .ok file) : WellFormed text.toList := by
  obtain ⟨v, hv, -⟩ := parse_eq_ok_iff.1 h
  exact hv.wellFormed

theorem load_eq :
    load text = if WellFormed text.toList then parse text else .error .syntaxError := by
  rw [load, evaluate_eq]
  split_ifs <;> rfl

/-- A fault of a well-formed text is one of its fields. -/
theorem parse_ne_syntaxError (h : WellFormed text.toList) : parse text ≠ .error .syntaxError := by
  obtain ⟨v, hv⟩ := Json.wellFormed_iff_exists_writes.1 h
  rw [parse, Json.parse?_of_writes hv]
  dsimp only
  cases read nestingLimit v <;> simp

theorem load_eq_syntaxError_iff : load text = .error .syntaxError ↔ ¬WellFormed text.toList := by
  rw [load_eq]
  split_ifs with h
  · exact iff_of_false (parse_ne_syntaxError h) (not_not_intro h)
  · exact iff_of_true rfl h

/-- Evaluation keeps nothing from being read. -/
theorem load_eq_ok_iff : load text = .ok file ↔ parse text = .ok file := by
  rw [load_eq]
  split_ifs with h
  · rfl
  · exact iff_of_false nofun fun hparse => h (wellFormed_of_parse hparse)

/-! ### Files -/

theorem evaluateFile_encode (path text : String) :
    evaluateFile path (some (Text.Utf8.encode text)) =
      (evaluate text).mapError (.definitionInvalid path) := by
  rw [evaluateFile, FileUse.decode_encode]
  rfl

/-- A file without a text is not read any further. -/
theorem loadFile_eq_of_none {path : String} {contents : Option (List UInt8)}
    (h : contents.bind Text.Utf8.decode? = none) :
    loadFile path contents = .error (.fileFailed (.readDefinition path)) := by
  rw [loadFile, evaluateFile, FileUse.decode, h]
  rfl

theorem loadFile_eq_of_some {path : String} {contents : Option (List UInt8)} {chars : List Char}
    (h : contents.bind Text.Utf8.decode? = some chars) :
    loadFile path contents = loadText path (.ofList chars) := by
  rw [← loadFile_encode, loadFile, loadFile, evaluateFile, evaluateFile, FileUse.decode_encode,
    FileUse.decode, h]

theorem loadText_eq_syntaxError_iff {path : String} :
    loadText path text = .error (.definitionInvalid path .syntaxError) ↔
      ¬WellFormed text.toList := by
  rw [← load_eq_syntaxError_iff, loadText]
  cases load text <;> simp [Except.mapError]

theorem loadText_eq_ok_iff {path : String} :
    loadText path text = .ok file ↔ parse text = .ok file := by
  rw [← load_eq_ok_iff, loadText]
  cases load text <;> simp [Except.mapError]

/-- A text that is read directly is evaluated to itself, so that a file with the text is read
    to the same build file, and no file is read to another one than its text. A fault of syntax
    is found in a file exactly if it has a text, which is not well-formed. If the text is
    well-formed, it writes a value, of which the fields are read. -/
theorem loadFile_evaluated (path text : String) :
    (∀ file, parse text = .ok file →
      evaluate text = .ok text ∧
      evaluateFile path (some (Text.Utf8.encode text)) = .ok text) ∧
    (∀ file, loadFile path (some (Text.Utf8.encode text)) = .ok file ↔ parse text = .ok file) ∧
    (loadFile path (some (Text.Utf8.encode text)) = .error (.definitionInvalid path .syntaxError) ↔
      ¬WellFormed text.toList) ∧
    (∀ contents,
      loadFile path contents = .error (.definitionInvalid path .syntaxError) ↔
        ∃ chars, contents.bind Text.Utf8.decode? = some chars ∧ ¬WellFormed chars) ∧
    (WellFormed text.toList → ∃ v : Json.Value, v.Writes text.toList ∧
      loadFile path (some (Text.Utf8.encode text)) =
        (read nestingLimit v).mapError fun fault => .definitionInvalid path (.fields fault)) := by
  refine ⟨fun file h => ?_, fun file => ?_, ?_, fun contents => ?_, fun h => ?_⟩
  · have hevaluate : evaluate text = .ok text := by
      rw [evaluate_eq, if_pos (wellFormed_of_parse h)]
    refine ⟨hevaluate, ?_⟩
    rw [evaluateFile_encode, hevaluate]
    rfl
  · rw [loadFile_encode, loadText_eq_ok_iff]
  · rw [loadFile_encode, loadText_eq_syntaxError_iff]
  · cases hchars : contents.bind Text.Utf8.decode? with
    | none =>
      rw [loadFile_eq_of_none hchars]
      simp
    | some chars =>
      rw [loadFile_eq_of_some hchars, loadText_eq_syntaxError_iff, String.toList_ofList]
      simp
  · obtain ⟨v, hv⟩ := Json.wellFormed_iff_exists_writes.1 h
    refine ⟨v, hv, ?_⟩
    rw [loadFile_encode, loadText, load_of_writes hv]
    cases read nestingLimit v <;> rfl

end ContainerBuild.BuildFile
