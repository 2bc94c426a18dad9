import ContainerBuild.Dockerfile.Basic
import ContainerBuild.Proofs.Text.Lines

/-!
# The lines of a document

A document is written as a sequence of texts, each with a line feed behind it: for
every stage a blank line, the line that starts the stage and the instructions of
the stage. So its lines are those of these texts, one after the other
(`Document.lines_eq`).
-/

namespace ContainerBuild.Dockerfile

open Text (written)

/-- The lines of a text, with the one behind its last line feed. -/
def linesOf (text : String) : List (List Char) :=
  text.toList.splitOn '\n'

/-- The text that starts a stage. -/
def Stage.head (s : Stage) : String :=
  "FROM " ++ platformOption s.platform ++ s.base ++ labelPart s.label

/-- The texts that a stage is written as, each with a line feed behind it. -/
def Stage.texts (s : Stage) : List String :=
  "" :: s.head :: s.instructions.map Instruction.render

/-- The text that starts a document. -/
def Document.head (d : Document) : String :=
  "# syntax=" ++ d.frontend

/-- The texts that a document is written as, each with a line feed behind it. -/
def Document.texts (d : Document) : List String :=
  d.head :: d.stages.flatMap Stage.texts

/-- The lines of a document. -/
def Document.lines (d : Document) : List (List Char) :=
  linesOf d.render

theorem toList_join_map {α : Type} (f : α → String) (l : List α) :
    (String.join (l.map f)).toList = l.flatMap fun a => (f a).toList := by
  rw [String.toList_join, List.flatMap_map]

theorem Stage.toList_render (s : Stage) :
    ("\n" ++ s.render).toList = written (s.texts.map String.toList) := by
  have hinstructions : (String.join (s.instructions.map fun i => i.render ++ "\n")).toList =
      written (s.instructions.map fun i => i.render.toList) := by
    rw [toList_join_map, written, List.flatMap_map]
    simp only [String.toList_append]
    rfl
  rw [Stage.texts, List.map_cons, List.map_cons, List.map_map, Text.written_cons,
    Text.written_cons, Stage.render, String.toList_append, String.toList_append,
    String.toList_append, hinstructions, Stage.head, List.append_assoc]
  rfl

theorem Document.toList_render (d : Document) :
    d.render.toList = written (d.texts.map String.toList) := by
  rw [Document.texts, List.map_cons, Text.written_cons, Document.render, String.toList_append,
    String.toList_append, toList_join_map, List.append_assoc, List.map_flatMap, written,
    List.flatMap_assoc]
  simp only [Stage.toList_render]
  rfl

/-- The lines of a document are those of the texts that it is written as. -/
theorem Document.lines_eq (d : Document) : d.lines = d.texts.flatMap linesOf ++ [[]] := by
  rw [Document.lines, linesOf, d.toList_render, Text.splitOn_written, List.flatMap_map]
  rfl

end ContainerBuild.Dockerfile
