import ContainerBuild.Proofs.Dockerfile.Lines
import ContainerBuild.Proofs.Dockerfile.Quoting
import ContainerBuild.Proofs.Dockerfile.Stages
import Mathlib.Data.List.Range

/-!
# Values of variables in a document

What a document of a target looks like is known before the values of its variables
are: its *template* has the same lines, but where a variable is set, the text
between the quotes is left open (`TemplateLine`). The template depends on the
names of the variables only.

* `Definition.document_lines_eq`: the lines of a document are those of its
  template, with the quoted values filled in;
* `Definition.filterMap_place?_template`: the template has one open line for every
  variable in every stage of a target;
* `document_lines_of_names_eq`: so two documents that only have other values
  differ between the quotes of these lines and nowhere else.
-/

namespace ContainerBuild

/-- The names of the variables, in order. -/
def VarValues.names (values : VarValues) : List String :=
  values.entries.map (·.1)

namespace Dockerfile

/-- A line of a document before the values are known. -/
inductive TemplateLine where
  | fixed (text : List Char)
  /-- The line that ends with the quoted value of the variable at `place`. -/
  | hole (beginning : List Char) (place : Nat)
  deriving DecidableEq

namespace TemplateLine

/-- The variable whose value a line ends with. -/
def place? : TemplateLine → Option Nat
  | fixed _ => none
  | hole _ place => some place

/-- What is written for the value of the variable at `place`. -/
def quotedAt (values : VarValues) (place : Nat) : List Char :=
  values.entries[place]?.elim [] fun (_, value) => (quoteValue value).toList

/-- A line, given the values. -/
def text (values : VarValues) : TemplateLine → List Char
  | fixed text => text
  | hole beginning place => beginning ++ '"' :: (quotedAt values place ++ ['"'])

end TemplateLine

open TemplateLine

/-- The lines of texts without values of variables. -/
def fixedLines (texts : List String) : List TemplateLine :=
  (texts.flatMap linesOf).map fixed

/-- The lines of what stands before the value when a variable is set. There is
    more than one if the name has line breaks. -/
def namingLines (name : String) : List (List Char) :=
  linesOf ("ENV " ++ name ++ "=")

/-- The lines of the instruction that sets a variable. -/
def variableLines (name : String) (place : Nat) : List TemplateLine :=
  (namingLines name).dropLast.map fixed ++ [hole ((namingLines name).getLastD []) place]

/-- The lines of the instructions that set the variables. -/
def variablesLines (names : List String) : List TemplateLine :=
  names.zipIdx.flatMap fun (name, place) => variableLines name place

end Dockerfile

open Dockerfile TemplateLine

/-- The template of the instructions of a stage. -/
def Definition.instructionLines (d : Definition) (names : List String) (s : Stage) :
    List TemplateLine :=
  fixedLines ((workdirInstructions s.workdir).map (·.render)) ++ variablesLines names ++
    fixedLines ((envInstructions s.env).map (·.render)) ++
    fixedLines (s.copies.map fun c =>
      (Instruction.copy (c.source.map d.sourceName) c.src c.dst).render) ++
    fixedLines (s.command.toList.map fun command => (s.runInstruction command).render)

/-- The template of the stages of a target. -/
def Definition.templateOf (d : Definition) (names : List String) (v : Vertex) :
    List TemplateLine :=
  match v.stage with
  | none => []
  | some s =>
    fixedLines ["", Dockerfile.Stage.head
      { base := s.base, platform := s.platform, label := some v.name }] ++
    d.instructionLines names s ++
    fixedLines (s.output.toList.flatMap fun o => (o.stage v.name).texts)

/-- The template of the document of a target. -/
def Definition.template (d : Definition) (root : Vertex) (names : List String)
    (frontend : String) : List TemplateLine :=
  fixedLines ["# syntax=" ++ frontend] ++ (d.emitted root).flatMap (d.templateOf names) ++
    [fixed []]

namespace Dockerfile

variable {values : VarValues} {name : String} {place : Nat} {texts : List String}

theorem map_text_fixed (ls : List (List Char)) : (ls.map fixed).map (text values) = ls := by
  rw [List.map_map]
  exact List.map_id ls

theorem filterMap_place?_fixed (ls : List (List Char)) :
    (ls.map fixed).filterMap place? = [] := by
  rw [List.filterMap_map]
  exact List.filterMap_eq_nil_iff.2 fun _ _ => rfl

theorem map_text_fixedLines : (fixedLines texts).map (text values) = texts.flatMap linesOf :=
  map_text_fixed _

theorem filterMap_place?_fixedLines : (fixedLines texts).filterMap place? = [] :=
  filterMap_place?_fixed _

theorem hole_not_mem_fixedLines {beginning : List Char} :
    hole beginning place ∉ fixedLines texts := by
  rw [fixedLines, List.mem_map]
  rintro ⟨_, _, heq⟩
  cases heq

theorem feed_not_mem_quoted (value : String) : '\n' ∉ '"' :: ((quoteValue value).toList ++ ['"']) := by
  intro hmem
  rcases List.mem_cons.1 hmem with hquote | hmem
  · exact absurd hquote (by decide)
  · rcases List.mem_append.1 hmem with hvalue | hquote
    · exact feed_not_mem_quoteValue value hvalue
    · exact absurd hquote (by decide)

/-- The instruction that sets a variable, with its value filled in. -/
theorem map_text_variableLines {v : String} (h : values.entries[place]? = some (name, v)) :
    (variableLines name place).map (text values) = linesOf (Instruction.env name v).render := by
  have hrender : (Instruction.env name v).render.toList =
      ("ENV " ++ name ++ "=").toList ++ '"' :: ((quoteValue v).toList ++ ['"']) := by
    simp [Instruction.render]
  -- The quoted value has no line break, so it continues the last line in front of it.
  obtain ⟨before, last, hnaming, hfilled⟩ :=
    Text.splitOn_append_of_notMem (feed_not_mem_quoted v) ("ENV " ++ name ++ "=").toList
  have hquoted : quotedAt values place = (quoteValue v).toList := by rw [quotedAt, h]; rfl
  rw [linesOf, hrender, hfilled, variableLines, namingLines, linesOf, hnaming,
    List.dropLast_concat, List.getLastD_concat, List.map_append, map_text_fixed,
    List.map_singleton, text, hquoted]

/-- The instructions that set the variables, with the values filled in. -/
theorem map_text_variablesLines (values : VarValues) :
    (variablesLines values.names).map (text values) =
      (envInstructions values.entries).flatMap fun i => linesOf i.render := by
  have hentries : values.entries = values.entries.zipIdx.map (·.1) := (List.zipIdx_map_fst _ _).symm
  rw [variablesLines, VarValues.names, List.zipIdx_map, List.flatMap_map, List.map_flatMap,
    envInstructions, List.flatMap_map]
  conv_rhs => rw [hentries, List.flatMap_map]
  refine List.flatMap_congr fun entry hentry => ?_
  exact map_text_variableLines (List.mem_zipIdx_iff_getElem?.1 hentry)

theorem filterMap_place?_variablesLines (names : List String) :
    (variablesLines names).filterMap place? = List.range names.length := by
  have hplace : ∀ name place, (variableLines name place).filterMap place? = [place] := by
    intro name place
    rw [variableLines, List.filterMap_append, filterMap_place?_fixed]
    rfl
  rw [variablesLines, List.filterMap_flatMap]
  simp only [hplace]
  rw [← List.map_eq_flatMap, List.zipIdx_map_snd, List.range_eq_range']

/-- An open line begins as the instruction that sets the variable at its place. -/
theorem naming_of_hole_mem {names : List String} {beginning : List Char}
    (h : hole beginning place ∈ variablesLines names) :
    ∃ name, names[place]? = some name ∧ (namingLines name).getLast? = some beginning := by
  obtain ⟨⟨name, i⟩, hname, hline⟩ := List.mem_flatMap.1 h
  rcases List.mem_append.1 hline with hfixed | hvalue
  · obtain ⟨_, _, heq⟩ := List.mem_map.1 hfixed
    cases heq
  · obtain ⟨rfl, rfl⟩ := TemplateLine.hole.inj (List.mem_singleton.1 hvalue)
    have hne : namingLines name ≠ [] := List.splitOn_ne_nil _ _
    refine ⟨name, List.mem_zipIdx_iff_getElem?.1 hname, ?_⟩
    rw [List.getLastD_eq_getLast?, List.getLast?_eq_some_getLast hne]
    rfl

end Dockerfile

namespace Definition

variable {d : Definition} {root v : Vertex} {names : List String}

theorem map_text_instructionLines (values : VarValues) (s : Stage) :
    (d.instructionLines values.names s).map (text values) =
      (d.instructions values s).flatMap fun i => linesOf i.render := by
  simp only [instructionLines, instructions, List.map_append, List.flatMap_append,
    map_text_fixedLines, map_text_variablesLines, List.flatMap_map]

theorem map_text_templateOf (values : VarValues) (v : Vertex) :
    (d.templateOf values.names v).map (text values) =
      (d.stagesOf values v).flatMap fun stage => stage.texts.flatMap linesOf := by
  rw [templateOf, stagesOf]
  cases v.stage with
  | none => rfl
  | some s =>
    simp only [List.map_append, map_text_fixedLines, map_text_instructionLines,
      List.flatMap_cons, Dockerfile.Stage.texts, List.flatMap_map, List.flatMap_assoc,
      List.append_assoc, List.flatMap_nil, List.nil_append]
    rfl

/-- The lines of a document are those of its template with the values filled in. -/
theorem document_lines_eq (d : Definition) (root : Vertex) (values : VarValues)
    (frontend : String) :
    (d.document root values frontend).lines =
      (d.template root values.names frontend).map (text values) := by
  rw [Document.lines_eq, Document.texts, List.flatMap_cons, document_stages_eq, template,
    List.map_append, List.map_append, map_text_fixedLines, List.map_flatMap, List.flatMap_assoc,
    List.flatMap_assoc]
  simp only [map_text_templateOf]
  rw [List.flatMap_singleton]
  rfl

/-- The open lines of a template: one for every variable in every stage of a
    target. -/
theorem filterMap_place?_template (d : Definition) (root : Vertex) (names : List String)
    (frontend : String) :
    (d.template root names frontend).filterMap place? =
      (d.emitted root).flatMap fun _ => List.range names.length := by
  have hstage : ∀ v ∈ d.emitted root,
      (d.templateOf names v).filterMap place? = List.range names.length := by
    intro v hv
    obtain ⟨s, hs⟩ := Option.isSome_iff_exists.1 (List.mem_filter.1 hv).2
    simp only [templateOf, hs, instructionLines, List.filterMap_append,
      filterMap_place?_fixedLines, filterMap_place?_variablesLines, List.nil_append,
      List.append_nil]
  rw [template, List.filterMap_append, List.filterMap_append, filterMap_place?_fixedLines,
    List.filterMap_flatMap, List.flatMap_congr hstage]
  exact List.append_nil _

theorem naming_of_hole_mem_template {beginning : List Char} {place : Nat} {frontend : String}
    (h : hole beginning place ∈ d.template root names frontend) :
    ∃ name, names[place]? = some name ∧ (namingLines name).getLast? = some beginning := by
  simp only [template, List.mem_append, List.mem_flatMap, hole_not_mem_fixedLines, false_or] at h
  rcases h with ⟨v, _, hv⟩ | hlast
  · rw [templateOf] at hv
    cases hs : v.stage with
    | none => rw [hs] at hv; cases hv
    | some s =>
      simp only [hs, instructionLines, List.mem_append, hole_not_mem_fixedLines, false_or,
        or_false] at hv
      exact naming_of_hole_mem hv
  · cases List.mem_singleton.1 hlast

end Definition

/-- Documents of a target that differ in the values of the variables only have the
    lines of one template, so as many of them, and the same but for what stands
    between the quotes of the lines that set the variables. Every stage of a target
    has one such line for every variable. What is read from its opening quote to the
    first quote without a backslash is the value, with a space for every line break,
    and behind that quote there is nothing. -/
theorem document_lines_of_names_eq {values values' : VarValues} (h : values.names = values'.names)
    (d : Definition) (root : Vertex) (frontend : String) :
    (d.document root values frontend).lines.length =
      (d.document root values' frontend).lines.length ∧
    ∃ template : List TemplateLine,
      (d.document root values frontend).lines = template.map (text values) ∧
      (d.document root values' frontend).lines = template.map (text values') ∧
      template.filterMap place? =
        ((d.emitted root).flatMap fun _ => List.range values.size) ∧
      ∀ beginning place, hole beginning place ∈ template →
        ∃ name v v', values.entries[place]? = some (name, v) ∧
          values'.entries[place]? = some (name, v') ∧
          (linesOf ("ENV " ++ name ++ "=")).getLast? = some beginning ∧
          unquote (quotedAt values place ++ ['"']) = some ((folded v).toList, []) ∧
          unquote (quotedAt values' place ++ ['"']) = some ((folded v').toList, []) := by
  have hlines := Definition.document_lines_eq d root values frontend
  have hlines' := Definition.document_lines_eq d root values' frontend
  rw [← h] at hlines'
  refine ⟨by rw [hlines, hlines', List.length_map, List.length_map],
    _, hlines, hlines', ?_, fun beginning place hmem => ?_⟩
  · rw [Definition.filterMap_place?_template, VarValues.names, List.length_map, VarValues.size]
  · obtain ⟨name, hname, hbeginning⟩ := Definition.naming_of_hole_mem_template hmem
    have hname' := h ▸ hname
    rw [VarValues.names, List.getElem?_map] at hname hname'
    obtain ⟨⟨_, v⟩, hv, rfl⟩ := Option.map_eq_some_iff.1 hname
    obtain ⟨⟨_, v'⟩, hv', rfl⟩ := Option.map_eq_some_iff.1 hname'
    refine ⟨_, v, v', hv, hv', hbeginning, ?_, ?_⟩
    · rw [quotedAt, hv]
      exact unquote_quoteValue v []
    · rw [quotedAt, hv']
      exact unquote_quoteValue v' []

theorem document_lines_of_names_eq_layered :
    let values : VarValues := ⟨[("V", "1"), ("W", "\\")]⟩
    let values' : VarValues := ⟨[("V", "\"\nFROM $x"), ("W", "")]⟩
    values.names = values'.names ∧ ∃ d root,
      layered.resolve [] = .ok d ∧ d.IsRoot root ∧
      d.document root values "frontend" ≠ d.document root values' "frontend" ∧
      (d.document root values "frontend").lines.length =
        (d.document root values' "frontend").lines.length := by
  let d := Resolution.resolved layered []
  have hroot : d.IsRoot (.aggregate "all" [0, 1]) := .aggregate (by decide)
  refine ⟨by decide, d, _, by rfl, hroot, by decide, ?_⟩
  exact (document_lines_of_names_eq (by decide) d _ "frontend").1

end ContainerBuild
