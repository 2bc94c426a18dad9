import ContainerBuild.BuildFile.Source
import ContainerBuild.Config.Basic
import ContainerBuild.Toml.Grammar
import ContainerBuild.Toml.Printer

/-!
# Configurations as TOML

A configuration is written with a `builder` table and one `secrets` table for
each secret. What is read may have other entries as well, which are ignored, and
may leave out all of it but the entries of a secret.

A table of known entries may also be written as the array of their values in
order, with any more items ignored. A date stands for a table without any of the
known entries.
-/

namespace ContainerBuild

open Toml (Value Table)

/-! ### Reading -/

/-- The entries of a value that is read as a table. -/
inductive Config.Fields where
  | named (entries : Table)
  | listed (items : List Value)

namespace Config.Fields

/-- The entries of a value, if it can be read as a table. -/
def ofValue? : Value → Option Fields
  | .table entries => some (.named entries)
  | .array items => some (.listed items)
  | .moment _ => some (.named [])
  | _ => none

/-- The value of an entry, known by its name or by its place. -/
def find? (place : Nat) (name : String) : Fields → Option Value
  | named entries => entries.lookup name
  | listed items => items[place]?

/-- Reads an entry, or takes `missing` if there is none. -/
def read {α : Type} (fields : Fields) (place : Nat) (name : String) (missing : Option α)
    (reader : Value → Option α) : Option α :=
  match fields.find? place name with
  | some v => reader v
  | none => missing

end Config.Fields

/-- Reads a string. -/
def Toml.Value.text? : Value → Option String
  | .text s => some s
  | _ => none

/-- Reads a Boolean. -/
def Toml.Value.bool? : Value → Option Bool
  | .bool b => some b
  | _ => none

/-- Reads the builder's settings. -/
def BuilderSettings.ofToml? (v : Value) : Option BuilderSettings := do
  let fields ← Config.Fields.ofValue? v
  let missing : BuilderSettings := {}
  return {
    executable := ← fields.read 0 "executable" (some missing.executable) Value.text?
    frontend := ← fields.read 1 "syntax_image" (some missing.frontend) Value.text?
    clientConfig :=
      ← fields.read 2 "docker_config" (some missing.clientConfig) fun v => v.text?.map some
    forcePull := ← fields.read 3 "force_pull" (some missing.forcePull) Value.bool? }

/-- Reads a secret. -/
def SecretSource.ofToml? (v : Value) : Option SecretSource := do
  let fields ← Config.Fields.ofValue? v
  return {
    id := ← fields.read 0 "id" none Value.text?
    path := ← fields.read 1 "path" none Value.text? }

/-- Reads an array of secrets. -/
def SecretSource.listOfToml? : Value → Option (List SecretSource)
  | .array items => items.mapM ofToml?
  | _ => none

namespace Config

/-- Reads a configuration. -/
def ofToml? (entries : Table) : Option Config := do
  let fields := Fields.named entries
  return {
    builder := ← fields.read 0 "builder" (some {}) BuilderSettings.ofToml?
    secrets := ← fields.read 1 "secrets" (some []) SecretSource.listOfToml? }

/-- The configuration in a text that is said to stand at a path. -/
def loadText (path text : String) : Except Error Config :=
  match (Toml.parse? text).bind ofToml? with
  | some c => .ok c
  | none => .error (.configInvalid path)

/-- The configuration in a file. -/
def loadFile (path : String) (contents : Option (List UInt8)) : Except Error Config := do
  loadText path (← (FileUse.readConfig path).decode contents)

/-! ### Writing -/

/-- The line of an entry with a string. -/
def textLine (name value : String) : String :=
  Toml.assignmentLine name (Toml.renderString value)

/-- The lines of the builder's settings. -/
def builderLines (b : BuilderSettings) : List String :=
  [Toml.tableLine "builder", textLine "executable" b.executable,
    textLine "syntax_image" b.frontend] ++
    b.clientConfig.toList.map (textLine "docker_config") ++
    [Toml.assignmentLine "force_pull" (Toml.renderBool b.forcePull)]

/-- The lines of a secret, after an empty one. -/
def secretLines (s : SecretSource) : List String :=
  ["\n", Toml.elementLine "secrets", textLine "id" s.id, textLine "path" s.path]

/-- The lines that say that there are no secrets. -/
def noSecretsLines : List String :=
  [Toml.assignmentLine "secrets" "[]", "\n"]

/-- The lines of a configuration. -/
def lines (c : Config) : List String :=
  (if c.secrets.isEmpty then noSecretsLines else []) ++ builderLines c.builder ++
    c.secrets.flatMap secretLines

/-- The text of a configuration. -/
def render (c : Config) : String :=
  String.join c.lines

end Config

end ContainerBuild
