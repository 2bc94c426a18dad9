import ContainerBuild.BuildFile.Reader
import ContainerBuild.Json.Parser

/-!
# Loading build files

The text of a build file must be well-formed JSON (`evaluate?`), and is then
read against the fields that build files have (`parse`). The two steps fail in
their own ways: a text that is not well-formed is a fault of *syntax*, whatever
the fields would say.
-/

namespace ContainerBuild.BuildFile

/-! ### The fields -/

/-- Reads a cache directory. -/
def readCache : Reader CacheMount :=
  record "CacheObject" [.of "id" text, .of "path" text] fun row => do
    return { id := ← row.required "id" text, path := ← row.required "path" text }

/-- Reads a secret. -/
def readSecret : Reader SecretMount :=
  record "SecretObject" [.of "id" text, .of "path" text] fun row => do
    return { id := ← row.required "id" text, path := ← row.required "path" text }

/-- Reads an output. -/
def readOutput : Reader Output :=
  record "OutputObject" [.of "artifact" text, .of "local" text] fun row => do
    return {
      artifact := ← row.required "artifact" text
      directory := ← row.required "local" text }

/-- Reads a copy. -/
def readCopy : Reader Copy :=
  record "CopyObject" [.of "from" (optional text), .of "src" text, .of "dst" text] fun row => do
    return {
      source := ← row.optional "from" text
      src := ← row.required "src" text
      dst := ← row.required "dst" text }

/-- Reads a request for the SSH agent, which has no fields. -/
def readSsh : Reader Unit :=
  record "SshObject" [] fun _ => .ok ()

/-- Reads the description of a target. -/
def readTarget : Reader Target :=
  record "TargetObject"
    [.of "from" (optional text),
     .of "dependsOn" (sequence text) none true,
     .of "env" (entries text) none true,
     .of "command" (optional text),
     .of "ssh" (optional readSsh),
     .of "cache" (sequence readCache) none true,
     .of "copy" (oneOrMany readCopy) none true,
     .of "secret" (oneOrMany readSecret) (some "secrets") true,
     .of "platform" (optional text),
     .of "workdir" text none true,
     .of "network" (optional text),
     .of "output" (optional readOutput)]
    fun row => do
      return {
        base := ← row.optional "from" text
        dependsOn := ← row.defaulted "dependsOn" (sequence text) []
        env := ← row.defaulted "env" (entries text) []
        command := ← row.optional "command" text
        ssh := (← row.optional "ssh" readSsh).isSome
        caches := ← row.defaulted "cache" (sequence readCache) []
        copies := ← row.defaulted "copy" (oneOrMany readCopy) (.many [])
        secrets := ← row.defaulted "secret" (oneOrMany readSecret) (.many [])
        platform := ← row.optional "platform" text
        workdir := ← row.defaulted "workdir" text ""
        network := ← row.optional "network" text
        output := ← row.optional "output" readOutput }

/-- Reads what a target name stands for. -/
def readEntry : Reader Entry :=
  alternatives "TargetEntry"
    [fun levels v => (sequence text levels v).map .aggregate,
     fun levels v => (readTarget levels v).map .target]

/-- Reads the description of a variable. -/
def readVar : Reader Var :=
  record "VarObject"
    [.of "from" text,
     .of "platform" (optional text),
     .of "workdir" text none true,
     .of "env" (entries text) none true,
     .of "cache" (sequence readCache) none true,
     .of "copy" (oneOrMany readCopy) none true,
     .of "secrets" (oneOrMany readSecret) (some "secret") true,
     .of "network" (optional text),
     .of "ssh" (optional readSsh),
     .of "command" text]
    fun row => do
      return {
        base := ← row.required "from" text
        platform := ← row.optional "platform" text
        workdir := ← row.defaulted "workdir" text ""
        env := ← row.defaulted "env" (entries text) []
        caches := ← row.defaulted "cache" (sequence readCache) []
        copies := ← row.defaulted "copy" (oneOrMany readCopy) (.many [])
        secrets := ← row.defaulted "secrets" (oneOrMany readSecret) (.many [])
        network := ← row.optional "network" text
        ssh := (← row.optional "ssh" readSsh).isSome
        command := ← row.required "command" text }

/-- Reads a build file. -/
def read : Reader BuildFile :=
  record "FlatConfig"
    [.of "apiVersion" text,
     .of "targets" (entries readEntry) none true,
     .of "vars" (entries readVar) none true]
    fun row => do
      return {
        apiVersion := ← row.required "apiVersion" text
        targets := ← row.defaulted "targets" (entries readEntry) []
        vars := ← row.defaulted "vars" (entries readVar) [] }

/-! ### The text -/

/-- Why a text is no build file. The line and the column at which that was found are left
    out here and in the messages. -/
inductive LoadFault where
  /-- The text is not well-formed. -/
  | syntaxError
  /-- The text does not have the fields of a build file. -/
  | fields (fault : ReadFault)
  deriving Repr, DecidableEq

/-- The text of a fault. -/
def LoadFault.message : LoadFault → String
  | .syntaxError => "the text is not well-formed"
  | .fields fault => fault.message

/-- How deep arrays and objects may be nested where they are read. -/
def nestingLimit : Nat := 128

/-- The text of a build file before it is read: itself, if it is well-formed. -/
def evaluate (text : String) : Except LoadFault String :=
  match Json.parse? text.toList with
  | some _ => .ok text
  | none => .error .syntaxError

/-- The build file that a text describes. -/
def parse (text : String) : Except LoadFault BuildFile :=
  match Json.parse? text.toList with
  | some v =>
    match read nestingLimit v with
    | .ok file => .ok file
    | .error fault => .error (.fields fault)
  | none => .error .syntaxError

/-- The build file in a text that is first evaluated. -/
def load (text : String) : Except LoadFault BuildFile := do
  parse (← evaluate text)

end ContainerBuild.BuildFile
