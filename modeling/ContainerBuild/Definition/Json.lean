import ContainerBuild.Definition.Basic
import ContainerBuild.Json.Printer

/-!
# Definitions as JSON

A definition is shown as an indented JSON text, in which vertices refer to each
other by name. A field that a target does not have is left out.
-/

namespace ContainerBuild

open Json (Value)

/-- A cache directory as JSON. -/
def CacheMount.toJson (c : CacheMount) : Value :=
  .record [("id", some (.ofString c.id)), ("path", some (.ofString c.path))]

/-- A secret as JSON. -/
def SecretMount.toJson (s : SecretMount) : Value :=
  .record [("id", some (.ofString s.id)), ("mountPath", some (.ofString s.path))]

/-- An output as JSON. -/
def Output.toJson (o : Output) : Value :=
  .record [("artifact", some (.ofString o.artifact)), ("local", some (.ofString o.directory))]

/-- A request for the SSH agent as JSON. -/
def sshToJson (ssh : Bool) : Option Value :=
  if ssh then some .null else none

/-- A variable's copy as JSON. -/
def VarCopy.toJson (c : VarCopy) : Value :=
  .record
    [("from", c.source.map .ofString),
     ("src", some (.ofString c.src)),
     ("dst", some (.ofString c.dst))]

/-- A variable as JSON. -/
def Var.toJson (v : Var) : Value :=
  .record
    [("name", some (.ofString v.name)),
     ("from", some (.ofString v.base)),
     ("platform", v.platform.map .ofString),
     ("workdir", some (.ofString v.workdir)),
     ("env", some (.ofEntries v.env)),
     ("cache", some (.array (v.caches.map CacheMount.toJson))),
     ("copy", some (.array (v.copies.map VarCopy.toJson))),
     ("secrets", some (.array (v.secrets.map SecretMount.toJson))),
     ("network", v.network.map .ofString),
     ("ssh", sshToJson v.ssh),
     ("command", some (.ofString v.command))]

namespace Definition

/-- The source of a copy as JSON, which tells targets and images apart. -/
def sourceToJson (d : Definition) : CopySource → Value
  | .vertex place => .record [("target", some (.ofString (d.nameAt place)))]
  | .image reference => .record [("image", some (.ofString reference))]

/-- A copy as JSON. -/
def copyToJson (d : Definition) (c : Copy) : Value :=
  .record
    [("from", c.source.map d.sourceToJson),
     ("src", some (.ofString c.src)),
     ("dst", some (.ofString c.dst))]

/-- A stage as JSON. -/
def stageToJson (d : Definition) (s : Stage) : Value :=
  .record
    [("from", some (.ofString s.base)),
     ("platform", s.platform.map .ofString),
     ("workdir", some (.ofString s.workdir)),
     ("env", some (.ofEntries s.env)),
     ("cache", some (.array (s.caches.map CacheMount.toJson))),
     ("network", s.network.map .ofString),
     ("ssh", sshToJson s.ssh),
     ("secrets", some (.array (s.secrets.map SecretMount.toJson))),
     ("command", s.command.map .ofString),
     ("output", s.output.map Output.toJson),
     ("copy", some (.array (s.copies.map d.copyToJson)))]

/-- A vertex as JSON. -/
def vertexToJson (d : Definition) (v : Vertex) : Value :=
  .record
    [("name", some (.ofString v.name)),
     ("from", v.parent.map fun place => .ofString (d.nameAt place)),
     ("dependsOn",
       if v.dependsOn.isEmpty then none else some (.ofStrings (v.dependsOn.map d.nameAt))),
     ("stage", v.stage.map d.stageToJson)]

/-- A definition as JSON. -/
def toJson (d : Definition) : Value :=
  .record
    [("vertexes", some (.array (d.vertices.map d.vertexToJson))),
     ("vars", some (.array (d.vars.map Var.toJson)))]

/-- The text that shows a definition. -/
def render (d : Definition) : String :=
  d.toJson.toIndentedString

end Definition

end ContainerBuild
