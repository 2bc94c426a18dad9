import ContainerBuild.Error
import ContainerBuild.Text.Utf8

/-!
# Build files on disk

Files are known by their bytes, of which there are none if a file cannot be
read. The text of a file that is not UTF-8 cannot be read either.
-/

namespace ContainerBuild

/-- The text of a file that is used in some way. -/
def FileUse.decode (use : FileUse) (contents : Option (List UInt8)) : Except Error String :=
  match contents.bind Text.Utf8.decode? with
  | some text => .ok (String.ofList text)
  | none => .error (.fileFailed use)

namespace BuildFile

/-- The evaluated text of the build file at a path. -/
def evaluateFile (path : String) (contents : Option (List UInt8)) : Except Error String := do
  let text ← (FileUse.readDefinition path).decode contents
  (evaluate text).mapError (.definitionInvalid path)

/-- The build file in a text that is said to stand at a path. -/
def loadText (path text : String) : Except Error BuildFile :=
  (load text).mapError (.definitionInvalid path)

/-- The build file at a path. -/
def loadFile (path : String) (contents : Option (List UInt8)) : Except Error BuildFile := do
  let text ← evaluateFile path contents
  (parse text).mapError (.definitionInvalid path)

end BuildFile

end ContainerBuild
