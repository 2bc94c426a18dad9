import ContainerBuild.Program.Run

/-!
# The command line program

The outer layer of the program: it takes the environment and the files that a run
may look at from the system, and gives back what the run has printed and written.
All that a run decides, it decides in `Program.run`.

It has no way to start other programs, so every command of the builder is
reported as one that cannot be started.
-/

namespace ContainerBuild.Main

/-- The variables in a text in which each ends with a zero byte. -/
def environmentOf (bytes : List UInt8) : Environment :=
  let entries := Text.splitAll '\x00' (Text.Utf8.decodeLossy bytes)
  { entries := entries.filterMap fun entry =>
      (Text.splitFirst '=' entry).map fun (name, value) =>
        (String.ofList name, String.ofList value) }

/-- A host on which no command can be started. -/
def host : Docker.Host Unit where
  launch _ _ := (.notFound, ())
  echo _ _ := ()
  cancelled _ := false

/-- The places on the way to a place, and the place itself. -/
def placesTo (place : List String) : List (List String) :=
  (List.range place.length).map fun n => place.take (n + 1)

/-- The absolute path of a place. -/
def pathOf (place : List String) : String :=
  "/" ++ String.intercalate "/" place

/-- What is at an absolute path. -/
def entryAt (path : String) : IO (Option FileEntry) := do
  let full := (← IO.currentDir) / path
  if ← full.isDir then return some .directory
  try
    return some (.file (← IO.FS.readBinFile full).toList)
  catch _ => return none

/-- A tree with what is at a place and on the way to it. -/
def load (t : FileTree) (place : List String) : IO FileTree :=
  (placesTo place).foldlM
    (fun t place => do
      match ← entryAt (pathOf place) with
      | some entry => return t.put place entry
      | none => return t)
    t

/-- Writes what a tree has more than, or other than, another one. -/
def store (before after : FileTree) : IO Unit :=
  after.entries.reverse.forM fun (place, entry) => do
    if before.entry? place == some entry then return ()
    match entry with
    | .directory => IO.FS.createDirAll (pathOf place)
    | .file contents => IO.FS.writeBinFile (pathOf place) (ByteArray.mk contents.toArray)

/-- The files that a run may look at, from a working directory. -/
def filesFor (working : String) (e : Environment) (words : List String) : IO FileTree := do
  let start : FileTree := { working := (Path.segments working).filter (!·.isEmpty) }
  let places := (Program.pathsOf e words).map fun path =>
    let (place, segments) := start.start path
    segments.foldl FileTree.next place
  (start.working :: places).foldlM load start

end ContainerBuild.Main

open ContainerBuild in
/-- Runs the program on the words of the command line. -/
def main (words : List String) : IO UInt32 := do
  let e := Main.environmentOf (← IO.FS.readBinFile "/proc/self/environ").toList
  let files ← Main.filesFor (← IO.currentDir).toString e words
  let (exit, s) := Program.run Main.host e words { host := (), files }
  Main.store files s.files
  IO.print s.console.stdout
  IO.eprint s.console.stderr
  return exit.toUInt32
