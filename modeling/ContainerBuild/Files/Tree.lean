import ContainerBuild.Files.Path

/-!
# File trees

The files and directories that a program sees. Each has a *place*: the names on
the way to it from the root. A path is followed segment by segment, from the root
or from the working directory, and every segment must be taken from a directory.
-/

namespace ContainerBuild

/-- A file or a directory. -/
inductive FileEntry where
  | file (contents : List UInt8)
  | directory
  deriving Repr, DecidableEq

/-- Files and directories by their places, without the root. -/
structure FileTree where
  entries : List (List String × FileEntry) := []
  /-- The place of the working directory. -/
  working : List String := []
  deriving Repr, DecidableEq

namespace FileTree

/-- What is at a place. -/
def entry? (t : FileTree) (place : List String) : Option FileEntry :=
  if place.isEmpty then some .directory else t.entries.lookup place

/-- Whether there is a directory at a place. -/
def isDirectory (t : FileTree) (place : List String) : Bool :=
  t.entry? place == some .directory

/-- Puts something at a place. -/
def put (t : FileTree) (place : List String) (e : FileEntry) : FileTree :=
  { t with entries := (place, e) :: t.entries.filter (·.1 != place) }

/-- Where a path begins, and its segments from there. -/
def start (t : FileTree) (path : String) : List String × List String :=
  if Path.isAbsolute path then ([], (Path.segments path).drop 1)
  else (t.working, Path.segments path)

/-- The place that a segment leads to from a directory, whether or not there is
    anything. -/
def next (place : List String) (segment : String) : List String :=
  if segment.isEmpty || segment == "." then place
  else if segment == ".." then place.dropLast
  else place ++ [segment]

/-- Follows a segment to something that exists. -/
def follow (t : FileTree) (place : List String) (segment : String) : Option (List String) :=
  let target := next place segment
  if t.isDirectory place && (t.entry? target).isSome then some target else none

/-- The place of what a path leads to, if there is anything. -/
def locate? (t : FileTree) (path : String) : Option (List String) :=
  let (place, segments) := t.start path
  segments.foldlM t.follow place

/-- Whether a path leads to anything. -/
def hasPath (t : FileTree) (path : String) : Bool :=
  (t.locate? path).isSome

/-- The contents of the file that a path leads to. -/
def read? (t : FileTree) (path : String) : Option (List UInt8) := do
  match ← t.entry? (← t.locate? path) with
  | .file contents => some contents
  | .directory => none

/-- Makes a directory at a place, if there is nothing. -/
def makeDirectory (t : FileTree) (place : List String) : FileTree :=
  if (t.entry? place).isSome then t else t.put place .directory

/-- Makes the directories that segments lead to from a place, one after the other,
    up to the first segment that is not taken from a directory. Also tells whether
    all of them are directories now. -/
def makeFrom (t : FileTree) (place : List String) : List String → FileTree × Bool
  | [] => (t, t.isDirectory place)
  | segment :: rest =>
    if t.isDirectory place then
      let target := next place segment
      makeFrom (t.makeDirectory target) target rest
    else (t, false)

/-- Makes the directories on the way to a path and at its end, and tells whether
    there are all of them now. The empty path needs none. -/
def makeDirectories (t : FileTree) (path : String) : FileTree × Bool :=
  if path.isEmpty then (t, true)
  else
    let (place, segments) := t.start path
    t.makeFrom place segments

/-- Writes the file that a path leads to, as a whole or not at all. The directory
    that it lies in must exist, and its name must be written at the end of the path. -/
def write? (t : FileTree) (path : String) (contents : List UInt8) : Option FileTree := do
  let (place, segments) := t.start path
  let directory ← segments.dropLast.foldlM t.follow place
  let name ← segments.getLast?
  let target := next directory name
  if ["", ".", ".."].contains name || !t.isDirectory directory || t.isDirectory target then none
  else some (t.put target (.file contents))

end FileTree

end ContainerBuild
