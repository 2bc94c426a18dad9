import ContainerBuild.Text.Lines

/-!
# Paths

A path is a text whose *segments* stand between slashes. Empty segments, and
segments of one dot apart from a first one, stand for no step of their own; what
remains are the *components* of the path.
-/

namespace ContainerBuild.Path

/-- What separates segments. -/
def slash : Char := '/'

/-- Whether a path begins at the root. -/
def isAbsolute (path : String) : Bool :=
  path.toList.head? == some slash

/-- The segments of a path; the first one of an absolute path is empty. -/
def segments (path : String) : List String :=
  (Text.splitAll slash path.toList).map String.ofList

/-- Where the components of a path end, from its segments that begin at a
    position. A dot is a component only at the beginning of a relative path. -/
def componentEnds (dotCounts : Bool) (position : Nat) : List (List Char) → List Nat
  | [] => []
  | segment :: rest =>
    let stop := position + segment.length
    let further := componentEnds false (stop + 1) rest
    if segment.isEmpty || (segment == ['.'] && !dotCounts) then further else stop :: further

/-- The path of the directory that a path lies in, up to its last component but
    one. -/
def parent? (path : String) : Option String :=
  let characters := path.toList
  let absolute := isAbsolute path
  match (componentEnds (!absolute) 0 (Text.splitAll slash characters)).reverse with
  | [] => none
  | [_] => some (if absolute then String.singleton slash else "")
  | _ :: stop :: _ => some (String.ofList (characters.take stop))

/-- A path inside a directory. -/
def join (directory path : String) : String :=
  if isAbsolute path || directory.isEmpty then path
  else if directory.toList.getLast? == some slash then directory ++ path
  else directory ++ "/" ++ path

end ContainerBuild.Path
