import ContainerBuild.Text.Blank
import ContainerBuild.Text.Lines

/-!
# Image listings

The builder lists the images that are present, one `repository:tag` in a line. A
reference without a tag means the tag `latest`. The part of a reference before
its last slash may hold a port, so a colon counts only after it, and a digest,
which begins with `@`, takes the place of a tag.
-/

namespace ContainerBuild.Docker

/-- The part of a reference after its last slash. -/
def lastSegment (reference : String) : List Char :=
  (reference.toList.reverse.takeWhile (· ≠ '/')).reverse

/-- Whether a reference has neither tag nor digest. -/
def isUntagged (reference : String) : Bool :=
  !(lastSegment reference).contains ':' && !reference.toList.contains '@'

/-- The tag that a reference without one means. -/
def defaultTag : String := ":latest"

/-- Whether a line lists the image of a reference. -/
def lineLists (reference line : String) : Bool :=
  line == reference || (isUntagged reference && line == reference ++ defaultTag)

/-- Those of some images that a listing has. -/
def presentImages (listing : String) (images : List String) : List String :=
  let lines := (Text.stringLines listing).map Text.trim
  images.filter fun image => lines.any (lineLists image)

end ContainerBuild.Docker
