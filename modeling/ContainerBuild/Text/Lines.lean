/-!
# Lines

A *line* of a text ends at a line feed, with one carriage return before it
counted to the ending. What follows the last line feed is a line of its own if
it is not empty, and there a carriage return is an ordinary character.
-/

namespace ContainerBuild.Text

section
variable {α : Type} [DecidableEq α] (feed ret : α)

/-- The elements of a line that a line feed ends, read from its reversal. -/
def closeLine : List α → List α
  | [] => []
  | c :: rest => if c = ret then rest.reverse else (c :: rest).reverse

/-- The lines of a sequence, given the elements of the current line read so far
    (latest first), the line feed and the carriage return. -/
def linesFrom (current : List α) : List α → List (List α)
  | [] => if current.isEmpty then [] else [current.reverse]
  | c :: rest =>
    if c = feed then closeLine ret current :: linesFrom [] rest
    else linesFrom (c :: current) rest

end

/-- The lines of a text. -/
def lines (text : List Char) : List (List Char) :=
  linesFrom '\n' '\r' [] text

/-- Drops the longest suffix of characters in the class `p`. -/
def dropEndWhile (p : Char → Bool) (text : List Char) : List Char :=
  (text.reverse.dropWhile p).reverse

/-- The lines of a string. -/
def stringLines (text : String) : List String :=
  (lines text.toList).map String.ofList

/-- The text before the first `mark` and the text after it, if there is one. -/
def splitFirst (mark : Char) : List Char → Option (List Char × List Char)
  | [] => none
  | c :: rest =>
    if c = mark then some ([], rest)
    else (splitFirst mark rest).map fun (before, after) => (c :: before, after)

/-- The pieces of a text between the occurrences of `mark`; one more than there
    are marks. -/
def splitAll (mark : Char) : List Char → List (List Char)
  | [] => [[]]
  | c :: rest =>
    if c = mark then [] :: splitAll mark rest
    else match splitAll mark rest with
      | [] => [[c]]
      | first :: others => (c :: first) :: others

end ContainerBuild.Text
