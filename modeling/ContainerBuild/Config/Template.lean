import ContainerBuild.Environment
import ContainerBuild.Text.Alphanumeric

/-!
# Templates

A *template* is a text with references to variables of the environment: `$NAME`,
where the name goes on as long as there are alphanumeric characters and
underscores, or the name in braces, and then with a default after `:-` or
without. Two dollar signs stand for one, and a dollar sign before anything else
stands for itself.

What a reference is replaced by, a default too, is not looked at again.
-/

namespace ContainerBuild

/-- A part of a template. -/
inductive TemplatePart where
  | text (characters : List Char)
  /-- A variable, and what stands for it if it is not set. -/
  | reference (name : List Char) (missing : Option (List Char))
  deriving Repr, DecidableEq

namespace TemplatePart

/-- Whether a character may be a part of a name without braces. -/
def isNameCharacter (c : Char) : Bool :=
  Text.isAlphanumeric c || c = '_'

/-- The text before the first `:-` and the text after it, if there is one. -/
def splitDefault : List Char → Option (List Char × List Char)
  | [] => none
  | c :: rest =>
    if c = ':' ∧ rest.head? = some '-' then some ([], rest.drop 1)
    else (splitDefault rest).map fun (name, missing) => (c :: name, missing)

/-- The reference that stands between braces. A default needs a name before it. -/
def ofBraces (inside : List Char) : TemplatePart :=
  match splitDefault inside with
  | some (c :: name, missing) => .reference (c :: name) (some missing)
  | _ => .reference inside none

/-- The part that begins with a dollar sign, and what follows it. -/
def afterDollar : List Char → TemplatePart × List Char
  | '$' :: rest => (.text ['$'], rest)
  | '\x7b' :: rest =>
    match rest.span (· ≠ '\x7d') with
    | (inside, _ :: rest) => (ofBraces inside, rest)
    | (_, []) => (.text ['$', '\x7b'], rest)
  | following =>
    match following.span isNameCharacter with
    | ([], rest) => (.text ['$'], rest)
    | (name, rest) => (.reference name none, rest)

/-- The parts of a template, at most `budget` of them. -/
def parts : (budget : Nat) → List Char → List TemplatePart
  | 0, _ => []
  | _, [] => []
  | budget + 1, c :: rest =>
    if c = '$' then
      let (part, rest) := afterDollar rest
      part :: parts budget rest
    else .text [c] :: parts budget rest

/-- What a part stands for, or the name of a variable that is not set. -/
def expand (e : Environment) : TemplatePart → Except String (List Char)
  | .text characters => .ok characters
  | .reference name missing =>
    match (e.get? (String.ofList name)).map String.toList, missing with
    | some value, _ => .ok value
    | none, some missing => .ok missing
    | none, none => .error (String.ofList name)

end TemplatePart

/-- The text of a template, or the name of the first variable that is not set. -/
def expandTemplate (e : Environment) (template : List Char) : Except String (List Char) := do
  let expanded ← (TemplatePart.parts template.length template).mapM (TemplatePart.expand e)
  return expanded.flatten

end ContainerBuild
