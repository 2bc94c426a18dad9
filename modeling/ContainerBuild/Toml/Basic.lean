import ContainerBuild.Number.Binary64

/-!
# TOML values

A TOML text is read into a table of values, and a table into a list of entries
with distinct names. Dates and times are kept as they are written, once they
have been found to be right.
-/

namespace ContainerBuild.Toml

/-- The magnitude of a floating point number. -/
inductive Magnitude where
  | finite (x : Binary64)
  | infinite
  | notNumber
  deriving Repr, DecidableEq

/-- A TOML value. -/
inductive Value where
  | text (s : String)
  | integer (n : Int)
  | float (negative : Bool) (magnitude : Magnitude)
  | bool (b : Bool)
  /-- A date, a time, or both. -/
  | moment (written : String)
  | array (items : List Value)
  | table (entries : List (String × Value))
  deriving Repr, BEq, Inhabited

/-- The entries of a table. -/
abbrev Table := List (String × Value)

/-- One statement of a TOML text. -/
inductive Statement where
  /-- Gives a value to a key, which is dotted if it has several parts. -/
  | assign (key : List String) (value : Value)
  /-- Begins a table. -/
  | table (path : List String)
  /-- Begins the next element of an array of tables. -/
  | element (path : List String)
  deriving Repr, BEq

end ContainerBuild.Toml
