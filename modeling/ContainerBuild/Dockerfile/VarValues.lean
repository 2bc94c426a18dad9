/-!
# Values of variables

The values of variables that have been computed, in the order in which the
variables first got one. A later value of a variable takes the place of the
earlier one.
-/

namespace ContainerBuild

/-- Named values, in order. -/
structure VarValues where
  entries : List (String × String) := []
  deriving Repr, DecidableEq

namespace VarValues

/-- No values. -/
def empty : VarValues := {}

/-- Entries with the value of a name replaced, or with the name put last. -/
def put (name value : String) : List (String × String) → List (String × String)
  | [] => [(name, value)]
  | (n, v) :: rest =>
    if n = name then (n, value) :: rest else (n, v) :: put name value rest

/-- Gives a variable a value. -/
def insert (values : VarValues) (name value : String) : VarValues :=
  ⟨put name value values.entries⟩

/-- The value of a variable. -/
def get? (values : VarValues) (name : String) : Option String :=
  values.entries.lookup name

/-- The number of variables that have a value. -/
def size (values : VarValues) : Nat :=
  values.entries.length

end VarValues

end ContainerBuild
