import ContainerBuild.Toml.Basic

/-!
# Building tables

The statements of a TOML text add to a tree of tables. How a table was made says
what may still be added to it:

* a table with a header is *headed*, and there is no second header for it;
* a header *implies* the tables on the way to its own, which can get a header or
  be added to later;
* a dotted key makes *dotted* tables, to which only dotted keys and headers of
  tables inside them can add.

A header goes through tables of any kind, and through the last element of an
array of tables. A value never changes once it is written.
-/

namespace ContainerBuild.Toml

/-- How a table was made. -/
inductive Origin where
  | headed
  | implied
  | dotted
  deriving Repr, DecidableEq

/-- What a name stands for in a tree. -/
inductive Node where
  | closed (v : Value)
  | table (origin : Origin) (entries : List (String × Node))
  /-- An array of tables, the latest one first. -/
  | tables (elements : List (List (String × Node)))
  deriving Repr, BEq, Inhabited

/-- The entries of a table in a tree. -/
abbrev Entries := List (String × Node)

/-- Edits what a name stands for. The edit gets none if it stands for nothing yet,
    and gives none if it is not allowed. -/
def Entries.alter (edit : Option Node → Option Node) (name : String) :
    Entries → Option Entries
  | [] => (edit none).map fun node => [(name, node)]
  | (n, node) :: rest =>
    if n = name then (edit (some node)).map fun node => (n, node) :: rest
    else (alter edit name rest).map ((n, node) :: ·)

/-- Edits the table at the path of a header, with the tables on the way to it made
    if there are none. -/
def Entries.within (edit : Entries → Option Entries) : (path : List String) → Entries → Option Entries
  | [] => edit
  | name :: path => Entries.alter (fun
      | none => (within edit path []).map (.table .implied)
      | some (.table origin entries) => (within edit path entries).map (.table origin)
      | some (.tables (latest :: earlier)) =>
        (within edit path latest).map fun latest => .tables (latest :: earlier)
      | some _ => none)
    name

/-- Edits the table at the path of a dotted key, with the tables on the way to it
    made if there are none. -/
def Entries.underDotted (edit : Entries → Option Entries) :
    (path : List String) → Entries → Option Entries
  | [] => edit
  | name :: path => Entries.alter (fun
      | none => (underDotted edit path []).map (.table .dotted)
      | some (.table .dotted entries) => (underDotted edit path entries).map (.table .dotted)
      | some (.table .implied entries) =>
        if path.isEmpty then none else (underDotted edit path entries).map (.table .implied)
      | some (.tables (latest :: earlier)) =>
        if path.isEmpty then none
        else (underDotted edit path latest).map fun latest => .tables (latest :: earlier)
      | some _ => none)
    name

/-- A path to a table, and a name in it. -/
def splitPath : List String → Option (List String × String)
  | [] => none
  | [name] => some ([], name)
  | name :: rest => (splitPath rest).map fun (path, last) => (name :: path, last)

/-- Gives a value to a key that has none. -/
def Entries.assign (key : List String) (v : Value) (entries : Entries) : Option Entries := do
  let (path, name) ← splitPath key
  let put : Option Node → Option Node := fun
    | none => some (.closed v)
    | some _ => none
  entries.underDotted (Entries.alter put name) path

/-- Begins the table of a header. -/
def beginTable : Option Node → Option Node
  | none => some (.table .headed [])
  | some (.table .implied entries) => some (.table .headed entries)
  | some _ => none

/-- Begins the next element of an array of tables. -/
def beginElement : Option Node → Option Node
  | none => some (.tables [[]])
  | some (.tables elements) => some (.tables ([] :: elements))
  | some _ => none

/-- Begins what a header announces. -/
def Entries.header (start : Option Node → Option Node) (path : List String)
    (entries : Entries) : Option Entries := do
  let (path, name) ← splitPath path
  entries.within (Entries.alter start name) path

/-- The tree that has been built, and the path of the table being filled. -/
structure Building where
  root : Entries := []
  current : List String := []
  deriving Repr, BEq

/-- Adds a statement. -/
def Building.add (b : Building) : Statement → Option Building
  | .assign key v => do
    return { b with root := ← b.root.within (·.assign key v) b.current }
  | .table path => do return ⟨← b.root.header beginTable path, path⟩
  | .element path => do return ⟨← b.root.header beginElement path, path⟩

mutual

/-- The value of a node. -/
def Node.value : Node → Value
  | .closed v => v
  | .table _ entries => .table (entriesValue entries)
  | .tables elements => .array (elementsValue [] elements)

/-- The values of the entries of a table. -/
def entriesValue : List (String × Node) → Table
  | [] => []
  | (name, node) :: rest => (name, node.value) :: entriesValue rest

/-- The values of the elements of an array of tables, put before those that come
    after them. -/
def elementsValue (later : List Value) : List (List (String × Node)) → List Value
  | [] => later
  | entries :: rest => elementsValue (.table (entriesValue entries) :: later) rest

end

/-- The table that statements build. -/
def tableOf (statements : List Statement) : Option Table :=
  (statements.foldlM Building.add {}).map fun b => entriesValue b.root

/-- The table that assignments to keys build. -/
def inlineTableOf (assignments : List (List String × Value)) : Option Table :=
  (assignments.foldlM (fun (entries : Entries) (key, v) => entries.assign key v) []).map
    entriesValue

end ContainerBuild.Toml
