import ContainerBuild.Json.Meaning
import ContainerBuild.BuildFile.Basic
import ContainerBuild.Text.Quoted

/-!
# Readers of JSON values

A *reader* takes a JSON value to a value of some type, or finds a fault. It
looks at the value from left to right, and the first fault counts. What it has
no use for it does not look at, so a string without meaning or a number that is
too large is only a fault where it is read.

Arrays and objects may be nested up to a limit. A reader gets the number of
levels left, and entering an array or object takes one.

* `text`, `optional`, `sequence`, `entries`: the readers of simple fields;
* `record`: the reader of an object with known fields, which may also be written
  as the array of their values in order;
* `alternatives`: the reader of a value that may take one of several forms. To
  try one form after the other such a value is looked at whole beforehand.
-/

namespace ContainerBuild.BuildFile

open Json (Value RawText Numeral)

/-- What kind of value was found. -/
inductive Shape where
  | null
  | bool (b : Bool)
  | number (n : Numeral)
  | text (s : String)
  | sequence
  | map
  deriving Repr, DecidableEq

/-- How a message calls a number. -/
def numeralText : Numeral → String
  | .integer n => "integer `" ++ toString n ++ "`"
  | .floating negative x =>
    "floating point `" ++ (if negative then "-" else "") ++ x.render ++ "`"

/-- How a message calls a kind of value. -/
def Shape.describe : Shape → String
  | .null => "null"
  | .bool b => "boolean `" ++ (if b then "true" else "false") ++ "`"
  | .number n => numeralText n
  | .text s => "string " ++ Text.quoted s
  | .sequence => "sequence"
  | .map => "map"

/-- Why a value cannot be read. -/
inductive ReadFault where
  | meaningless (fault : Json.TextFault)
  | numberTooLarge
  | nestedTooDeep
  | wrongShape (found : Shape) (expected : String)
  | missingField (name : String)
  | duplicateField (name : String)
  /-- An array of fields that ends before a field that must be there. -/
  | tooFewItems (count : Nat) (expected : String)
  | tooManyItems
  /-- None of the forms of a value fits. -/
  | noAlternative (kind : String)
  deriving Repr, DecidableEq

/-- The text of a fault. -/
def ReadFault.message : ReadFault → String
  | .meaningless fault => fault.message
  | .numberTooLarge => "number out of range"
  | .nestedTooDeep => "recursion limit exceeded"
  | .wrongShape found expected =>
    "invalid type: " ++ found.describe ++ ", expected " ++ expected
  | .missingField name => "missing field `" ++ name ++ "`"
  | .duplicateField name => "duplicate field `" ++ name ++ "`"
  | .tooFewItems count expected =>
    "invalid length " ++ toString count ++ ", expected " ++ expected
  | .tooManyItems => "trailing characters"
  | .noAlternative kind => "data did not match any variant of untagged enum " ++ kind

/-- A reader: given the levels of nesting left, a value or a fault. -/
abbrev Reader (α : Type) := Nat → Value → Except ReadFault α

/-- The text of a string. -/
def decodeText (t : RawText) : Except ReadFault String :=
  match t.decode with
  | .ok s => .ok s
  | .error fault => .error (.meaningless fault)

/-- The number of a numeral. -/
def decodeNumber (n : Json.Number) : Except ReadFault Numeral :=
  match n.meaning with
  | some numeral => .ok numeral
  | none => .error .numberTooLarge

/-- The fault of a value that is not what was expected. Naming it means looking
    at it, which may find another fault. -/
def mismatch {α : Type} (v : Value) (expected : String) : Except ReadFault α := do
  let found ← match v with
    | .null => .ok .null
    | .bool b => .ok (.bool b)
    | .number n => (decodeNumber n).map .number
    | .text t => (decodeText t).map .text
    | .array _ => .ok .sequence
    | .object _ => .ok .map
  .error (.wrongShape found expected)

/-- The levels left inside an array or object. -/
def enter (levels : Nat) : Except ReadFault Nat :=
  if levels ≤ 1 then .error .nestedTooDeep else .ok (levels - 1)

/-- Reads a string. -/
def text : Reader String := fun _ v =>
  match v with
  | .text t => decodeText t
  | other => mismatch other "a string"

/-- Reads `null` as nothing, and anything else with a reader. -/
def optional {α : Type} (r : Reader α) : Reader (Option α) := fun levels v =>
  match v with
  | .null => .ok none
  | other => (r levels other).map some

/-- Reads an array of items. -/
def sequence {α : Type} (r : Reader α) : Reader (List α) := fun levels v =>
  match v with
  | .array items => do
    let inner ← enter levels
    items.mapM (r inner)
  | other => mismatch other "a sequence"

/-- Reads an object as the list of its members, in written order and with
    repeated names. -/
def entries {α : Type} (r : Reader α) : Reader (List (String × α)) := fun levels v =>
  match v with
  | .object members => do
    let inner ← enter levels
    members.mapM fun (name, value) => do
      let name ← decodeText name
      let value ← r inner value
      return (name, value)
  | other => mismatch other "an object"

/-! ### Records -/

/-- A field of a record. -/
structure Field where
  name : String
  /-- Another name of the field. -/
  synonym : Option String := none
  /-- Whether an array of fields may end before this one. -/
  defaulted : Bool := false
  /-- Looks for a fault in a value of the field. -/
  check : Nat → Value → Except ReadFault Unit

/-- A field whose value a reader reads. -/
def Field.of {α : Type} (name : String) (r : Reader α) (synonym : Option String := none)
    (defaulted : Bool := false) : Field :=
  { name, synonym, defaulted, check := fun levels v => (r levels v).map fun _ => () }

/-- The values of the fields of a record that are present, and the levels left
    inside it. -/
structure Row where
  values : List (String × Value)
  levels : Nat

/-- The value of a field that must be present. -/
def Row.required {α : Type} (row : Row) (name : String) (r : Reader α) : Except ReadFault α :=
  match row.values.lookup name with
  | some v => r row.levels v
  | none => .error (.missingField name)

/-- The value of a field, or a default value if it is absent. -/
def Row.defaulted {α : Type} (row : Row) (name : String) (r : Reader α) (default : α) :
    Except ReadFault α :=
  match row.values.lookup name with
  | some v => r row.levels v
  | none => .ok default

/-- The value of a field that may be absent or `null`. -/
def Row.optional {α : Type} (row : Row) (name : String) (r : Reader α) :
    Except ReadFault (Option α) :=
  row.defaulted name (BuildFile.optional r) none

/-- The fields of an object: unknown names are passed over, known ones may occur
    once. -/
def rowOfMembers (fields : List Field) (levels : Nat) (done : List (String × Value)) :
    List (RawText × Value) → Except ReadFault Row
  | [] => .ok ⟨done, levels⟩
  | (name, v) :: rest => do
    let name ← decodeText name
    match fields.find? fun f => f.name == name || f.synonym == some name with
    | none => rowOfMembers fields levels done rest
    | some f =>
      if (done.lookup f.name).isSome then .error (.duplicateField f.name)
      else
        f.check levels v
        rowOfMembers fields levels ((f.name, v) :: done) rest

/-- The fields of an array: the values of all fields in order, of which those
    with a default may be missing at the end. `count` items came before. -/
def rowOfItems (expected : String) (levels : Nat) (done : List (String × Value)) (count : Nat) :
    List Field → List Value → Except ReadFault Row
  | [], [] => .ok ⟨done, levels⟩
  | [], _ :: _ => .error .tooManyItems
  | f :: fields, [] =>
    if f.defaulted then rowOfItems expected levels done (count + 1) fields []
    else .error (.tooFewItems count expected)
  | f :: fields, v :: rest => do
    f.check levels v
    rowOfItems expected levels ((f.name, v) :: done) (count + 1) fields rest

/-- How a message calls the array form of a record. -/
def arrayForm (kind : String) (count : Nat) : String :=
  "struct " ++ kind ++ " with " ++ toString count ++ (if count = 1 then " element" else " elements")

/-- Reads a record, from the object of its fields or from the array of their
    values. -/
def record {α : Type} (kind : String) (fields : List Field)
    (build : Row → Except ReadFault α) : Reader α := fun levels v =>
  match v with
  | .object members => do
    let inner ← enter levels
    build (← rowOfMembers fields inner [] members)
  | .array items => do
    let inner ← enter levels
    -- Surplus items are only met after the record is read.
    build (← rowOfItems (arrayForm kind fields.length) inner [] 0 fields items)
  | other => mismatch other ("struct " ++ kind)

/-! ### Alternatives -/

mutual

/-- Looks at a whole value for a fault that any reader would meet in it. -/
def inspect (levels : Nat) : Value → Except ReadFault Unit
  | .null | .bool _ => .ok ()
  | .number n => (decodeNumber n).map fun _ => ()
  | .text t => (decodeText t).map fun _ => ()
  | .array items => do
    let inner ← enter levels
    inspectItems inner items
  | .object members => do
    let inner ← enter levels
    inspectMembers inner members

/-- Looks at all items of an array. -/
def inspectItems (levels : Nat) : List Value → Except ReadFault Unit
  | [] => .ok ()
  | v :: rest => do
    inspect levels v
    inspectItems levels rest

/-- Looks at all names and values of an object. -/
def inspectMembers (levels : Nat) : List (RawText × Value) → Except ReadFault Unit
  | [] => .ok ()
  | (name, v) :: rest => do
    let _ ← decodeText name
    inspect levels v
    inspectMembers levels rest

end

/-- Reads a value in the first of several forms that fits. Why one does not fit
    is not told. -/
def alternatives {α : Type} (kind : String) (forms : List (Reader α)) : Reader α :=
  fun levels v => do
    inspect levels v
    match forms.findSome? fun r => (r levels v).toOption with
    | some a => .ok a
    | none => .error (.noAlternative kind)

/-- Reads a list of items or a single one. -/
def oneOrMany {α : Type} (r : Reader α) : Reader (OneOrMany α) :=
  alternatives "OneOrMany"
    [fun levels v => (sequence r levels v).map .many,
     fun levels v => (r levels v).map .one]

end ContainerBuild.BuildFile
