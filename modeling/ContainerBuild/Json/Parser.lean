import ContainerBuild.Json.Lexer

/-!
# Reading JSON

A value is read from its tokens with a stack of the arrays and objects that are
still open (`Frame`), so nesting has no limit. The state says what may come
next; a text is well-formed if its tokens lead to a single value and nothing
follows it.
-/

namespace ContainerBuild.Json

/-- An array or an object that is still open, its contents latest first. -/
inductive Frame where
  | array (items : List Value)
  /-- An object, and the name of the member being read. -/
  | object (members : List (RawText × Value)) (name : RawText)

namespace Parser

/-- What may come next, given the frames around it. -/
inductive State where
  /-- A value. -/
  | value (outer : List Frame)
  /-- A value or the end of an array that is still empty. -/
  | firstItem (outer : List Frame)
  /-- A name or the end of an object that is still empty. -/
  | firstName (outer : List Frame)
  /-- A name. -/
  | name (members : List (RawText × Value)) (outer : List Frame)
  /-- The colon after a name. -/
  | colon (members : List (RawText × Value)) (name : RawText) (outer : List Frame)
  /-- A comma or the end of an array. -/
  | afterItem (items : List Value) (outer : List Frame)
  /-- A comma or the end of an object. -/
  | afterMember (members : List (RawText × Value)) (outer : List Frame)
  /-- Nothing: the value is complete. -/
  | done (v : Value)

/-- What may come after a value that is complete. -/
def place (v : Value) : List Frame → State
  | [] => .done v
  | .array items :: outer => .afterItem (v :: items) outer
  | .object members name :: outer => .afterMember ((name, v) :: members) outer

/-- A token where a value may begin, as the next thing in the frames `outer`. -/
def begin (outer : List Frame) : Token → Option State
  | .null => some (place .null outer)
  | .bool b => some (place (.bool b) outer)
  | .number n => some (place (.number n) outer)
  | .text t => some (place (.text t) outer)
  | .openArray => some (.firstItem outer)
  | .openObject => some (.firstName outer)
  | .closeArray | .closeObject | .comma | .colon => none

/-- What may come after a token; none if the token may not come. -/
def step : State → Token → Option State
  | .value outer, token => begin outer token
  | .firstItem outer, .closeArray => some (place (.array []) outer)
  | .firstItem outer, token => begin (.array [] :: outer) token
  | .firstName outer, .closeObject => some (place (.object []) outer)
  | .firstName outer, .text name => some (.colon [] name outer)
  | .firstName _, _ => none
  | .name members outer, .text name => some (.colon members name outer)
  | .name .., _ => none
  | .colon members name outer, .colon => some (.value (.object members name :: outer))
  | .colon .., _ => none
  | .afterItem items outer, .comma => some (.value (.array items :: outer))
  | .afterItem items outer, .closeArray => some (place (.array items.reverse) outer)
  | .afterItem .., _ => none
  | .afterMember members outer, .comma => some (.name members outer)
  | .afterMember members outer, .closeObject => some (place (.object members.reverse) outer)
  | .afterMember .., _ => none
  | .done _, _ => none

/-- What may come after a list of tokens. -/
def run : State → List Token → Option State
  | state, [] => some state
  | state, token :: rest =>
    match step state token with
    | some next => run next rest
    | none => none

/-- The value that a list of tokens writes. -/
def value? (tokens : List Token) : Option Value :=
  match run (.value []) tokens with
  | some (.done v) => some v
  | _ => none

end Parser

/-- The value that a text writes; none if the text is not well-formed. -/
def parse? (text : List Char) : Option Value :=
  match tokens? text with
  | some tokens => Parser.value? tokens
  | none => none

end ContainerBuild.Json
