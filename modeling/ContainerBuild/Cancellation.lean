/-!
# Cancellation

A *token* says whether something has been cancelled. Tokens can be cloned, and
all clones of a token are cancelled together: a token only knows its family, and
what is cancelled is the family.
-/

namespace ContainerBuild

/-- The tokens made so far, each by its family, and the families with whether
    they have been cancelled. -/
structure Tokens where
  families : List Bool := [false]
  members : List Nat := [0]
  deriving Repr, DecidableEq

/-- Something that happens to tokens, which are counted from zero. -/
inductive TokenEvent where
  /-- A token of a new family. -/
  | fresh
  /-- A token of the family of another one. -/
  | clone (token : Nat)
  | cancel (token : Nat)
  deriving Repr, DecidableEq

namespace Tokens

/-- One token that has not been cancelled. -/
def one : Tokens := {}

/-- Whether a token has been cancelled. -/
def isCancelled (t : Tokens) (token : Nat) : Bool :=
  match t.members[token]? with
  | some family => t.families.getD family false
  | none => false

/-- The tokens after an event. An event of a token that was never made has no
    effect. -/
def after (t : Tokens) : TokenEvent → Tokens
  | .fresh =>
    { families := t.families ++ [false], members := t.members ++ [t.families.length] }
  | .clone token =>
    match t.members[token]? with
    | some family => { t with members := t.members ++ [family] }
    | none => t
  | .cancel token =>
    match t.members[token]? with
    | some family => { t with families := t.families.set family true }
    | none => t

/-- The tokens after a sequence of events. -/
def afterAll (t : Tokens) (events : List TokenEvent) : Tokens :=
  events.foldl after t

end Tokens

end ContainerBuild
