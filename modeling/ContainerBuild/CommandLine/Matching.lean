import ContainerBuild.CommandLine.Rule
import ContainerBuild.Environment
import ContainerBuild.Text.Lines

/-!
# Matching command lines

Words are matched from left to right, and each command on the way gives a
*level*: what was given to it. A word is

* the name of a command below, unless an option waits for its value or the word
  before was one of any number of operands;
* `--`, after which every word is an operand;
* a long option, with its value after `=` or as the next word;
* a group of short ones, of which the last one may have its value attached;
* or else the value that an option waits for, or an operand.

What a word gives only counts once the next one is something else: only then a
value is looked at, and a repetition noticed. So of a wrong value and a request
for help the one that comes to count first wins, and what is given right before
the name of a command counts after everything given to that command.
-/

namespace ContainerBuild.CommandLine

/-- Why matching stops. -/
inductive Stop where
  /-- The words do not follow the rules. -/
  | usage
  /-- Help on the command of a path is asked for. -/
  | help (path : List String)
  /-- The version is asked for. -/
  | version (path : List String)
  deriving Repr, DecidableEq

/-- Where something was given. The words of the command line come before the
    environment. -/
inductive Source where
  | environment
  | words
  deriving Repr, DecidableEq

/-- What was given to an option or operand. -/
structure Given where
  source : Source
  values : List String
  deriving Repr, DecidableEq

/-- What was given to a command, by names of options and operands. -/
structure Level where
  name : String
  given : List (String × Given)
  deriving Repr, DecidableEq

/-- What the last words gave, which does not count yet. -/
inductive Pending where
  | nothing
  /-- An option and its value, once there is one. -/
  | option (rule : OptionRule) (value : Option String)
  | operand (rule : Operand) (values : List String)
  deriving Repr, DecidableEq

/-- How far the words of a command have been matched. -/
structure Matching where
  given : List (String × List String) := []
  pending : Pending := .nothing
  /-- The place of the next operand. -/
  place : Nat := 0
  deriving Repr, DecidableEq

namespace Matching

/-- Whether the next word may be the name of a command. -/
def isOpen (m : Matching) : Bool :=
  match m.pending with
  | .option _ none => false
  | .operand rule _ => !rule.many
  | _ => true

/-- Adds the values of something that may be given repeatedly. -/
def add (m : Matching) (name : String) (values : List String) : Matching :=
  let earlier := (m.given.lookup name).getD []
  { m with given := m.given.filter (·.1 != name) ++ [(name, earlier ++ values)] }

/-- Adds the value of something that must not be given repeatedly. -/
def addOnce (m : Matching) (name value : String) : Except Stop Matching :=
  if (m.given.lookup name).isSome then .error .usage else .ok (m.add name [value])

/-- Adds the value of an option that takes a path. -/
def addPath (m : Matching) (rule : OptionRule) (value : String) : Except Stop Matching :=
  if value.isEmpty then .error .usage else m.addOnce rule.name value

/-- Whether an operand allows a word. -/
def allows (rule : Operand) (word : String) : Bool :=
  match rule.choices with
  | some choices => choices.contains word
  | none => true

/-- Has what is pending count. -/
def settle (m : Matching) : Except Stop Matching :=
  let settled := { m with pending := .nothing }
  match m.pending with
  | .nothing => .ok settled
  | .option _ none => .error .usage
  | .option rule (some value) => settled.addPath rule value
  | .operand rule values =>
    if values.all (allows rule) then .ok (settled.add rule.name values) else .error .usage

/-- The value of an option that has been turned on. -/
def onValue : String := "true"

/-- Matches an option, with the value attached to it, if there is one. -/
def option (s : Scope) (m : Matching) (rule : OptionRule) (attached : Option String) :
    Except Stop Matching := do
  let m ← m.settle
  match rule.effect, attached with
  | .takePath, some value => m.addPath rule value
  | .takePath, none => return { m with pending := .option rule none }
  | .turnOn, none => m.addOnce rule.name onValue
  | .count, none => return m.add rule.name [""]
  | .showHelp, none => throw (.help s.path)
  | .showVersion, none => throw (.version s.path)
  | _, some _ => throw .usage

/-- Matches a group of short options. -/
def shorts (s : Scope) : Matching → List Char → Except Stop Matching
  | m, [] => .ok m
  | m, c :: rest =>
    match s.short? c with
    | none => .error .usage
    | some rule =>
      if rule.effect = .takePath then
        match rest with
        | [] => m.option s rule none
        | '=' :: value => m.option s rule (some (String.ofList value))
        | value => m.option s rule (some (String.ofList value))
      else do shorts s (← m.option s rule none) rest

/-- Matches a long option, given without its dashes. -/
def long (s : Scope) (m : Matching) (text : List Char) : Except Stop Matching :=
  let (name, attached) := match Text.splitFirst '=' text with
    | some (name, value) => (name, some (String.ofList value))
    | none => (text, none)
  match s.long? (String.ofList name) with
  | some rule => m.option s rule attached
  | none => .error .usage

/-- Matches an operand. -/
def operand (s : Scope) (m : Matching) (word : String) : Except Stop Matching :=
  match s.rule.operands[m.place]? with
  | none => .error .usage
  | some rule => do
    let place := if rule.many then m.place else m.place + 1
    match rule.many, m.pending with
    | true, .operand rule values =>
      return { m with pending := .operand rule (values ++ [word]), place }
    | _, _ => return { ← m.settle with pending := .operand rule [word], place }

/-- Matches a word that is no name of a command. -/
def word (s : Scope) (m : Matching) (w : String) : Except Stop Matching :=
  match w.toList with
  | '-' :: '-' :: text => m.long s text
  | '-' :: c :: text => m.shorts s (c :: text)
  | _ =>
    match m.pending with
    | .option rule none => .ok { m with pending := .option rule (some w) }
    | _ => m.operand s w

/-- What the environment gives to an option that was not given. -/
def fromEnvironment (e : Environment) (m : Matching) (rule : OptionRule) :
    Except Stop (List (String × Given)) :=
  match m.given.lookup rule.name, rule.fallback.bind e.get? with
  | none, some value =>
    let right := match rule.effect with
      | .turnOn => ["true", "false"].contains value
      | .takePath => !value.isEmpty
      | _ => true
    if right then .ok [(rule.name, ⟨.environment, [value]⟩)] else .error .usage
  | _, _ => .ok []

/-- Ends the words of a command. -/
def finish (e : Environment) (s : Scope) (entered : Bool) (m : Matching) :
    Except Stop Level := do
  let m ← m.settle
  let added ← s.options.mapM (m.fromEnvironment e)
  let missing := s.rule.operands.any fun o => o.required && (m.given.lookup o.name).isNone
  if missing || (s.rule.needsSubcommand && !entered) then throw .usage
  let words := m.given.map fun (name, values) => (name, Given.mk .words values)
  return { name := s.rule.name, given := words ++ added.flatten }

end Matching

/-- The end of a request for help on the command that words name. The request
    itself is the name of a command without commands below. -/
def helpOn : Scope → List String → Stop
  | s, [] => .help s.path
  | s, w :: rest =>
    match s.rule.subcommand? w with
    | some child => helpOn (s.enter child) rest
    | none =>
      if w = helpWord ∧ !s.rule.subcommands.isEmpty ∧ rest.isEmpty then .help (s.path ++ [w])
      else .usage

/-- Matches the words of a command and of the commands below; `operandsOnly` is
    set after the word `--`. -/
def matchWords (e : Environment) :
    Scope → (operandsOnly : Bool) → Matching → List String → Except Stop (List Level)
  | s, _, m, [] => do return [← m.finish e s false]
  | s, true, m, w :: rest => do matchWords e s true (← m.operand s w) rest
  | s, false, m, w :: rest =>
    match if m.isOpen then s.rule.subcommand? w else none with
    | some child => do
      let deeper ← matchWords e (s.enter child) false {} rest
      return (← m.finish e s true) :: deeper
    | none =>
      if m.isOpen && w == helpWord && !s.rule.subcommands.isEmpty then .error (helpOn s rest)
      else if w = "--" then matchWords e s true m rest
      else do matchWords e s false (← m.word s w) rest

/-- What counts of two things given to an option, the second one to a command
    further below. -/
def Given.over (above below : Given) : Given :=
  if above.source = .words ∧ below.source = .environment then above else below

/-- What counts of all that was given to an option or operand. -/
def given? (levels : List Level) (name : String) : Option Given :=
  (levels.filterMap fun level => level.given.lookup name).foldl
    (fun above? below => some ((above?.map fun above => above.over below).getD below)) none

/-- The values of an option or operand. -/
def values (levels : List Level) (name : String) : List String :=
  ((given? levels name).map (·.values)).getD []

/-- Whether an option has been turned on. -/
def isOn (levels : List Level) (name : String) : Bool :=
  values levels name == [Matching.onValue]

end ContainerBuild.CommandLine
