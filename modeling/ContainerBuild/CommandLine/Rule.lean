/-!
# Rules of command lines

A command line is described by a tree of commands. Each has options, which begin
with dashes, and operands, which do not; and the options that a command hands
down may be given to all commands below it too. Every command has an option that
shows help and one that shows the version.
-/

namespace ContainerBuild.CommandLine

/-- What an option does. -/
inductive Effect where
  /-- Turns something on. -/
  | turnOn
  /-- Counts how often it is given. -/
  | count
  /-- Takes a path, which must not be empty. -/
  | takePath
  | showHelp
  | showVersion
  deriving Repr, DecidableEq

/-- An option. -/
structure OptionRule where
  /-- The long form, without its dashes. -/
  name : String
  /-- The short form, without its dash. -/
  short : Option Char := none
  effect : Effect
  /-- The variable of the environment that counts if the option is not given. -/
  fallback : Option String := none
  about : String
  deriving Repr, DecidableEq

/-- An operand. -/
structure Operand where
  name : String
  /-- Whether there may be any number of them. -/
  many : Bool := false
  required : Bool := false
  /-- The words that are allowed, if not all are. -/
  choices : Option (List String) := none
  about : String
  deriving Repr, DecidableEq

/-- A command. -/
structure CommandRule where
  name : String
  about : String
  options : List OptionRule := []
  /-- The options that may be given to the commands below as well. -/
  handedDown : List OptionRule := []
  operands : List Operand := []
  /-- Whether one of the commands below must follow. -/
  needsSubcommand : Bool := false
  subcommands : List CommandRule := []
  deriving Repr

namespace CommandRule

/-- A command below. -/
def subcommand? (rule : CommandRule) (name : String) : Option CommandRule :=
  rule.subcommands.find? (·.name == name)

end CommandRule

/-- The options of every command. -/
def standardOptions : List OptionRule :=
  [{ name := "help", short := some 'h', effect := .showHelp, about := "Print help" },
    { name := "version", short := some 'V', effect := .showVersion, about := "Print version" }]

/-- The word that asks for help on the commands after it. -/
def helpWord : String := "help"

/-- A command on the way from the root of a tree. -/
structure Scope where
  rule : CommandRule
  /-- The names on the way, this command's own last. -/
  path : List String
  /-- The options that the commands above hand down. -/
  inherited : List OptionRule := []
  deriving Repr

namespace Scope

/-- The root of a tree of commands. -/
def root (rule : CommandRule) : Scope :=
  { rule, path := [rule.name] }

/-- A command below. -/
def enter (s : Scope) (child : CommandRule) : Scope :=
  { rule := child
    path := s.path ++ [child.name]
    inherited := s.rule.handedDown ++ s.inherited }

/-- The options that a command has. -/
def options (s : Scope) : List OptionRule :=
  s.rule.options ++ s.rule.handedDown ++ s.inherited ++ standardOptions

/-- The option of a long form. -/
def long? (s : Scope) (name : String) : Option OptionRule :=
  s.options.find? (·.name == name)

/-- The option of a short form. -/
def short? (s : Scope) (c : Char) : Option OptionRule :=
  s.options.find? (·.short == some c)

end Scope

end ContainerBuild.CommandLine
