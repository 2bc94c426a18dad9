import ContainerBuild.CommandLine.Invocation

/-!
# Help, versions and completions

The texts that a command line can ask for, all of them written from the rules.
-/

namespace ContainerBuild.CommandLine

/-- The version of the program. -/
def versionNumber : String := "0.3.0"

/-- The version as a command shows it. -/
def versionText (path : List String) : String :=
  String.intercalate "-" path ++ " " ++ versionNumber ++ "\n"

/-- The command at the end of a path, or the last one on the way that there is. -/
def Scope.descend : Scope → List String → Scope
  | s, [] => s
  | s, name :: rest =>
    match s.rule.subcommand? name with
    | some child => descend (s.enter child) rest
    | none => s

/-- The line of the help that describes something. -/
def helpLine (what about : String) : String :=
  "  " ++ what ++ "  " ++ about ++ "\n"

/-- How an option is given. -/
def OptionRule.form (rule : OptionRule) : String :=
  let short := match rule.short with
    | some c => "-" ++ String.singleton c ++ ", "
    | none => "    "
  let value := if rule.effect = .takePath then " <PATH>" else ""
  short ++ "--" ++ rule.name ++ value

/-- A part of the help, if it has any lines. -/
def helpPart (title : String) (lines : List String) : String :=
  if lines.isEmpty then "" else "\n" ++ title ++ ":\n" ++ String.join lines

/-- How a command is given. -/
def Scope.usage (s : Scope) : String :=
  let operands := s.rule.operands.map fun o =>
    if o.required then " <" ++ o.name ++ ">" else " [" ++ o.name ++ "]..."
  let command := if s.rule.subcommands.isEmpty then "" else " [COMMAND]"
  "Usage: " ++ String.intercalate " " s.path ++ " [OPTIONS]" ++ String.join operands ++ command

/-- The help on a command. -/
def Scope.helpText (s : Scope) : String :=
  s.rule.about ++ "\n\n" ++ s.usage ++ "\n" ++
    helpPart "Commands" (s.rule.subcommands.map fun c => helpLine c.name c.about) ++
    helpPart "Arguments" (s.rule.operands.map fun o => helpLine o.name o.about) ++
    helpPart "Options" (s.options.map fun o => helpLine o.form o.about)

/-- The help on the command of a path. -/
def helpText (path : List String) : String :=
  ((Scope.root rule).descend (path.drop 1)).helpText

/-- What is shown if the words do not follow the rules. -/
def usageText : String :=
  "error: the arguments do not fit\n\n" ++ (Scope.root rule).usage ++
    "\n\nFor more information, try '--help'.\n"

/-- The completions of the program's commands for a shell. -/
def completionScript (shell : Shell) : String :=
  let names := rule.subcommands.map (·.name) ++ [helpWord]
  let words := String.intercalate " " names
  let quoted := String.intercalate ", " (names.map fun name => "'" ++ name ++ "'")
  match shell with
  | .bash => "complete -W '" ++ words ++ "' " ++ rule.name ++ "\n"
  | .zsh => "compctl -k '(" ++ words ++ ")' " ++ rule.name ++ "\n"
  | .fish => "complete -c " ++ rule.name ++ " -f -n __fish_use_subcommand -a '" ++ words ++ "'\n"
  | .elvish =>
    "set edit:completion:arg-completer[" ++ rule.name ++ "] = \x7b|@words| put " ++ words ++
      " \x7d\n"
  | .powershell =>
    "Register-ArgumentCompleter -Native -CommandName '" ++ rule.name ++ "' -ScriptBlock \x7b " ++
      quoted ++ " \x7d\n"

end ContainerBuild.CommandLine
