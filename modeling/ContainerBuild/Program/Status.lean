import ContainerBuild.Build.Run

/-!
# Status lines

What the program tells about its progress, one line for each thing that happens.
-/

namespace ContainerBuild

/-- A status line. -/
inductive Status where
  | heading (text : String)
  | done (text : String)
  | info (text : String)
  | warning (text : String)
  | remark (text : String)
  deriving Repr, DecidableEq

namespace Status

/-- The text of a status line. -/
def render : Status → String
  | heading text => text
  | done text => "  [OK] " ++ text
  | info text => "  [INFO] " ++ text
  | warning text => "  [WARN] " ++ text
  | remark text => "  " ++ text

/-- The line of something that is done, with a detail. -/
def doneWith (text detail : String) : Status :=
  .done (text ++ " (" ++ detail ++ ")")

end Status

/-- What is built in a step. -/
def BuildStep.title (s : BuildStep) : String :=
  match s.output with
  | some directory => s.name ++ " (output to " ++ directory ++ ")"
  | none => s.name

/-- The status line of a report. The values of variables are only shown if that
    is asked for. -/
def Report.status (showValues : Bool) : Report → Status
  | .imagesPulling _ true => .heading "Force pull images"
  | .imagesPulling images false =>
    .heading ("Absent images: " ++ String.intercalate " " images)
  | .varStarted name => .info ("Calculating " ++ name ++ " var")
  | .varComputed name value => if showValues then .doneWith name value else .done name
  | .stepStarted step => .heading ("Building " ++ step.title)
  | .stepFinished step => .done (step.name ++ " built")

end ContainerBuild
