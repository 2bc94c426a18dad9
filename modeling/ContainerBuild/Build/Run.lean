import ContainerBuild.Build.Builder
import ContainerBuild.Build.Images
import ContainerBuild.Build.Plan

/-!
# Builds

A build has three phases, one after the other:

1. every image that the target and the variables need is pulled, if it is not
   present or if that is asked for (`pullImages`);
2. the variables are computed in declared order, without the cache
   (`computeVars`);
3. one document with all stages of the target is generated from the values, and
   the steps of the plan are built (`buildSteps`).

The first error ends the build. Before each variable and each step the build
looks whether it has been cancelled.
-/

namespace ContainerBuild

open Dockerfile (Document)

/-- What a build tells about its progress. -/
inductive Report where
  | imagesPulling (images : List String) (forced : Bool)
  | varStarted (name : String)
  | varComputed (name value : String)
  | stepStarted (step : BuildStep)
  | stepFinished (step : BuildStep)
  deriving Repr, DecidableEq

/-- What a build runs with. -/
structure BuildContext (σ : Type) where
  builder : Builder σ
  /-- Whether the build has been cancelled. -/
  cancelled : σ → Bool
  /-- Takes notice of a report. -/
  report : Report → σ → σ
  /-- The image that reads the documents. -/
  frontend : String
  sshAgent : Option String := none
  secrets : List SecretSource := []

/-- How far a build is: the state of the builder, and the calls made. -/
structure Progress (σ : Type) where
  state : σ
  calls : List Call := []

/-- A part of a build. -/
abbrev BuildM (σ : Type) := ExceptT Error (StateM (Progress σ))

namespace BuildM

variable {σ α : Type}

/-- Makes a call. -/
def call (c : Call) (answer : σ → Except Error α × σ) : BuildM σ α :=
  ExceptT.mk fun p =>
    let (result, state) := answer p.state
    (result, { state, calls := p.calls ++ [c] })

/-- Reports progress. -/
def report (ctx : BuildContext σ) (r : Report) : BuildM σ Unit :=
  ExceptT.mk fun p => (.ok (), { p with state := ctx.report r p.state })

/-- Ends a build that has been cancelled. -/
def checkpoint (ctx : BuildContext σ) : BuildM σ Unit :=
  ExceptT.mk fun p => (if ctx.cancelled p.state then .error .cancelled else .ok (), p)

end BuildM

open BuildM

/-- The target of a request: the default one if no name is given, and an
    aggregate if there are several. -/
def Definition.root (d : Definition) (requested : List String) : Except Error Vertex :=
  let place := fun name =>
    match d.find? name with
    | some place => Except.ok place
    | none => .error (.targetNotFound name)
  let vertex := fun name =>
    match d.vertices.find? (·.name == name) with
    | some v => Except.ok v
    | none => .error (.targetNotFound name)
  match requested with
  | [] => vertex defaultTarget
  | [name] => vertex name
  | names => do return .aggregate defaultTarget (← names.mapM place)

section
variable {σ : Type} (ctx : BuildContext σ)

/-- The images that are to be pulled. -/
def imagesToPull (images : List String) (force : Bool) : BuildM σ (List String) :=
  if force then return images
  else do
    let present ← call (.listImages images) (ctx.builder.listImages images)
    return images.filter fun image => !present.contains image

/-- Pulls an image. -/
def pullImage (image : String) : BuildM σ Unit :=
  call (.pullImage image) (ctx.builder.pullImage image)

/-- Pulls the images that are missing, or all of them. -/
def pullImages (images : List String) (force : Bool) : BuildM σ Unit := do
  let toPull ← imagesToPull ctx images force
  if toPull.isEmpty then return ()
  report ctx (.imagesPulling toPull force)
  toPull.forM (pullImage ctx)

/-- Tells for which variable a value could not be computed. A cancelled build
    and an unreadable transcript tell it by themselves. -/
def blameVar (name : String) : Error → Error
  | .cancelled => .cancelled
  | .varUnreadable n fault => .varUnreadable n fault
  | cause => .varFailed name cause

/-- The request for the value of a variable. -/
def valueRequest (v : Var) : ValueRequest :=
  { stage := v.name, sshAgent := ctx.sshAgent, secrets := ctx.secrets, useCache := false }

/-- Asks the builder for the value of a variable. -/
def askValue (v : Var) : BuildM σ String :=
  let document := v.document ctx.frontend
  let request := valueRequest ctx v
  call (.value document request) fun s =>
    let (result, s) := ctx.builder.value document request s
    (result.mapError (blameVar v.name), s)

/-- Computes the value of a variable and adds it to the values before it. -/
def computeVar (values : VarValues) (v : Var) : BuildM σ VarValues := do
  checkpoint ctx
  report ctx (.varStarted v.name)
  let value ← askValue ctx v
  report ctx (.varComputed v.name value)
  return values.insert v.name value

/-- Computes the values of variables. -/
def computeVars (vars : List Var) : BuildM σ VarValues :=
  vars.foldlM (computeVar ctx) .empty

/-- The request to build a step. -/
def stageRequest (step : BuildStep) : StageRequest :=
  { stage := step.stage, sshAgent := ctx.sshAgent, secrets := ctx.secrets, output := step.output }

/-- Builds a step. -/
def buildStep (document : Document) (step : BuildStep) : BuildM σ Unit := do
  checkpoint ctx
  report ctx (.stepStarted step)
  let request := stageRequest ctx step
  call (.build document request) (ctx.builder.build document request)
  report ctx (.stepFinished step)

/-- Builds `root` from the values of the variables. -/
def buildSteps (d : Definition) (root : Vertex) (values : VarValues) : BuildM σ Unit :=
  (d.plan root).forM (buildStep ctx (d.document root values ctx.frontend))

/-- Builds the requested targets of a definition. -/
def Definition.build (d : Definition) (requested : List String) (force : Bool) :
    BuildM σ Unit := do
  let root ← ExceptT.mk (pure (d.root requested))
  pullImages ctx (d.images root ctx.frontend) force
  let values ← computeVars ctx d.vars
  buildSteps ctx d root values

/-- Builds the requested targets from a state on. -/
def Definition.runBuild (d : Definition) (requested : List String) (force : Bool) (s : σ) :
    Except Error Unit × Progress σ :=
  (d.build ctx requested force).run { state := s }

end

end ContainerBuild
