import ContainerBuild.Definition.Resolution
import ContainerBuild.Dockerfile.Basic

/-!
# Builders

A *builder* is what images are pulled and stages are built with. It is given by
what it does to a state of its own, one request after the other, so whatever it
answers may depend on everything that happened before.
-/

namespace ContainerBuild

open Dockerfile (Document)

/-- A request for the output of a stage's command. -/
structure ValueRequest where
  /-- The stage of the document. -/
  stage : String
  sshAgent : Option String := none
  secrets : List SecretSource := []
  /-- Whether an output of an earlier time will do. -/
  useCache : Bool := false
  deriving Repr, DecidableEq

/-- A request to build a stage. -/
structure StageRequest where
  /-- The stage of the document. -/
  stage : String
  sshAgent : Option String := none
  secrets : List SecretSource := []
  /-- The directory that receives the stage's file system. -/
  output : Option String := none
  deriving Repr, DecidableEq

/-- A builder with states `σ`. -/
structure Builder (σ : Type) where
  /-- Which of some images are present. -/
  listImages : List String → σ → Except Error (List String) × σ
  pullImage : String → σ → Except Error Unit × σ
  /-- The output of a stage's command. -/
  value : Document → ValueRequest → σ → Except Error String × σ
  build : Document → StageRequest → σ → Except Error Unit × σ
  /-- Removes the dangling part of the build cache, or all of it. -/
  clearCache : (all : Bool) → σ → Except Error Unit × σ

/-- A request that is part of a build. -/
inductive Call where
  | listImages (images : List String)
  | pullImage (image : String)
  | value (document : Document) (request : ValueRequest)
  | build (document : Document) (request : StageRequest)
  deriving Repr, DecidableEq

end ContainerBuild
