import Blueprint.Location

/-!
# Experiences

An experience leads a user through steps. Each step shows a surface, runs a process or calls an
integration, and events lead from it to the next.
-/

namespace Blueprint

inductive StepKind where
  | surface | process | integration
  deriving DecidableEq

namespace StepKind

def all : List StepKind := [surface, process, integration]

def spelling : StepKind → String
  | surface => "surface"
  | process => "process"
  | integration => "integration"

end StepKind

structure StepTransition where
  event : String
  nextStep : String
  deriving DecidableEq

structure ExperienceStep where
  name : String
  kind : StepKind := .surface
  surface : Option String := none
  process : Option String := none
  integration : Option String := none
  action : Option String := none
  transitions : List StepTransition := []
  deriving DecidableEq

structure Experience where
  location : Location
  name : String
  title : Option String := none
  startStep : String
  steps : List ExperienceStep := []
  deriving DecidableEq

end Blueprint
