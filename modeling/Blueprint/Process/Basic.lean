import Blueprint.Expr.Basic
import Blueprint.Field.Basic
import Blueprint.Llm.Basic

/-!
# Processes and schedules

A process is started by an event and takes steps, some of them several at once. A schedule takes
steps at set times. The steps of both form trees, whose nodes `flatten` lists from the top down.
-/

namespace Blueprint

/-- What can happen to an entity. -/
inductive EntityEvent where
  | created | updated | deleted
  | statusChanged (origin : Option String) (target : String)
  deriving DecidableEq

inductive ProcessTrigger where
  | entity (entity : String) (event : EntityEvent)
  | signal (name : String)
  | manual
  deriving DecidableEq

/-- A way in which a task ends, and the step that follows it. -/
structure TaskOutcome where
  name : String
  next : String
  deriving DecidableEq

/-- A task that a user does on a surface. -/
structure HumanTask where
  surface : String
  assigneeRole : Option String := none
  outcomes : List TaskOutcome := []
  deriving DecidableEq

/-- What a single step does. -/
inductive StepTask where
  | service (service : String)
  | waitFor (signal : String)
  | humanTask (task : HumanTask)
  | subprocess (process : String)
  deriving DecidableEq

/-- When a step is taken and what follows it. -/
structure StepOptions where
  condition : Option Condition := none
  timeout : Option Duration := none
  retry : Option RetryPolicy := none
  onSuccess : Option String := none
  onFailure : Option String := none
  onTimeout : Option String := none

inductive ProcessStep where
  | single (name : String) (task : StepTask) (options : StepOptions)
  /-- Steps that are taken at the same time. -/
  | parallel (name : String) (branches : List ProcessStep) (options : StepOptions := {})

namespace ProcessStep

def name : ProcessStep → String
  | single n _ _ | parallel n _ _ => n

def timeout? : ProcessStep → Option Duration
  | single _ _ o | parallel _ _ o => o.timeout

mutual

/-- The step, followed by all steps inside it. -/
def flatten : ProcessStep → List ProcessStep
  | single n task o => [single n task o]
  | parallel n branches o => parallel n branches o :: flattenAll branches

/-- The steps, each followed by all steps inside it. -/
def flattenAll : List ProcessStep → List ProcessStep
  | [] => []
  | s :: rest => s.flatten ++ flattenAll rest

end

end ProcessStep

/-- The first name in the list that an earlier one equals. -/
def firstRepeated? : List String → List String → Option String
  | _, [] => none
  | seen, n :: rest => if seen.contains n then some n else firstRepeated? (n :: seen) rest

/-- The service that undoes a step. -/
structure Compensation where
  name : String
  service : String
  deriving DecidableEq

/-- What happens when a run is due while another is still going. -/
inductive OverlapPolicy where
  | skip | queue | cancel | allow
  deriving DecidableEq

namespace OverlapPolicy

def all : List OverlapPolicy := [skip, queue, cancel, allow]

def spelling : OverlapPolicy → String
  | skip => "skip"
  | queue => "queue"
  | cancel => "cancel"
  | allow => "allow"

end OverlapPolicy

structure Process where
  location : Location
  name : String
  title : Option String := none
  /-- The stories that the process puts into practice. -/
  stories : List String := []
  trigger : ProcessTrigger := .manual
  inputs : List Field := []
  outputs : List Field := []
  steps : List ProcessStep := []
  compensations : List Compensation := []
  timeout : Option Duration := none
  overlap : OverlapPolicy := .allow

namespace Process

def allSteps (p : Process) : List ProcessStep := ProcessStep.flattenAll p.steps

/-- The step with the given name, at any depth. -/
def step? (p : Process) (name : String) : Option ProcessStep :=
  p.allSteps.find? (·.name == name)

/-- The first step that has the name of an earlier one. -/
def repeatedStep? (p : Process) : Option String := firstRepeated? [] (p.allSteps.map (·.name))

end Process

inductive ScheduleTiming where
  | cron (expression : String)
  | interval (every : Duration)
  deriving DecidableEq

structure Schedule where
  location : Location
  name : String
  title : Option String := none
  timing : ScheduleTiming
  timezone : Option String := none
  catchUp : Bool := false
  overlap : OverlapPolicy := .skip
  steps : List ProcessStep := []

end Blueprint
