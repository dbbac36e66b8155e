import Blueprint.Duration
import Blueprint.Location

/-!
# Flows

A flow is a script of what a user does, with what has to hold before it starts.
-/

namespace Blueprint

inductive FlowPriority where
  | high | medium | low
  deriving DecidableEq

namespace FlowPriority

def all : List FlowPriority := [high, medium, low]

def spelling : FlowPriority → String
  | high => "high"
  | medium => "medium"
  | low => "low"

end FlowPriority

structure FlowPreconditions where
  userRole : Option String := none
  fixtures : List String := []
  authenticated : Bool := false
  view : Option String := none
  deriving DecidableEq

inductive FlowStep where
  | navigate (target : String)
  | click (target : String)
  | fill (field value : String)
  | wait (duration : Duration)
  | assert (check : String) (args : List String)
  | snapshot
  deriving DecidableEq

structure Flow where
  location : Location
  name : String
  title : Option String := none
  priority : FlowPriority := .medium
  tags : List String := []
  preconditions : FlowPreconditions := {}
  steps : List FlowStep := []
  deriving DecidableEq

end Blueprint
