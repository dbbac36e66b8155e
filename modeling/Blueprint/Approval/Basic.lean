import Blueprint.Expr.Basic
import Blueprint.Location

/-!
# Approvals and service levels

An approval asks a role to decide about a record. A service level says how long a record may take
from one condition to another.
-/

namespace Blueprint

/-- What happens when nobody decides in time. -/
inductive TimeoutAction where
  | escalate | autoApprove | autoReject
  deriving DecidableEq

namespace TimeoutAction

def all : List TimeoutAction := [escalate, autoApprove, autoReject]

def spelling : TimeoutAction → String
  | escalate => "escalate"
  | autoApprove => "auto_approve"
  | autoReject => "auto_reject"

end TimeoutAction

/-- The state that a decision leads to. -/
structure ApprovalOutcome where
  decision : String
  targetState : String
  deriving DecidableEq

structure Approval where
  location : Location
  name : String
  title : Option String := none
  entity : String
  trigger : Option Condition := none
  approverRole : String
  /-- The number of approvers who have to agree. -/
  quorum : Nat := 1
  timeout : Option Duration := none
  onTimeout : Option TimeoutAction := none
  escalationRole : Option String := none
  outcomes : List ApprovalOutcome := []

structure SlaTier where
  name : String
  duration : Duration
  deriving DecidableEq

/-- A field and the value it gets. -/
structure FieldAssignment where
  field : String
  value : Literal
  deriving DecidableEq

/-- What is done when a record takes too long. -/
structure BreachAction where
  notify : Option String := none
  assignments : List FieldAssignment := []
  deriving DecidableEq

structure Sla where
  location : Location
  name : String
  title : Option String := none
  entity : String
  startsWhen : Condition
  pausesWhen : Option Condition := none
  completesWhen : Condition
  tiers : List SlaTier
  businessHours : Option String := none
  onBreach : Option BreachAction := none

end Blueprint
