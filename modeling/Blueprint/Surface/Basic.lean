import Blueprint.Expr.Basic
import Blueprint.Location

/-!
# Surfaces

A surface is a screen of the application. Most show the fields of one entity, in sections, and offer
actions that lead on to another place.
-/

namespace Blueprint

inductive SurfaceMode where
  | list | view | create | edit | custom
  deriving DecidableEq

namespace SurfaceMode

def all : List SurfaceMode := [list, view, create, edit, custom]

def spelling : SurfaceMode → String
  | list => "list"
  | view => "view"
  | create => "create"
  | edit => "edit"
  | custom => "custom"

end SurfaceMode

/-- A field as a surface shows it. -/
structure SurfaceElement where
  fieldName : String
  label : Option String := none
  deriving DecidableEq

structure SurfaceSection where
  name : String
  title : Option String := none
  elements : List SurfaceElement := []
  deriving DecidableEq

inductive OutcomeKind where
  | surface | experience | integration
  deriving DecidableEq

namespace OutcomeKind

def all : List OutcomeKind := [surface, experience, integration]

def spelling : OutcomeKind → String
  | surface => "surface"
  | experience => "experience"
  | integration => "integration"

end OutcomeKind

/-- Where an action leads. -/
structure Outcome where
  kind : OutcomeKind
  target : String
  /-- The action to run, for an integration. -/
  action : Option String := none
  deriving DecidableEq

structure SurfaceAction where
  name : String
  label : Option String := none
  /-- The event that starts the action. -/
  trigger : String := "click"
  outcome : Option Outcome := none
  deriving DecidableEq

/-- A field to sort by. -/
structure SortKey where
  field : String
  descending : Bool := false
  deriving DecidableEq

inductive AttentionLevel where
  | critical | warning | notice | info
  deriving DecidableEq

namespace AttentionLevel

def all : List AttentionLevel := [critical, warning, notice, info]

def spelling : AttentionLevel → String
  | critical => "critical"
  | warning => "warning"
  | notice => "notice"
  | info => "info"

end AttentionLevel

/-- A message about the records that meet a condition. -/
structure AttentionSignal where
  level : AttentionLevel
  condition : Condition
  message : String
  action : Option String := none

/-- The records that a persona sees. -/
inductive PersonaScope where
  | all
  | filter (condition : Condition)

/-- How a surface differs for one persona. -/
structure PersonaVariant where
  persona : String
  scope : Option PersonaScope := none
  hide : List String := []
  shown : List String := []
  showAggregate : List String := []
  actionPrimary : Option String := none
  readOnly : Bool := false

/-- How the records of a surface are presented. -/
structure Presentation where
  purpose : Option String := none
  sort : List SortKey := []
  filter : List String := []
  search : List String := []
  emptyMessage : Option String := none
  attentionSignals : List AttentionSignal := []
  personaVariants : List PersonaVariant := []

structure SurfaceAccess where
  requireAuth : Bool := false
  allowPersonas : List String := []
  denyPersonas : List String := []
  deriving DecidableEq

structure Surface where
  location : Location
  name : String
  title : Option String := none
  entity : Option String := none
  mode : SurfaceMode := .custom
  sections : List SurfaceSection := []
  actions : List SurfaceAction := []
  presentation : Option Presentation := none
  access : Option SurfaceAccess := none

/-- The fields that the sections show, in order. -/
def Surface.fieldNames (s : Surface) : List String :=
  s.sections.flatMap fun section_ => section_.elements.map (·.fieldName)

end Blueprint
