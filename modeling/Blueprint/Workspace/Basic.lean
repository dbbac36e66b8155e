import Blueprint.Surface.Basic

/-!
# Workspaces

A workspace is a dashboard for some personas. Its regions each show the records of one entity, or
figures about them.
-/

namespace Blueprint

/-- Who may open a workspace. -/
inductive WorkspaceAccess where
  | everyone
  | authenticated
  | personas (names : List String)
  deriving DecidableEq

inductive DisplayMode where
  | list | grid | timeline | map | detail | summary | metrics | kanban
  deriving DecidableEq

namespace DisplayMode

def all : List DisplayMode := [list, grid, timeline, map, detail, summary, metrics, kanban]

def spelling : DisplayMode → String
  | list => "list"
  | grid => "grid"
  | timeline => "timeline"
  | map => "map"
  | detail => "detail"
  | summary => "summary"
  | metrics => "metrics"
  | kanban => "kanban"

end DisplayMode

/-- A figure that a region shows. -/
structure RegionAggregate where
  name : String
  expr : Computed
  deriving DecidableEq

structure Region where
  name : String
  /-- What the region shows the records of; one that shows figures only may have none. -/
  source : Option String := none
  filter : Option Condition := none
  sort : List SortKey := []
  limit : Option Nat := none
  display : DisplayMode := .list
  /-- The surface that opens when a record is chosen. -/
  action : Option String := none
  emptyMessage : Option String := none
  groupBy : Option String := none
  aggregates : List RegionAggregate := []

structure Workspace where
  location : Location
  name : String
  title : Option String := none
  purpose : Option String := none
  stage : Option String := none
  access : WorkspaceAccess := .authenticated
  regions : List Region := []

/-- The region with the given name. -/
def Workspace.region? (w : Workspace) (name : String) : Option Region :=
  w.regions.find? (·.name == name)

end Blueprint
