import Blueprint.Expr.Basic
import Blueprint.Location
import Blueprint.Policy.Basic

/-!
# Views and data products

A view is a table that is derived from an entity. A data product is a collection of entities and
views that is handed on, at some cadence and without some classes of data.
-/

namespace Blueprint

/-- A column of a view, taken over or computed. -/
structure ViewField where
  name : String
  expr : Option Computed := none
  deriving DecidableEq

structure View where
  location : Location
  name : String
  title : Option String := none
  source : String
  filter : Option Condition := none
  groupBy : List String := []
  fields : List ViewField

inductive RefreshCadence where
  | realtime | hourly | daily | weekly
  deriving DecidableEq

namespace RefreshCadence

def all : List RefreshCadence := [realtime, hourly, daily, weekly]

def spelling : RefreshCadence → String
  | realtime => "realtime"
  | hourly => "hourly"
  | daily => "daily"
  | weekly => "weekly"

end RefreshCadence

structure DataProduct where
  location : Location
  name : String
  title : Option String := none
  sources : List String := []
  refresh : RefreshCadence := .daily
  output : Option String := none
  /-- The classes of data that are left out. -/
  classificationFilter : List DataClass := []
  owner : Option String := none
  deriving DecidableEq

end Blueprint
