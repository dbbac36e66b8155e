import Blueprint.Field.Basic
import Blueprint.Location

/-!
# Streams

A stream carries events of one or more shapes.
-/

namespace Blueprint

inductive StreamKind where
  | intent | fact | observation | derived
  deriving DecidableEq

namespace StreamKind

def all : List StreamKind := [intent, fact, observation, derived]

def spelling : StreamKind → String
  | intent => "intent"
  | fact => "fact"
  | observation => "observation"
  | derived => "derived"

end StreamKind

/-- The events among which the order is kept. -/
inductive OrderingScope where
  | perPartition | global
  deriving DecidableEq

namespace OrderingScope

def all : List OrderingScope := [perPartition, global]

def spelling : OrderingScope → String
  | perPartition => "per_partition"
  | global => "global"

end OrderingScope

/-- The shape of an event. -/
structure StreamSchema where
  name : String
  fields : List Field
  deriving DecidableEq

structure Stream where
  location : Location
  name : String
  title : Option String := none
  kind : StreamKind := .fact
  partitionKey : Option String := none
  orderingScope : OrderingScope := .perPartition
  retention : Option Duration := none
  schemas : List StreamSchema := []
  derivesFrom : List String := []
  invariants : List String := []
  deriving DecidableEq

/-- The schema with the given name. -/
def Stream.schema? (s : Stream) (name : String) : Option StreamSchema :=
  s.schemas.find? (·.name == name)

end Blueprint
