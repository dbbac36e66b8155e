import Blueprint.Location

/-!
# Personas, scenarios and stories

A persona is a kind of user, a scenario a state of the application in which personas are played, and
a story what one persona does and what comes of it.
-/

namespace Blueprint

inductive Proficiency where
  | novice | intermediate | expert
  deriving DecidableEq

namespace Proficiency

def all : List Proficiency := [novice, intermediate, expert]

def spelling : Proficiency → String
  | novice => "novice"
  | intermediate => "intermediate"
  | expert => "expert"

end Proficiency

structure Persona where
  location : Location
  name : String
  title : Option String := none
  description : Option String := none
  goals : List String := []
  proficiency : Proficiency := .intermediate
  defaultWorkspace : Option String := none
  defaultRoute : Option String := none
  deriving DecidableEq

/-- How one persona enters a scenario. -/
structure ScenarioEntry where
  persona : String
  startRoute : Option String := none
  seedScript : Option String := none
  deriving DecidableEq

structure Scenario where
  location : Location
  name : String
  title : Option String := none
  description : Option String := none
  seedScript : Option String := none
  entries : List ScenarioEntry := []
  deriving DecidableEq

/-- What sets a story going. -/
inductive StoryTrigger where
  | formSubmitted | statusChanged | timer | externalEvent | userClick | cronDaily | cronHourly
  deriving DecidableEq

namespace StoryTrigger

def all : List StoryTrigger :=
  [formSubmitted, statusChanged, timer, externalEvent, userClick, cronDaily, cronHourly]

def spelling : StoryTrigger → String
  | formSubmitted => "form_submitted"
  | statusChanged => "status_changed"
  | timer => "timer"
  | externalEvent => "external_event"
  | userClick => "user_click"
  | cronDaily => "cron_daily"
  | cronHourly => "cron_hourly"

end StoryTrigger

inductive StoryStatus where
  | draft | accepted | rejected
  deriving DecidableEq

namespace StoryStatus

def all : List StoryStatus := [draft, accepted, rejected]

def spelling : StoryStatus → String
  | draft => "draft"
  | accepted => "accepted"
  | rejected => "rejected"

end StoryStatus

/-- What happens instead under some condition. -/
structure UnlessClause where
  condition : String
  outcomes : List String := []
  deriving DecidableEq

structure Story where
  location : Location
  name : String
  title : Option String := none
  actor : String
  trigger : StoryTrigger
  scope : List String := []
  given : List String := []
  «when» : List String := []
  «then» : List String := []
  exceptions : List UnlessClause := []
  status : StoryStatus := .draft
  deriving DecidableEq

end Blueprint
