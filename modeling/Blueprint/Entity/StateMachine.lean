import Blueprint.Field.Basic

/-!
# State machines

The transitions of an entity move one of its fields between states. `selectStatusField?` chooses the
field: the first enum that has every state of the transitions, and otherwise a field named `status`.
-/

namespace Blueprint

/-- The spelling of the state that stands for every state. -/
def wildcardState : String := "*"

/-- What a transition asks for. -/
inductive TransitionGuard where
  | requiresField (field : String)
  | role (role : String)
  | expression (expr : Condition) (message : Option String)

/-- A transition that happens by itself. -/
structure AutoTransition where
  after : Duration
  /-- Whether it can also be made by hand, before its time. -/
  orManual : Bool
  deriving DecidableEq

inductive TransitionTrigger where
  | manual | auto
  deriving DecidableEq

def TransitionTrigger.spelling : TransitionTrigger → String
  | manual => "manual"
  | auto => "auto"

structure Transition where
  fromState : String
  toState : String
  trigger : TransitionTrigger := .manual
  guards : List TransitionGuard := []
  auto : Option AutoTransition := none

def Transition.isWildcard (t : Transition) : Bool := t.fromState == wildcardState

/-- The states that a list of transitions names, each once, in the order of their first mention. -/
def transitionStates (transitions : List Transition) : List String :=
  (transitions.flatMap fun t => [t.fromState, t.toState]).foldl (fun states s =>
    if s == wildcardState || states.contains s then states else states ++ [s]) []

/-- Whether the type is an enum with all of the given values, which stand at the field. -/
def FieldType.covers (fieldType : FieldType) (states : List String) : Bool :=
  match fieldType with
  | .enum values => states.all values.contains
  | _ => false

/-- The field that the transitions move. -/
def selectStatusField? (fields : List Field) (transitions : List Transition) : Option String :=
  let states := transitionStates transitions
  match fields.find? (·.fieldType.covers states) with
  | some f => some f.name
  | none => (fields.find? (·.name == "status")).map (·.name)

structure StateMachine where
  statusField : String
  states : List String
  transitions : List Transition

/-- The state machine of a list of fields and transitions. There is none without transitions or
without a field to move. -/
def StateMachine.of? (fields : List Field) (transitions : List Transition) :
    Option StateMachine := do
  if transitions.isEmpty then none
  let statusField ← selectStatusField? fields transitions
  let states := ((fields.find? (·.name == statusField)).bind (·.fieldType.enumValues?)).getD
    (transitionStates transitions)
  some { statusField, states, transitions }

end Blueprint
