import Blueprint.Expr.Basic
import Blueprint.Location

/-!
# Tests

A test sets up records, runs one operation on them and states what it expects of the outcome.
-/

namespace Blueprint

/-- A named value. -/
structure Assignment where
  key : String
  value : ConditionValue

inductive TestOperation where
  | create | update | delete | get | list | transition
  deriving DecidableEq

namespace TestOperation

def all : List TestOperation := [create, update, delete, get, list, transition]

def spelling : TestOperation → String
  | create => "create"
  | update => "update"
  | delete => "delete"
  | get => "get"
  | list => "list"
  | transition => "transition"

end TestOperation

/-- An operation whose outcome gets a name. -/
structure SetupStep where
  binding : String
  operation : TestOperation
  entity : String
  data : List Assignment := []

structure TestAction where
  operation : TestOperation
  entity : String
  /-- The record of the setup that the operation is for. -/
  target : Option String := none
  deriving DecidableEq

structure Expectation where
  field : String
  op : ComparisonOp
  value : ConditionValue

structure TestCase where
  location : Location
  name : String
  title : Option String := none
  setup : List SetupStep := []
  action : TestAction
  data : List Assignment := []
  expected : List Expectation := []

end Blueprint
