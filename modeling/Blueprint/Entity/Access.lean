import Blueprint.Expr.Basic

/-!
# Access rules
-/

namespace Blueprint

inductive AccessOperation where
  | read | list | create | update | delete
  deriving DecidableEq

namespace AccessOperation

def all : List AccessOperation := [read, list, create, update, delete]

def spelling : AccessOperation → String
  | read => "read"
  | list => "list"
  | create => "create"
  | update => "update"
  | delete => "delete"

/-- The operations that a word grants: to write is to create, to update and to delete. -/
def ofKeyword? : Keyword → Option (List AccessOperation)
  | .read => some [read]
  | .list => some [list]
  | .create => some [create]
  | .update => some [update]
  | .delete => some [delete]
  | .write => some [create, update, delete]
  | _ => none

end AccessOperation

inductive PolicyEffect where
  | permit | forbid
  deriving DecidableEq

def PolicyEffect.spelling : PolicyEffect → String
  | permit => "permit"
  | forbid => "forbid"

structure AccessRule where
  operation : AccessOperation
  effect : PolicyEffect
  condition : Condition

structure Access where
  rules : List AccessRule

namespace Access

/-- Every operation is permitted to the given role and to nobody else. -/
def onlyRole (role : String) : Access :=
  ⟨AccessOperation.all.map fun operation => ⟨operation, .permit, .role role⟩⟩

def rulesFor (a : Access) (operation : AccessOperation) : List AccessRule :=
  a.rules.filter (·.operation == operation)

end Access

end Blueprint
