import Blueprint.Duration
import Blueprint.Keyword

/-!
# Expressions

Three small languages over the fields of an entity: conditions, which filter and guard, computed
expressions, which derive a value, and invariants, which must hold. None of them can call anything
but the aggregates listed in `Aggregate`.
-/

namespace Blueprint

/-- A dotted reference to a field, such as `owner.team.name`. -/
structure FieldPath where
  segments : List String
  deriving DecidableEq

namespace FieldPath

/-- The first segment: the field of the entity itself. -/
def root (p : FieldPath) : String := p.segments.head?.getD ""

/-- Whether the path stays on the entity itself. -/
def isSimple (p : FieldPath) : Bool := p.segments.length == 1

def render (p : FieldPath) : String := ".".intercalate p.segments

instance : Encode FieldPath where
  encode p := .obj (Json.field "segments" p.segments)

end FieldPath

/-- A constant. -/
inductive Literal where
  | string (s : String)
  /-- Between `-2 ^ 63` and `2 ^ 63 - 1`. -/
  | integer (n : Int)
  /-- A number with a decimal point, kept as it was spelled. -/
  | decimal (text : String)
  | boolean (b : Bool)
  | null
  deriving DecidableEq

namespace Literal

def render : Literal → String
  | string s => "\"" ++ s ++ "\""
  | integer n => toString n
  | decimal text => text
  | boolean true => "true"
  | boolean false => "false"
  | null => "null"

instance : Encode Literal where
  encode
    | string s => .tagged "kind" "str" (Json.field "value" s)
    | integer n => .tagged "kind" "int" (Json.field "value" n)
    | decimal text => .tagged "kind" "decimal" (Json.field "value" text)
    | boolean b => .tagged "kind" "bool" (Json.field "value" b)
    | null => .tagged "kind" "null" []

end Literal

inductive ComparisonOp where
  | eq | notEq | gt | lt | ge | le | within | notWithin | is | isNot
  deriving DecidableEq

namespace ComparisonOp

/-- How the operator is written. -/
def symbol : ComparisonOp → String
  | eq => "="
  | notEq => "!="
  | gt => ">"
  | lt => "<"
  | ge => ">="
  | le => "<="
  | within => "in"
  | notWithin => "not in"
  | is => "is"
  | isNot => "is not"

def spelling : ComparisonOp → String
  | eq => "eq"
  | notEq => "not_eq"
  | gt => "gt"
  | lt => "lt"
  | ge => "ge"
  | le => "le"
  | within => "in"
  | notWithin => "not_in"
  | is => "is"
  | isNot => "is_not"

instance : Encode ComparisonOp := ⟨fun o => .str o.spelling⟩

end ComparisonOp

inductive Connective where
  | and | or
  deriving DecidableEq

namespace Connective

def spelling : Connective → String
  | and => "and"
  | or => "or"

instance : Encode Connective := ⟨fun c => .str c.spelling⟩

end Connective

/-! ## Conditions -/

/-- The right side of a comparison in a condition. -/
inductive ConditionValue where
  | literal (value : Literal)
  /-- A bare word: an enum value, or a reference such as `current_user`. -/
  | identifier (name : String)
  | path (path : FieldPath)
  | list (items : List ConditionValue)
  | date (date : DateExpr)

inductive Condition where
  | comparison (field : FieldPath) (op : ComparisonOp) (value : ConditionValue)
  | role (role : String)
  | logical (op : Connective) (left right : Condition)

namespace Condition

/-- The fields on the left sides, from left to right. -/
def fieldPaths : Condition → List FieldPath
  | comparison field _ _ => [field]
  | role _ => []
  | logical _ left right => left.fieldPaths ++ right.fieldPaths

/-- The roles that are asked for, from left to right. -/
def roles : Condition → List String
  | comparison _ _ _ => []
  | role r => [r]
  | logical _ left right => left.roles ++ right.roles

end Condition

/-! ## Computed expressions -/

/-- What can be called. -/
inductive Aggregate where
  | count | sum | avg | min | max | daysUntil | daysSince
  deriving DecidableEq

namespace Aggregate

def ofKeyword? : Keyword → Option Aggregate
  | .count => some count
  | .sum => some sum
  | .avg => some avg
  | .min => some min
  | .max => some max
  | .daysUntil => some daysUntil
  | .daysSince => some daysSince
  | _ => none

def spelling : Aggregate → String
  | count => "count"
  | sum => "sum"
  | avg => "avg"
  | min => "min"
  | max => "max"
  | daysUntil => "days_until"
  | daysSince => "days_since"

instance : Encode Aggregate := ⟨fun a => .str a.spelling⟩

end Aggregate

inductive ArithmeticOp where
  | add | sub | mul | div
  deriving DecidableEq

namespace ArithmeticOp

def symbol : ArithmeticOp → String
  | add => "+"
  | sub => "-"
  | mul => "*"
  | div => "/"

def spelling : ArithmeticOp → String
  | add => "add"
  | sub => "sub"
  | mul => "mul"
  | div => "div"

instance : Encode ArithmeticOp := ⟨fun o => .str o.spelling⟩

end ArithmeticOp

inductive Computed where
  | field (path : FieldPath)
  /-- A number, kept as it was spelled. -/
  | number (text : String)
  | aggregate (function : Aggregate) (argument : FieldPath)
  | binary (op : ArithmeticOp) (left right : Computed)
  deriving DecidableEq

namespace Computed

/-- The fields that are read, from left to right. -/
def fieldPaths : Computed → List FieldPath
  | field path => [path]
  | number _ => []
  | aggregate _ argument => [argument]
  | binary _ left right => left.fieldPaths ++ right.fieldPaths

/-- The expression with every operation in parentheses. -/
def render : Computed → String
  | field path => path.render
  | number text => text
  | aggregate function argument => s!"{function.spelling}({argument.render})"
  | binary op left right => s!"({left.render} {op.symbol} {right.render})"

end Computed

/-! ## Invariants -/

/-- A side of a comparison in an invariant. -/
inductive InvariantTerm where
  | field (path : FieldPath)
  | literal (value : Literal)
  | duration (value : Duration)
  | date (value : DateExpr)
  /-- A field shifted by a duration. -/
  | offset (path : FieldPath) (sign : OffsetSign) (duration : Duration)
  deriving DecidableEq

namespace InvariantTerm

def path? : InvariantTerm → Option FieldPath
  | field path | offset path _ _ => some path
  | _ => none

end InvariantTerm

inductive Invariant where
  | comparison (left : InvariantTerm) (op : ComparisonOp) (right : InvariantTerm)
  | logical (op : Connective) (left right : Invariant)
  | not (operand : Invariant)
  deriving DecidableEq

namespace Invariant

/-- The fields that are compared, from left to right. -/
def fieldPaths : Invariant → List FieldPath
  | comparison left _ right => left.path?.toList ++ right.path?.toList
  | logical _ left right => left.fieldPaths ++ right.fieldPaths
  | not operand => operand.fieldPaths

end Invariant

end Blueprint
