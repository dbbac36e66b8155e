import Blueprint.Expr.Basic

/-!
# Fields

A field has exactly one type: a scalar, an enum or a relation to another entity. `isRequired`,
`referenceTarget?` and `hasModifier` are what other parts of the library ask of a field.
-/

namespace Blueprint

inductive RelationKind where
  | ref | hasMany | hasOne | belongsTo | embeds
  deriving DecidableEq

namespace RelationKind

/-- Whether the relation stores a key that points at its target. -/
def isReference : RelationKind → Bool
  | ref | belongsTo => true
  | _ => false

/-- Whether the key of the relation is a field of its target. -/
def isKeyedByTarget : RelationKind → Bool
  | hasMany | hasOne => true
  | _ => false

def spelling : RelationKind → String
  | ref => "ref"
  | hasMany => "has_many"
  | hasOne => "has_one"
  | belongsTo => "belongs_to"
  | embeds => "embeds"

end RelationKind

/-- What happens to an entity when the target of its relation is deleted. -/
inductive DeletePolicy where
  | cascade | restrict | nullify
  deriving DecidableEq

def DeletePolicy.spelling : DeletePolicy → String
  | cascade => "cascade"
  | restrict => "restrict"
  | nullify => "nullify"

structure Relation where
  kind : RelationKind
  target : String
  /-- The key on the side of the target, for `has_many` and `has_one` only. -/
  via : Option String := none
  onDelete : Option DeletePolicy := none
  readonly : Bool := false
  deriving DecidableEq

inductive FieldType where
  | str (maxLength : Option Nat)
  | text | int | float
  | decimal (precision scale : Nat)
  | bool | date | datetime | time | uuid | email | url | phone | json
  | money (currency : String)
  | file | image | timezone
  /-- An enum whose values stand at the field. -/
  | enum (values : List String)
  /-- An enum declared on its own. -/
  | enumRef (name : String)
  | relation (relation : Relation)
  deriving DecidableEq

/-- The sort of a field type. -/
inductive FieldTypeKind where
  | scalar
  | enum
  | relation (kind : RelationKind)
  deriving DecidableEq

namespace FieldType

def kind : FieldType → FieldTypeKind
  | enum _ | enumRef _ => .enum
  | relation r => .relation r.kind
  | _ => .scalar

def relation? : FieldType → Option Relation
  | relation r => some r
  | _ => none

/-- The values of an enum that stand at the field. -/
def enumValues? : FieldType → Option (List String)
  | enum values => some values
  | _ => none

/-- The type as it is written, without the options of a relation. -/
def render : FieldType → String
  | str (some n) => s!"str({n})"
  | str none => "str"
  | text => "text"
  | int => "int"
  | float => "float"
  | decimal precision scale => s!"decimal({precision},{scale})"
  | bool => "bool"
  | date => "date"
  | datetime => "datetime"
  | time => "time"
  | uuid => "uuid"
  | email => "email"
  | url => "url"
  | phone => "phone"
  | json => "json"
  | money currency => s!"money({currency})"
  | file => "file"
  | image => "image"
  | timezone => "timezone"
  | enum values => "enum[" ++ ",".intercalate values ++ "]"
  | enumRef name => s!"enum {name}"
  | relation r => s!"{r.kind.spelling} {r.target}"

end FieldType

inductive Modifier where
  | required | optional | unique | pk | autoAdd | autoUpdate | sensitive
  deriving DecidableEq

namespace Modifier

def ofKeyword? : Keyword → Option Modifier
  | .required => some required
  | .optional => some optional
  | .unique => some unique
  | .pk => some pk
  | .autoAdd => some autoAdd
  | .autoUpdate => some autoUpdate
  | .sensitive => some sensitive
  | _ => none

def spelling : Modifier → String
  | required => "required"
  | optional => "optional"
  | unique => "unique"
  | pk => "pk"
  | autoAdd => "auto_add"
  | autoUpdate => "auto_update"
  | sensitive => "sensitive"

end Modifier

inductive DefaultValue where
  | literal (value : Literal)
  /-- An enum value, or a symbol such as `current_user`. -/
  | identifier (name : String)
  | date (value : DateExpr)
  deriving DecidableEq

structure Field where
  name : String
  fieldType : FieldType
  /-- Without repetition, in the order in which they were written. -/
  modifiers : List Modifier := []
  defaultValue : Option DefaultValue := none
  deriving DecidableEq

namespace Field

def hasModifier (f : Field) (m : Modifier) : Bool := f.modifiers.contains m

/-- The field with one modifier more, unless it has it already. -/
def withModifier (f : Field) (m : Modifier) : Field :=
  if f.hasModifier m then f else { f with modifiers := f.modifiers ++ [m] }

def isRequired (f : Field) : Bool := f.hasModifier .required || f.hasModifier .pk

/-- The entity that the field stores a key of. -/
def referenceTarget? (f : Field) : Option String :=
  match f.fieldType with
  | .relation r => if r.kind.isReference then some r.target else none
  | _ => none

/-- The field is a `ref` or a `belongs_to` that leads to the entity of the name. -/
def RefersTo (f : Field) (entity : String) : Prop :=
  ∃ r, f.fieldType = .relation r ∧ (r.kind = .ref ∨ r.kind = .belongsTo) ∧ r.target = entity

theorem referenceTarget?_eq_some_iff {f : Field} {entity : String} :
    f.referenceTarget? = some entity ↔ f.RefersTo entity := by
  have hkind : ∀ k : RelationKind, k.isReference = true ↔ k = .ref ∨ k = .belongsTo := by
    rintro ⟨⟩ <;> decide
  unfold referenceTarget? RefersTo
  split
  · next r e => simp [e, hkind]
  · next h =>
    refine iff_of_false (by simp) ?_
    rintro ⟨r, e, -⟩
    exact h r e

instance (f : Field) (entity : String) : Decidable (f.RefersTo entity) :=
  decidable_of_iff _ referenceTarget?_eq_some_iff

end Field

/-- A field whose value is derived. -/
structure ComputedField where
  name : String
  expr : Computed
  deriving DecidableEq

/-- A rule that every record keeps, with what is reported when it is broken. -/
structure InvariantRule where
  expr : Invariant
  message : Option String := none
  code : Option String := none
  deriving DecidableEq

inductive ConstraintKind where
  | unique | index
  deriving DecidableEq

def ConstraintKind.spelling : ConstraintKind → String
  | unique => "unique"
  | index => "index"

/-- A set of fields that is unique, or searched by, as a whole. -/
structure Constraint where
  kind : ConstraintKind
  fields : List String
  deriving DecidableEq

end Blueprint
