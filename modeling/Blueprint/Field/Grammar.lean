import Blueprint.Expr.Grammar
import Blueprint.Field.Basic
import Blueprint.Parser.Block

/-!
# Grammar of fields

```text
field     = name ":" type (modifier | "=" default)*
relation  = target ("via" name | "cascade" | "restrict" | "nullify" | "readonly")*
```
-/

namespace Blueprint

/-- The currency of an amount of money that names none. -/
def defaultCurrency : String := "USD"

/-- The kind of relation that a keyword opens. -/
def RelationKind.ofKeyword? : Keyword → Option RelationKind
  | .ref => some ref
  | .hasMany => some hasMany
  | .hasOne => some hasOne
  | .belongsTo => some belongsTo
  | .embeds => some embeds
  | _ => none

/-- The scalar type that a keyword names, for those that are complete without options. -/
def FieldType.ofKeyword? : Keyword → Option FieldType
  | .text => some text
  | .int => some int
  | .float => some float
  | .bool => some bool
  | .date => some date
  | .datetime => some datetime
  | .time => some time
  | .uuid => some uuid
  | .email => some email
  | .url => some url
  | .phone => some phone
  | .json => some json
  | .file => some file
  | .image => some image
  | .timezone => some timezone
  | _ => none

/-- Whether the word opens a field type. -/
def Keyword.opensType (k : Keyword) : Bool :=
  match k with
  | .str | .decimal | .money | .enum => true
  | _ => (FieldType.ofKeyword? k).isSome || (RelationKind.ofKeyword? k).isSome

namespace Parser

/-! ## Types -/

/-- A part in parentheses, if an opening one comes next. -/
def parenthesized? {α : Type} (part : Parser α) : Parser (Option α) := do
  if ← accept .openParen then
    let v ← part
    let _ ← expect .closeParen
    return some v
  else return none

/-- `"(" precision "," scale ")"`, behind the token of the type. -/
def decimalType (t : Token) : Parser FieldType := do
  let _ ← expect .openParen
  let precision ← count
  let _ ← expect .comma
  let scale ← count
  let _ ← expect .closeParen
  if precision < scale then failAt t (.scaleExceedsPrecision scale precision)
  else return .decimal precision scale

/-- One more enum value. -/
def enumValue (values : List String) : Parser (List String) := do
  let t ← current
  let value ← name
  if values.contains value then failAt t (.duplicate "enum value" value)
  else return values ++ [value]

/-- `"[" name ("," name)* "]"`, or the name of a declared enum. -/
def enumType : Parser FieldType := do
  if ← accept .openBracket then
    let values ← separatedFold .comma enumValue []
    let _ ← expect .closeBracket
    return .enum values
  else return .enumRef (← name)

/-- One option of a relation, if one comes next. -/
def relationOption? (r : Relation) : Parser (Option Relation) := do
  match ← keyword? with
  | some .via =>
    let _ ← advance
    return some { r with via := some (← name) }
  | some .cascade =>
    let _ ← advance
    return some { r with onDelete := some .cascade }
  | some .restrict =>
    let _ ← advance
    return some { r with onDelete := some .restrict }
  | some .nullify =>
    let _ ← advance
    return some { r with onDelete := some .nullify }
  | some .readonly =>
    let _ ← advance
    return some { r with readonly := true }
  | _ => return none

def relation (kind : RelationKind) : Parser Relation := do
  let target ← name
  let r ← iterate relationOption? { kind, target }
  if r.via.isSome && !kind.isKeyedByTarget then fail (.misplacedVia kind.spelling)
  else return r

/-- The rest of a field type behind the token that opens it. -/
def fieldTypeAfter (t : Token) (k : Keyword) : Parser FieldType := do
  match k with
  | .str => return .str (← parenthesized? count)
  | .decimal => decimalType t
  | .money => return .money ((← parenthesized? name).getD defaultCurrency)
  | .enum => enumType
  | _ =>
    match FieldType.ofKeyword? k, RelationKind.ofKeyword? k with
    | some scalar, _ => return scalar
    | none, some kind => return .relation (← relation kind)
    | none, none => failAt t (.unknownFieldType t)

def fieldType : Parser FieldType := do
  let t ← current
  match t.keyword? with
  | some k =>
    if k.opensType then
      let _ ← advance
      fieldTypeAfter t k
    else failAt t (.unknownFieldType t)
  | none => failAt t (.unknownFieldType t)

/-! ## Declarations -/

def defaultValue : Parser DefaultValue := do
  if ← isAtLiteral then return .literal (← literal)
  else if ← isAtDate then return .date (← date)
  else return .identifier (← name)

/-- One modifier or default, if one comes next. -/
def fieldOption? (f : Field) : Parser (Option Field) := do
  let t ← current
  match t.keyword?.bind Modifier.ofKeyword? with
  | some m =>
    let _ ← advance
    return some (f.withModifier m)
  | none =>
    if t.kind == .equal then
      if f.defaultValue.isSome then failAt t (.secondDefault f.name)
      else
        let _ ← advance
        return some { f with defaultValue := some (← defaultValue) }
    else return none

/-- A field with the end of its line. -/
def field : Parser Field := do
  let n ← name
  let _ ← expect .colon
  let f ← iterate fieldOption? { name := n, fieldType := ← fieldType }
  if f.hasModifier .required && f.hasModifier .optional then fail (.requiredAndOptional f.name)
  else closing (return f)

/-- Whether `word ":" type` comes next. -/
def isAtField : Parser Bool := do
  if ← isAtWord then
    if ← peekIs 1 .colon then return (← peek 2).keyword?.any Keyword.opensType
    else return false
  else return false

/-- One more field, which no other field may have the name of. -/
def anotherField (fields : List Field) : Parser (List Field) := do
  let t ← current
  let f ← field
  if fields.any (·.name == f.name) then failAt t (.duplicate "field" f.name)
  else return fields ++ [f]

/-- A block of nothing but fields. -/
def fieldBlock : Parser (List Field) := block anotherField []

/-- The fields behind a statement in which no field stands. After `word ":"` a type is missing,
which is reported where the field is read. Any other statement is passed over. -/
def noField (fields : List Field) : Parser (List Field) := do
  if (← isAtWord) && (← peekIs 1 .colon) then return fields ++ [← field]
  else
    skip
    return fields

end Parser

end Blueprint
