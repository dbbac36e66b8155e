import Blueprint.Expr.Encode
import Blueprint.Field.Basic

/-!
# JSON form of fields
-/

namespace Blueprint

open Json (field optional several tagged)

instance : Encode RelationKind := ⟨fun k => .str k.spelling⟩
instance : Encode DeletePolicy := ⟨fun p => .str p.spelling⟩

/-- The members of a relation, which stand in the record of its type. -/
def Relation.members (r : Relation) : List (String × Json) :=
  field "kind" r.kind ++ field "target" r.target ++ optional "via" r.via ++
    optional "on_delete" r.onDelete ++ field "readonly" r.readonly

instance : Encode FieldType where
  encode
    | .str maxLength => tagged "type" "str" (optional "max_length" maxLength)
    | .text => tagged "type" "text" []
    | .int => tagged "type" "int" []
    | .float => tagged "type" "float" []
    | .decimal precision scale =>
      tagged "type" "decimal" (field "precision" precision ++ field "scale" scale)
    | .bool => tagged "type" "bool" []
    | .date => tagged "type" "date" []
    | .datetime => tagged "type" "datetime" []
    | .time => tagged "type" "time" []
    | .uuid => tagged "type" "uuid" []
    | .email => tagged "type" "email" []
    | .url => tagged "type" "url" []
    | .phone => tagged "type" "phone" []
    | .json => tagged "type" "json" []
    | .money currency => tagged "type" "money" (field "currency" currency)
    | .file => tagged "type" "file" []
    | .image => tagged "type" "image" []
    | .timezone => tagged "type" "timezone" []
    | .enum values => tagged "type" "enum" (field "values" values)
    | .enumRef name => tagged "type" "enum_ref" (field "name" name)
    | .relation r => tagged "type" "relation" r.members

instance : Encode FieldTypeKind where
  encode
    | .scalar => .str "scalar"
    | .enum => .str "enum"
    | .relation k => .obj (field "relation" k)

instance : Encode Modifier := ⟨fun m => .str m.spelling⟩

instance : Encode DefaultValue where
  encode
    | .literal value => tagged "kind" "literal" (field "value" value)
    | .identifier name => tagged "kind" "identifier" (field "value" name)
    | .date value => tagged "kind" "date" (field "value" value)

instance : Encode Field where
  encode f := .obj <|
    field "name" f.name ++ field "field_type" f.fieldType ++ several "modifiers" f.modifiers ++
      optional "default" f.defaultValue

instance : Encode ComputedField where
  encode f := .obj (field "name" f.name ++ field "expr" f.expr)

instance : Encode InvariantRule where
  encode r := .obj <|
    field "expr" r.expr ++ optional "message" r.message ++ optional "code" r.code

instance : Encode ConstraintKind := ⟨fun k => .str k.spelling⟩

instance : Encode Constraint where
  encode c := .obj (field "kind" c.kind ++ field "fields" c.fields)

end Blueprint
