import Blueprint.Expr.Basic

/-!
# JSON form of expressions
-/

namespace Blueprint

open Json (field tagged)

mutual

def ConditionValue.toJson : ConditionValue → Json
  | .literal value => tagged "kind" "literal" (field "value" value)
  | .identifier name => tagged "kind" "identifier" (field "value" name)
  | .path p => tagged "kind" "path" (field "value" p)
  | .list items => tagged "kind" "list" [("value", .arr (ConditionValue.listToJson items))]
  | .date d => tagged "kind" "date" (field "value" d)

def ConditionValue.listToJson : List ConditionValue → List Json
  | [] => []
  | v :: vs => v.toJson :: ConditionValue.listToJson vs

end

instance : Encode ConditionValue := ⟨ConditionValue.toJson⟩

def Condition.toJson : Condition → Json
  | .comparison p op value =>
    tagged "kind" "comparison" (field "field" p ++ field "op" op ++ field "value" value)
  | .role r => tagged "kind" "role" (field "role" r)
  | .logical op left right =>
    tagged "kind" "logical" <|
      field "op" op ++ field "left" left.toJson ++ field "right" right.toJson

instance : Encode Condition := ⟨Condition.toJson⟩

def Computed.toJson : Computed → Json
  | .field path => tagged "kind" "field" (Json.field "path" path)
  | .number text => tagged "kind" "number" (Json.field "value" text)
  | .aggregate function argument =>
    tagged "kind" "aggregate" (Json.field "function" function ++ Json.field "argument" argument)
  | .binary op left right =>
    tagged "kind" "binary"
      (Json.field "op" op ++ Json.field "left" left.toJson ++ Json.field "right" right.toJson)

instance : Encode Computed := ⟨Computed.toJson⟩

instance : Encode InvariantTerm where
  encode
    | .field path => tagged "kind" "field" (field "path" path)
    | .literal value => tagged "kind" "literal" (field "value" value)
    | .duration value => tagged "kind" "duration" (field "value" value)
    | .date value => tagged "kind" "date" (field "value" value)
    | .offset path sign duration =>
      tagged "kind" "offset"
        (field "path" path ++ field "sign" sign ++ field "duration" duration)

def Invariant.toJson : Invariant → Json
  | .comparison left op right =>
    tagged "kind" "comparison" (field "left" left ++ field "op" op ++ field "right" right)
  | .logical op left right =>
    tagged "kind" "logical" <|
      field "op" op ++ field "left" left.toJson ++ field "right" right.toJson
  | .not operand => tagged "kind" "not" (field "operand" operand.toJson)

instance : Encode Invariant := ⟨Invariant.toJson⟩

end Blueprint
