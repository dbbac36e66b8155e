import Blueprint.Entity.Encode
import Blueprint.Proofs.Json.Records

/-!
# The JSON form of expressions, fields and entities

Different expressions have different JSON forms, and so have fields, entities and archetypes. For
conditions, computed expressions and invariants this goes by recursion on the first of two trees.
-/

namespace Blueprint

open Json (Settles eq_of_obj_eq tag_eq eq_of_tagged_eq)

/-! ## Durations and constants -/

instance : Faithful DurationUnit := .spelled (by rintro ⟨⟩ ⟨⟩ <;> decide)
instance : Faithful Duration := ⟨by rintro ⟨⟩ ⟨⟩ h; cases eq_of_obj_eq h (by decide); rfl⟩
instance : Faithful DateAnchor := .spelled (by rintro ⟨⟩ ⟨⟩ <;> decide)
instance : Faithful OffsetSign := .spelled (by rintro ⟨⟩ ⟨⟩ <;> decide)

instance : Faithful DateExpr := ⟨by
  rintro ⟨anchor, offset⟩ ⟨anchor', offset'⟩ h
  obtain ⟨hanchor, hoffset⟩ := Prod.mk.inj (eq_of_obj_eq h (by decide))
  have hpair : Function.Injective fun p : OffsetSign × Duration =>
      Json.arr [encode p.1, encode p.2] := by
    rintro ⟨sign, duration⟩ ⟨sign', duration'⟩ hp
    obtain ⟨hsign, hrest⟩ := List.cons.inj (Json.arr.inj hp)
    exact Prod.ext (Faithful.inj hsign) (Faithful.inj (List.cons.inj hrest).1)
  cases hanchor
  cases Option.map_injective hpair hoffset
  rfl⟩

instance : Faithful FieldPath := ⟨by rintro ⟨⟩ ⟨⟩ h; cases eq_of_obj_eq h (by decide); rfl⟩

instance : Faithful Literal := ⟨by
  rintro ⟨⟩ ⟨⟩ h <;>
    first
    | exact absurd (tag_eq h) (by decide)
    | (cases eq_of_tagged_eq h (by decide); rfl)⟩

/-! ## Conditions -/

instance : Faithful ComparisonOp := .spelled (by rintro ⟨⟩ ⟨⟩ <;> decide)
instance : Faithful Connective := .spelled (by rintro ⟨⟩ ⟨⟩ <;> decide)

mutual

theorem ConditionValue.eq_of_toJson_eq : ∀ v w : ConditionValue, v.toJson = w.toJson → v = w
  | .list items, w, h => by
    cases w with
    | list items' =>
      have hitems : ConditionValue.listToJson items = ConditionValue.listToJson items' := by
        simpa using (List.cons.inj (Json.obj.inj h)).2
      rw [ConditionValue.eq_of_listToJson_eq items items' hitems]
    | _ => exact absurd (tag_eq h) (by decide)
  | .literal _, w, h | .identifier _, w, h | .path _, w, h | .date _, w, h => by
    cases w <;>
      first
      | exact absurd (tag_eq h) (by decide)
      | (cases eq_of_tagged_eq h (by decide); rfl)

theorem ConditionValue.eq_of_listToJson_eq : ∀ vs ws : List ConditionValue,
    ConditionValue.listToJson vs = ConditionValue.listToJson ws → vs = ws
  | [], [], _ => rfl
  | v :: vs, w :: ws, h => by
    obtain ⟨hv, hvs⟩ := List.cons.inj h
    rw [ConditionValue.eq_of_toJson_eq v w hv, ConditionValue.eq_of_listToJson_eq vs ws hvs]

end

instance : Faithful ConditionValue := ⟨ConditionValue.eq_of_toJson_eq _ _⟩

theorem Condition.eq_of_toJson_eq : ∀ c d : Condition, c.toJson = d.toJson → c = d
  | .logical op left right, d, h => by
    cases d with
    | logical op' left' right' =>
      have hparts := eq_of_tagged_eq h (by decide)
      simp only [Prod.mk.injEq] at hparts
      obtain ⟨⟨rfl, hleft⟩, hright⟩ := hparts
      rw [left.eq_of_toJson_eq left' hleft, right.eq_of_toJson_eq right' hright]
    | _ => exact absurd (tag_eq h) (by decide)
  | .comparison _ _ _, d, h | .role _, d, h => by
    cases d <;>
      first
      | exact absurd (tag_eq h) (by decide)
      | (cases eq_of_tagged_eq h (by decide); rfl)

instance : Faithful Condition := ⟨Condition.eq_of_toJson_eq _ _⟩

/-! ## Computed expressions -/

instance : Faithful Aggregate := .spelled (by rintro ⟨⟩ ⟨⟩ <;> decide)
instance : Faithful ArithmeticOp := .spelled (by rintro ⟨⟩ ⟨⟩ <;> decide)

theorem Computed.eq_of_toJson_eq : ∀ c d : Computed, c.toJson = d.toJson → c = d
  | .binary op left right, d, h => by
    cases d with
    | binary op' left' right' =>
      have hparts := eq_of_tagged_eq h (by decide)
      simp only [Prod.mk.injEq] at hparts
      obtain ⟨⟨rfl, hleft⟩, hright⟩ := hparts
      rw [left.eq_of_toJson_eq left' hleft, right.eq_of_toJson_eq right' hright]
    | _ => exact absurd (tag_eq h) (by decide)
  | .field _, d, h | .number _, d, h | .aggregate _ _, d, h => by
    cases d <;>
      first
      | exact absurd (tag_eq h) (by decide)
      | (cases eq_of_tagged_eq h (by decide); rfl)

instance : Faithful Computed := ⟨Computed.eq_of_toJson_eq _ _⟩

/-! ## Invariants -/

instance : Faithful InvariantTerm := ⟨by
  rintro ⟨⟩ ⟨⟩ h <;>
    first
    | exact absurd (tag_eq h) (by decide)
    | (cases eq_of_tagged_eq h (by decide); rfl)⟩

theorem Invariant.eq_of_toJson_eq : ∀ i j : Invariant, i.toJson = j.toJson → i = j
  | .logical op left right, j, h => by
    cases j with
    | logical op' left' right' =>
      have hparts := eq_of_tagged_eq h (by decide)
      simp only [Prod.mk.injEq] at hparts
      obtain ⟨⟨rfl, hleft⟩, hright⟩ := hparts
      rw [left.eq_of_toJson_eq left' hleft, right.eq_of_toJson_eq right' hright]
    | _ => exact absurd (tag_eq h) (by decide)
  | .not operand, j, h => by
    cases j with
    | not operand' =>
      rw [operand.eq_of_toJson_eq operand' (eq_of_tagged_eq h (by decide))]
    | _ => exact absurd (tag_eq h) (by decide)
  | .comparison _ _ _, j, h => by
    cases j <;>
      first
      | exact absurd (tag_eq h) (by decide)
      | (cases eq_of_tagged_eq h (by decide); rfl)

instance : Faithful Invariant := ⟨Invariant.eq_of_toJson_eq _ _⟩

/-! ## Fields -/

instance : Faithful RelationKind := .spelled (by rintro ⟨⟩ ⟨⟩ <;> decide)
instance : Faithful DeletePolicy := .spelled (by rintro ⟨⟩ ⟨⟩ <;> decide)

instance (r r' : Relation) : Settles r.members r'.members
    ["kind", "target", "via", "on_delete", "readonly"] r r' := by
  unfold Relation.members
  refine .imp inferInstance ?_
  cases r
  cases r'
  rintro ⟨⟩
  rfl

instance : Faithful FieldType := ⟨by
  rintro ⟨⟩ ⟨⟩ h <;>
    first
    | exact absurd (tag_eq h) (by decide)
    | (cases eq_of_tagged_eq h (by decide); rfl)⟩

instance : Faithful Modifier := .spelled (by rintro ⟨⟩ ⟨⟩ <;> decide)

instance : Faithful DefaultValue := ⟨by
  rintro ⟨⟩ ⟨⟩ h <;>
    first
    | exact absurd (tag_eq h) (by decide)
    | (cases eq_of_tagged_eq h (by decide); rfl)⟩

instance : Faithful Field := ⟨by rintro ⟨⟩ ⟨⟩ h; cases eq_of_obj_eq h (by decide); rfl⟩
instance : Faithful ComputedField := ⟨by rintro ⟨⟩ ⟨⟩ h; cases eq_of_obj_eq h (by decide); rfl⟩
instance : Faithful InvariantRule := ⟨by rintro ⟨⟩ ⟨⟩ h; cases eq_of_obj_eq h (by decide); rfl⟩
instance : Faithful ConstraintKind := .spelled (by rintro ⟨⟩ ⟨⟩ <;> decide)
instance : Faithful Constraint := ⟨by rintro ⟨⟩ ⟨⟩ h; cases eq_of_obj_eq h (by decide); rfl⟩

/-! ## Entities -/

instance : Faithful Location := ⟨by rintro ⟨⟩ ⟨⟩ h; cases eq_of_obj_eq h (by decide); rfl⟩

instance : Faithful TransitionGuard := ⟨by
  rintro ⟨⟩ ⟨⟩ h <;>
    first
    | exact absurd (tag_eq h) (by decide)
    | (cases eq_of_tagged_eq h (by decide); rfl)⟩

instance : Faithful AutoTransition := ⟨by rintro ⟨⟩ ⟨⟩ h; cases eq_of_obj_eq h (by decide); rfl⟩
instance : Faithful TransitionTrigger := .spelled (by rintro ⟨⟩ ⟨⟩ <;> decide)
instance : Faithful Transition := ⟨by rintro ⟨⟩ ⟨⟩ h; cases eq_of_obj_eq h (by decide); rfl⟩
instance : Faithful StateMachine := ⟨by rintro ⟨⟩ ⟨⟩ h; cases eq_of_obj_eq h (by decide); rfl⟩
instance : Faithful AccessOperation := .spelled (by rintro ⟨⟩ ⟨⟩ <;> decide)
instance : Faithful PolicyEffect := .spelled (by rintro ⟨⟩ ⟨⟩ <;> decide)
instance : Faithful AccessRule := ⟨by rintro ⟨⟩ ⟨⟩ h; cases eq_of_obj_eq h (by decide); rfl⟩
instance : Faithful Access := ⟨by rintro ⟨⟩ ⟨⟩ h; cases eq_of_obj_eq h (by decide); rfl⟩
instance : Faithful ArchetypeKind := .spelled (by rintro ⟨⟩ ⟨⟩ <;> decide)

instance (m m' : Members) : Settles m.members m'.members
    ["fields", "computed_fields", "invariants"] m m' := by
  unfold Members.members
  refine .imp inferInstance ?_
  cases m
  cases m'
  rintro ⟨⟩
  rfl

instance : Faithful Entity := ⟨by rintro ⟨⟩ ⟨⟩ h; cases eq_of_obj_eq h (by decide); rfl⟩
instance : Faithful Archetype := ⟨by rintro ⟨⟩ ⟨⟩ h; cases eq_of_obj_eq h (by decide); rfl⟩
instance : Faithful EnumValue := ⟨by rintro ⟨⟩ ⟨⟩ h; cases eq_of_obj_eq h (by decide); rfl⟩
instance : Faithful EnumDecl := ⟨by rintro ⟨⟩ ⟨⟩ h; cases eq_of_obj_eq h (by decide); rfl⟩

end Blueprint
