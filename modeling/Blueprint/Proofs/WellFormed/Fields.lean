import Blueprint.Field.Grammar
import Blueprint.Proofs.Results
import Blueprint.Proofs.WellFormed.Basic

/-!
# Fields that are read are well-formed

The modifiers of a field are kept apart while they are read; whether they go together is looked at
behind the last one. A statement in which no field stands never adds one (`skip_of_noField`).
-/

namespace Blueprint

/-! ## Types -/

/-- A scalar type has no rules. -/
theorem FieldType.wellFormed_of_ofKeyword? {k : Keyword} {t : FieldType}
    (h : FieldType.ofKeyword? k = some t) : t.WellFormed := by
  unfold ofKeyword? at h
  split at h <;> cases h <;> trivial

theorem RelationKind.isKeyedByTarget_iff {k : RelationKind} :
    k.isKeyedByTarget = true ↔ k = .hasMany ∨ k = .hasOne := by
  cases k <;> decide

namespace Parser

theorem enumValue_gives {values : List String} (h : values.Nodup) :
    Gives (enumValue values) fun l => l ≠ [] ∧ l.Nodup := by
  unfold enumValue
  refine .seq fun t => .seq fun value => .ite (fun _ => .failAt) fun hn => .pure ?_
  rw [List.contains_iff_mem] at hn
  rw [← List.concat_eq_append]
  exact ⟨by simp, List.Nodup.concat hn h⟩

theorem enumType_gives : Gives enumType FieldType.WellFormed := by
  unfold enumType
  refine .seq fun _ => .ite (fun _ => ?_) fun _ => .seq fun _ => .pure trivial
  exact .bind (.separatedFold .nil (fun _ => enumValue_gives) fun _ h => h.2) fun _ h =>
    .seq fun _ => .pure h

theorem decimalType_gives {t : Token} : Gives (decimalType t) FieldType.WellFormed := by
  unfold decimalType
  refine .seq fun _ => .seq fun precision => .seq fun _ => .seq fun scale => .seq fun _ => ?_
  exact .ite (fun _ => .failAt) fun h => .pure (Nat.not_lt.1 h)

/-- Options do not change the kind of a relation. -/
theorem relationOption?_gives {r : Relation} :
    Gives (relationOption? r) fun o => ∀ r', o = some r' → r'.kind = r.kind := by
  unfold relationOption?
  refine .seq fun k => ?_
  split
  · exact .seq fun _ => .seq fun _ => .some rfl
  · exact .seq fun _ => .some rfl
  · exact .seq fun _ => .some rfl
  · exact .seq fun _ => .some rfl
  · exact .seq fun _ => .some rfl
  · exact .none

theorem relation_gives {kind : RelationKind} :
    Gives (relation kind) fun r => (FieldType.relation r).WellFormed := by
  unfold relation
  have hoption : ∀ r : Relation, r.kind = kind →
      Gives (relationOption? r) fun o => ∀ r', o = some r' → r'.kind = kind := fun r hr =>
    relationOption?_gives.mono fun _ h r' e => (h r' e).trans hr
  refine .seq fun target => .bind (.iterate (I := (·.kind = kind)) rfl hoption) fun r hr => ?_
  refine .ite (fun _ => .fail) fun hvia => .pure fun hsome => ?_
  rw [hr]
  rw [hsome, Bool.true_and, Bool.not_eq_true', Bool.not_eq_false] at hvia
  exact RelationKind.isKeyedByTarget_iff.1 hvia

theorem fieldTypeAfter_gives {t : Token} {k : Keyword} :
    Gives (fieldTypeAfter t k) FieldType.WellFormed := by
  unfold fieldTypeAfter
  split
  · exact .seq fun _ => .pure trivial
  · exact decimalType_gives
  · exact .seq fun _ => .pure trivial
  · exact enumType_gives
  · split
    · next h => exact .pure (FieldType.wellFormed_of_ofKeyword? h)
    · exact relation_gives.bind fun _ h => .pure h
    · exact .failAt

theorem fieldType_gives : Gives fieldType FieldType.WellFormed := by
  unfold fieldType
  refine .seq fun t => ?_
  split
  · exact .ite (fun _ => .seq fun _ => fieldTypeAfter_gives) fun _ => .failAt
  · exact .failAt

/-! ## Fields -/

/-- The type of a field is well-formed, and no modifier is repeated. -/
structure FieldSoFar (f : Field) : Prop where
  fieldType : f.fieldType.WellFormed
  modifiers : f.modifiers.Nodup

theorem FieldSoFar.withModifier {f : Field} (h : FieldSoFar f) (m : Modifier) :
    FieldSoFar (f.withModifier m) := by
  unfold Field.withModifier
  split
  · exact h
  · next hn =>
    unfold Field.hasModifier at hn
    rw [List.contains_iff_mem] at hn
    refine ⟨h.fieldType, ?_⟩
    rw [← List.concat_eq_append]
    exact List.Nodup.concat hn h.modifiers

theorem fieldOption?_gives {f : Field} (h : FieldSoFar f) :
    Gives (fieldOption? f) fun o => ∀ f', o = some f' → FieldSoFar f' := by
  unfold fieldOption?
  refine .seq fun t => ?_
  split
  · exact .seq fun _ => .some (h.withModifier _)
  · refine .ite (fun _ => .ite (fun _ => .failAt) fun _ => ?_) fun _ => .none
    exact .seq fun _ => .seq fun _ => .some ⟨h.fieldType, h.modifiers⟩

theorem field_gives : Gives field Field.WellFormed := by
  unfold field
  refine .seq fun n => .seq fun _ => .bind fieldType_gives fun t ht => ?_
  refine .bind (.iterate ⟨ht, .nil⟩ fun _ => fieldOption?_gives) fun f hf => ?_
  refine .ite (fun _ => .fail) fun hboth => .closing (.pure ⟨hf.fieldType, hf.modifiers, ?_⟩)
  rintro ⟨hrequired, hoptional⟩
  refine hboth ?_
  unfold Field.hasModifier
  rw [List.contains_iff_mem.2 hrequired, List.contains_iff_mem.2 hoptional]
  rfl

theorem anotherField_gives {fields : List Field} (h : Fields.WellFormed fields) :
    Gives (anotherField fields) Fields.WellFormed := by
  unfold anotherField
  refine .seq fun t => .bind field_gives fun f hf => .ite (fun _ => .failAt) fun hn => .pure ?_
  exact ⟨forall_mem_concat h.each hf, h.names.concat hn⟩

theorem fieldBlock_gives : Gives fieldBlock Fields.WellFormed :=
  .block .nil fun _ => anotherField_gives

/-! ## No fields -/

variable {scope : Scope} {ts mid rest : List Token}

theorem rest_of_name {n : String} (h : name scope ts = .ok (n, rest)) : rest = ts.tail := by
  unfold name at h
  rw [bind_eq_ok (current_apply scope ts)] at h
  have hword : (do return (← advance).text : Parser String) scope ts = .ok (n, rest) →
      rest = ts.tail := by
    intro h
    rw [bind_eq_ok (advance_apply scope ts)] at h
    cases h
    rfl
  cases hk : (head scope ts).kind with
  | identifier =>
    rw [hk] at h
    exact hword h
  | keyword k =>
    rw [hk] at h
    dsimp only at h
    split at h
    · exact hword h
    · exact absurd h fail_ne_ok
  | _ =>
    rw [hk] at h
    exact absurd h unexpected_ne_ok

/-- A type is opened by the next token. -/
theorem opensType_of_fieldType {t : FieldType} (h : fieldType scope ts = .ok (t, rest)) :
    (head scope ts).keyword?.any Keyword.opensType = true := by
  unfold fieldType at h
  rw [bind_eq_ok (current_apply scope ts)] at h
  cases hk : (head scope ts).keyword? with
  | none =>
    rw [hk] at h
    exact absurd h failAt_ne_ok
  | some k =>
    rw [hk] at h
    dsimp only at h
    split at h
    · next hopens => exact hopens
    · exact absurd h failAt_ne_ok

/-- A field that is read has a word, a colon and a type in front. -/
theorem opensType_of_field {f : Field} (h : field scope ts = .ok (f, rest)) :
    (head scope ts.tail.tail).keyword?.any Keyword.opensType = true := by
  unfold field at h
  obtain ⟨n, ts₁, hname, h⟩ := bind_eq_ok_iff.1 h
  obtain ⟨colon, ts₂, hcolon, h⟩ := bind_eq_ok_iff.1 h
  obtain ⟨t, ts₃, htype, -⟩ := bind_eq_ok_iff.1 h
  obtain ⟨-, -, rfl⟩ := expect_eq_ok_iff.1 hcolon
  obtain rfl := rest_of_name hname
  exact opensType_of_fieldType htype

theorem head_tail_tail (scope : Scope) (ts : List Token) :
    head scope ts.tail.tail = ts[2]?.getD scope.final := by
  rcases ts with _ | ⟨_, _ | ⟨_, _ | _⟩⟩ <;> rfl

theorem exists_isAtField (scope : Scope) (ts : List Token) :
    ∃ b, isAtField scope ts = .ok (b, ts) := by
  unfold isAtField
  rw [bind_eq_ok (isAtWord_apply scope ts)]
  split
  · rw [bind_eq_ok (peekIs_apply 1 .colon scope ts)]
    split
    · exact ⟨_, rfl⟩
    · exact ⟨false, rfl⟩
  · exact ⟨false, rfl⟩

/-- Where no field stands, none is read: the statement is passed over, or its type is refused. So
the branch in which a field is added to the others never succeeds. -/
theorem skip_of_noField {fields fields' : List Field}
    (hfield : isAtField scope ts = .ok (false, mid))
    (h : noField fields scope ts = .ok (fields', rest)) :
    fields' = fields ∧ skip scope ts = .ok ((), rest) := by
  unfold noField at h
  unfold isAtField at hfield
  rw [bind_eq_ok (isAtWord_apply scope ts), bind_eq_ok (peekIs_apply 1 .colon scope ts)] at h
  rw [bind_eq_ok (isAtWord_apply scope ts)] at hfield
  split at h
  · next hword =>
    obtain ⟨hword, hcolon⟩ := Bool.and_eq_true_iff.1 hword
    obtain ⟨f, ts₁, hf, -⟩ := bind_eq_ok_iff.1 h
    have hopens := opensType_of_field hf
    rw [if_pos hword, bind_eq_ok (peekIs_apply 1 .colon scope ts), if_pos hcolon] at hfield
    obtain ⟨t, _, ht, hfalse⟩ := bind_eq_ok_iff.1 hfield
    cases ht
    rw [head_tail_tail] at hopens
    rw [hopens] at hfalse
    cases hfalse
  · obtain ⟨_, _, hskip, h⟩ := bind_eq_ok_iff.1 h
    cases h
    exact ⟨rfl, hskip⟩

section

variable {α β : Type} {p q : Parser α} {P : α → Prop}

/-- Whatever the parser returns on the tokens has the property. -/
def GivesOn (scope : Scope) (ts : List Token) (p : Parser α) (P : α → Prop) : Prop :=
  ∀ ⦃v rest⦄, p scope ts = .ok (v, rest) → P v

/-- What is made of the fields behind a statement without one is made of those in front. -/
theorem GivesOn.noField {fields : List Field} {f : List Field → α}
    (hfield : isAtField scope ts = .ok (false, mid)) (h : P (f fields)) :
    GivesOn scope ts (noField fields >>= fun fields => pure (f fields)) P := by
  intro v rest hv
  obtain ⟨fields', _, hfields, hv'⟩ := bind_eq_ok_iff.1 hv
  obtain ⟨rfl, -⟩ := skip_of_noField hfield hfields
  cases hv'
  exact h

theorem GivesOn.of_keeps {f : α → β} {b : β} [hp : Keeps p f b] :
    GivesOn scope ts p fun v => f v = b :=
  fun _ _ hv => hp.gives hv

theorem GivesOn.ite_peekIs {n : Nat} {k : TokenKind} (hp : GivesOn scope ts p P)
    (hq : GivesOn scope ts q P) :
    GivesOn scope ts (peekIs n k >>= fun b => if b = true then p else q) P := by
  intro v rest hv
  rw [bind_eq_ok (peekIs_apply n k scope ts)] at hv
  split at hv
  · exact hp hv
  · exact hq hv

end

end Parser

end Blueprint
