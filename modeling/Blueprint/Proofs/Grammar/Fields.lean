import Blueprint.Field.Grammar
import Blueprint.Proofs.Grammar.Expressions

/-!
# Fields read the same
-/

namespace Blueprint.Parser

variable {g : Ground} [g.Level] {plain : Bool} {α β : Type} {e : Effect}

/-! ## Types -/

instance {part : Parser α} [Reads g false part .stays] :
    Reads g plain (parenthesized? part) .stays := by
  unfold parenthesized?
  infer_instance

instance {t : Token} : Reads g plain (decimalType t) .stays := by
  unfold decimalType
  infer_instance

instance {t t' : Token} : Alike (decimalType t) (decimalType t') := by
  unfold decimalType
  infer_instance

instance {values : List String} : Reads g plain (enumValue values) .stays := by
  unfold enumValue
  infer_instance

instance : Reads g plain enumType .stays := by
  unfold enumType
  infer_instance

instance {r : Relation} : Reads g plain (relationOption? r) .stays := by
  unfold relationOption?
  refine .keyword (fun k => ?_) ?_
  · split <;> infer_instance
  · infer_instance

instance {kind : RelationKind} : Reads g plain (relation kind) .stays := by
  unfold relation
  infer_instance

instance {t : Token} {k : Keyword} : Reads g plain (fieldTypeAfter t k) .stays := by
  unfold fieldTypeAfter
  split
  · infer_instance
  · infer_instance
  · infer_instance
  · infer_instance
  · split <;> infer_instance

instance {t t' : Token} {k : Keyword} : Alike (fieldTypeAfter t k) (fieldTypeAfter t' k) := by
  unfold fieldTypeAfter
  split
  · infer_instance
  · infer_instance
  · infer_instance
  · infer_instance
  · split <;> infer_instance

instance : Reads g plain fieldType .stays := by
  refine .current (fun t ht => ?_) (fun t ht _ => ?_) fun hk hx => ?_
  · split <;> infer_instance
  · rw [keyword?_of_endsStatement ht]
    exact inferInstanceAs (Reads g plain (failAt t _) .stays)
  · rw [keyword?_congr hk]
    split <;> infer_instance

/-! ## Declarations -/

instance : Reads g plain defaultValue .stays := by
  unfold defaultValue
  infer_instance

instance {f : Field} : Reads g plain (fieldOption? f) .stays := by
  refine .current (fun t ht => ?_) (fun t ht _ => ?_) fun hk hx => ?_
  · split <;> infer_instance
  · have hequal : ¬(t.kind == .equal) = true := by
      intro h
      rw [beq_iff_eq.1 h] at ht
      cases ht
    rw [keyword?_of_endsStatement ht, if_neg hequal]
    exact inferInstanceAs (Reads g plain (pure none) .stays)
  · rw [keyword?_congr hk, hk]
    split <;> infer_instance

instance : Reads g plain field .ends := by
  unfold field
  infer_instance

instance : Looks isAtField := by
  have htype : Peeks .any (peekIs 1 .colon >>= fun b => if b = true then
      peek 2 >>= fun t => pure (t.keyword?.any Keyword.opensType) else pure false) :=
    .second fun _ _ hk => by rw [keyword?_congr hk]
  unfold isAtField
  infer_instance

instance {fields : List Field} : Reads g plain (anotherField fields) .ends := by
  unfold anotherField
  infer_instance

instance : Reads g plain fieldBlock .ends := by
  unfold fieldBlock
  infer_instance

instance {fields : List Field} : Reads g plain (noField fields) .ends := by
  unfold noField
  infer_instance

end Blueprint.Parser
