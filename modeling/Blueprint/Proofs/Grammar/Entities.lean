import Blueprint.Entity.Grammar
import Blueprint.Proofs.Grammar.Fields

/-!
# Entities read the same
-/

namespace Blueprint.Parser

variable {g : Ground} [g.Level] {plain : Bool}

/-! ## Members -/

instance {m : Members} : Reads g plain (memberField m) .ends := by
  unfold memberField
  infer_instance

instance {m : Members} : Reads g plain (memberComputed m) .ends := by
  unfold memberComputed
  infer_instance

instance : Reads g plain invariantRule .ends := by
  have hstatement (r : InvariantRule) : Reads .block false (keyword? >>= fun k => match k with
      | some .message => do return { r with message := some (← keyed string) }
      | some .code => do return { r with code := some (← keyed string) }
      | _ => passOver r) .ends := by
    refine .keyword (fun k => ?_) ?_
    · split <;> infer_instance
    · infer_instance
  unfold invariantRule
  infer_instance

theorem kind_of_isAtKeyed {k : Keyword} {scope : Scope} {ts rest : List Token}
    (h : isAtKeyed k scope ts = .ok (true, rest)) :
    rest = ts ∧ (head scope ts.tail).kind = .colon := by
  unfold isAtKeyed isAtKeyword at h
  rw [bind_eq_ok (isAt_apply _ _ _)] at h
  by_cases hk : ((head scope ts).kind == .keyword k) = true
  · rw [if_pos hk] at h
    exact kind_of_peekIs h
  · rw [if_neg hk] at h
    cases h

instance {m : Members} : Tries g plain (member? m) := by
  unfold member?
  rw [advance_past kind_of_isAtKeyed]
  infer_instance

/-! ## State machines -/

instance : Reads g plain autoTransition .stays := by
  unfold autoTransition
  infer_instance

instance {t : Transition} : Reads g plain (inlineGuard t) .stays := by
  unfold inlineGuard
  refine .keyword (fun k => ?_) ?_
  · split <;> infer_instance
  · infer_instance

instance {t : Transition} : Reads g plain (inlineGuards t) .ends := by
  unfold inlineGuards
  infer_instance

instance {t : Transition} : Reads g plain (guardStatement t) .ends := by
  have hmessage (s : String) : Still (match withMessage? t.guards s with
      | some guards => pure { t with guards }
      | none => fail .messageWithoutGuard : Parser Transition) := by
    split <;> infer_instance
  unfold guardStatement
  refine .keyword (fun k => ?_) ?_
  · split <;> infer_instance
  · infer_instance

instance : Reads g plain sourceState .stays := by
  unfold sourceState
  infer_instance

instance : Reads g plain transition .ends := by
  unfold transition
  infer_instance

instance : Reads g plain transitions .ends := by
  unfold transitions
  infer_instance

/-! ## Access -/

instance : Reads g plain accessOperations .stays := by
  unfold accessOperations
  refine .keyword (fun k => ?_) ?_
  · split <;> infer_instance
  · exact inferInstanceAs (Reads g false (unexpected _) .stays)

instance : Reads g plain accessRules .ends := by
  unfold accessRules
  infer_instance

instance : Reads g plain access .ends := by
  unfold access
  infer_instance

/-! ## Declarations -/

instance : Reads g plain flag .ends := by
  unfold flag
  infer_instance

instance {e : Entity} {found : List Transition} :
    Reads g plain (entityDirective e found) .ends := by
  unfold entityDirective
  refine .keyword (fun k => ?_) ?_
  · split <;> infer_instance
  · infer_instance

instance {s : Entity × List Transition} : Reads g plain (entityStatement s) .ends := by
  obtain ⟨e, found⟩ := s
  unfold entityStatement
  infer_instance

instance {values : List EnumValue} : Reads g plain (enumLine values) .ends := by
  unfold enumLine
  infer_instance

end Blueprint.Parser
