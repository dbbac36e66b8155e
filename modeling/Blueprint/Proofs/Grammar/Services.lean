import Blueprint.Integration.Grammar
import Blueprint.Proofs.Grammar.Fields
import Blueprint.Service.Grammar

/-!
# Services and integrations read the same
-/

namespace Blueprint.Parser

variable {g : Ground} [g.Level] {plain : Bool}

/-! ## Services -/

set_option synthInstance.maxSize 512 in
instance : Reads g plain specSource .stays := by
  unfold specSource
  infer_instance

instance {options : List (String × String)} : Reads g plain (authOption? options) .stays := by
  have hvalue : Blind fun key : Token => (do
      let _ ← expect .equal
      match ← string? with
      | some s => return some (options ++ [(key.text, s)])
      | none => return some (options ++ [(key.text, ← word)]) : Parser _) := by
    refine ⟨fun _ hx => ?_⟩
    rw [hx]
    exact .rfl
  have hreads (key : Token) : Reads g false (string? >>= fun s => match s with
      | some s => pure (some (options ++ [(key.text, s)]))
      | none => do return some (options ++ [(key.text, ← word)])) .stays := by
    refine @Reads.bind _ _ _ _ _ _ _ _ fun s => ?_
    cases s <;> infer_instance
  unfold authOption?
  dsimp only
  rw [look_and_peek (exists_peekIs _ _), advance_past kind_of_peekIs]
  infer_instance

instance : Reads g plain authProfile .stays := by
  unfold authProfile
  infer_instance

instance {d : ServiceDraft} : Reads g plain (serviceStatement d) .ends := by
  unfold serviceStatement
  refine .keyword (fun k => ?_) ?_
  · split <;> infer_instance
  · infer_instance

instance {l : Location} {n : String} {d : ServiceDraft} : Still (serviceBody l n d) := by
  unfold serviceBody
  infer_instance

/-! ## Foreign models -/

instance {m : ForeignModel} : Reads g plain (foreignDirective m) .ends := by
  unfold foreignDirective
  refine .keyword (fun k => ?_) ?_
  · split <;> infer_instance
  · infer_instance

instance {m : ForeignModel} : Reads g plain (foreignStatement m) .ends := by
  unfold foreignStatement
  infer_instance

/-! ## Integrations -/

instance : Reads g plain serviceCall .stays := by
  unfold serviceCall
  infer_instance

instance : Reads g plain mappingRules .ends := by
  unfold mappingRules mappingRule
  infer_instance

instance : Reads g plain responseMapping .ends := by
  unfold responseMapping
  infer_instance

instance {d : ActionDraft} : Reads g plain (actionStatement d) .ends := by
  unfold actionStatement
  refine .keyword (fun k => ?_) ?_
  · split <;> infer_instance
  · infer_instance

instance : Reads g plain integrationAction .ends := by
  unfold integrationAction
  infer_instance

instance : Reads g plain syncMode .stays := by
  unfold syncMode
  infer_instance

instance : Reads g plain matchRule .ends := by
  unfold matchRule
  infer_instance

instance {d : SyncDraft} : Reads g plain (syncStatement d) .ends := by
  unfold syncStatement
  refine .keyword (fun k => ?_) ?_
  · split <;> infer_instance
  · infer_instance

instance : Reads g plain integrationSync .ends := by
  unfold integrationSync
  infer_instance

instance {i : Integration} : Reads g plain (integrationUse i) .stays := by
  unfold integrationUse
  infer_instance

instance {actions : List IntegrationAction} : Reads g plain (anotherAction actions) .ends := by
  unfold anotherAction
  infer_instance

instance {i : Integration} : Reads g plain (integrationStatement i) .ends := by
  unfold integrationStatement
  refine .keyword (fun k => ?_) ?_
  · split <;> infer_instance
  · infer_instance

end Blueprint.Parser
