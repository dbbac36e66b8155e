import Blueprint.Flow.Grammar
import Blueprint.Persona.Grammar
import Blueprint.Proofs.Grammar.Expressions
import Blueprint.Test.Grammar

/-!
# Tests, flows, personas and stories read the same
-/

namespace Blueprint.Parser

variable {g : Ground} [g.Level] {plain : Bool}

/-! ## Tests -/

instance : Reads g plain testOperation .stays := by
  unfold testOperation
  infer_instance

instance : Reads g plain assignment .stays := by
  unfold assignment
  infer_instance

instance : Reads g plain setupStep .ends := by
  unfold setupStep
  infer_instance

instance : Reads g plain testAction .stays := by
  unfold testAction
  infer_instance

instance : Reads g plain dataLine .ends := by
  unfold dataLine
  infer_instance

instance : Reads g plain expectation .ends := by
  unfold expectation
  infer_instance

instance {d : TestDraft} : Reads g plain (testStatement d) .ends := by
  unfold testStatement
  refine .keyword (fun k => ?_) ?_
  · split <;> infer_instance
  · infer_instance

/-! ## Flows -/

instance : Reads g plain flowTarget .stays := by
  refine .current (fun t ht => ?_) (fun t ht _ => ?_) fun hk _ => ?_
  · split <;> infer_instance
  · split <;> first | infer_instance | (next hk => rw [hk] at ht; cases ht)
  · rw [hk, isWord_congr hk]
    exact .rfl

instance : Reads g plain flowTargets .stays := by
  have hstep (l : List String) : Reads g false (current >>= fun t => match t.kind with
      | .newline | .dedent | .endOfFile => pure none
      | _ => do return some (l ++ [← flowTarget])) .stays := by
    refine .current (fun t ht => ?_) (fun t ht _ => ?_) fun hk _ => ?_
    · split <;> infer_instance
    · split <;> infer_instance
    · rw [hk]
      exact .rfl
  unfold flowTargets
  infer_instance

instance : Reads g plain flowAction .stays := by
  refine .current (fun t ht => ?_) (fun t ht hx => ?_) fun _ hx => ?_
  · split <;> infer_instance
  · rw [hx]
    exact inferInstanceAs (Reads g plain (unexpected _) .stays)
  · rw [hx]
    exact .rfl

instance : Reads g plain flowStep .ends := by
  unfold flowStep
  infer_instance

set_option synthInstance.maxSize 512 in
instance {p : FlowPreconditions} : Reads g plain (preconditionStatement p) .ends := by
  unfold preconditionStatement
  infer_instance

instance {f : Flow} : Reads g plain (flowStatement f) .ends := by
  unfold flowStatement
  refine .keyword (fun k => ?_) ?_
  · split <;> infer_instance
  · infer_instance

/-! ## Personas, scenarios and stories -/

instance {p : Persona} : Reads g plain (personaDirective p) .ends := by
  unfold personaDirective
  refine .keyword (fun k => ?_) ?_
  · split <;> infer_instance
  · infer_instance

instance {e : ScenarioEntry} : Reads g plain (entryStatement e) .ends := by
  unfold entryStatement
  refine .keyword (fun k => ?_) ?_
  · split <;> infer_instance
  · infer_instance

instance : Reads g plain scenarioEntry .ends := by
  unfold scenarioEntry
  infer_instance

instance {s : Scenario} : Reads g plain (scenarioStatement s) .ends := by
  unfold scenarioStatement
  refine .keyword (fun k => ?_) ?_
  · split <;> infer_instance
  · infer_instance

instance {c : UnlessClause} : Reads g plain (unlessStatement c) .ends := by
  unfold unlessStatement
  infer_instance

instance : Reads g plain unlessClause .ends := by
  unfold unlessClause
  infer_instance

instance {d : StoryDraft} : Reads g plain (storyStatement d) .ends := by
  unfold storyStatement
  refine .keyword (fun k => ?_) ?_
  · split <;> infer_instance
  · infer_instance

end Blueprint.Parser
