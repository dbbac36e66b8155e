import Blueprint.Ledger.Grammar
import Blueprint.Process.Grammar
import Blueprint.Proofs.Grammar.Fields
import Blueprint.Stream.Grammar

/-!
# Models, ledgers, processes and streams read the same
-/

namespace Blueprint.Parser

variable {r : Rereading} {g : Ground} [g.Level] {plain : Bool}

/-! ## Language models -/

instance {d : LlmModelDraft} : Reads g plain (llmModelStatement d) .ends := by
  unfold llmModelStatement
  refine .keyword (fun k => ?_) ?_
  · split <;> infer_instance
  · infer_instance

set_option synthInstance.maxSize 512 in
instance {l : LlmLogging} : Reads g plain (loggingStatement l) .ends := by
  unfold loggingStatement
  infer_instance

instance : Reads g plain rateLimit .ends := by
  unfold rateLimit
  infer_instance

instance {c : LlmConfig} : Reads g plain (llmConfigStatement c) .ends := by
  unfold llmConfigStatement
  refine .keyword (fun k => ?_) ?_
  · split <;> infer_instance
  · infer_instance

instance {p : RetryPolicy} : Reads g plain (retryStatement p) .ends := by
  unfold retryStatement
  refine .keyword (fun k => ?_) ?_
  · split <;> infer_instance
  · infer_instance

instance : Reads g plain retryPolicy .ends := by
  unfold retryPolicy
  infer_instance

instance {p : PiiPolicy} : Reads g plain (piiStatement p) .ends := by
  unfold piiStatement
  infer_instance

instance {d : LlmIntentDraft} : Reads g plain (llmIntentStatement d) .ends := by
  unfold llmIntentStatement
  refine .keyword (fun k => ?_) ?_
  · split <;> infer_instance
  · infer_instance

/-! ## Ledgers -/

instance : Reads g plain syncTarget .stays := by
  unfold syncTarget
  infer_instance

instance {d : LedgerDraft} : Reads g plain (ledgerStatement d) .ends := by
  unfold ledgerStatement
  refine .keyword (fun k => ?_) ?_
  · split <;> infer_instance
  · infer_instance

instance {d : TransferDraft} : Reads g plain (transferStatement d) .ends := by
  unfold transferStatement
  refine .keyword (fun k => ?_) ?_
  · split <;> infer_instance
  · infer_instance

instance : Reads g plain transfer .ends := by
  unfold transfer
  infer_instance

instance {transfers : List Transfer} : Reads g plain (anotherTransfer transfers) .ends := by
  unfold anotherTransfer
  infer_instance

instance : Reads g plain validationLine .ends := by
  unfold validationLine
  infer_instance

instance {t : Transaction} : Reads g plain (transactionStatement t) .ends := by
  unfold transactionStatement
  refine .keyword (fun k => ?_) ?_
  · split <;> infer_instance
  · infer_instance

/-! ## Processes -/

instance : Reads g plain taskOutcome .ends := by
  unfold taskOutcome
  infer_instance

instance {d : HumanTaskDraft} : Reads g plain (humanTaskStatement d) .ends := by
  unfold humanTaskStatement
  refine .keyword (fun k => ?_) ?_
  · split <;> infer_instance
  · infer_instance

instance : Reads g plain humanTask .ends := by
  have hstill (l : Location) (d : HumanTaskDraft) : Still (match d.surface with
      | some s => pure { surface := s, assigneeRole := d.assigneeRole, outcomes := d.outcomes }
      | none => failIn l (.missingIn "human_task" "surface") : Parser HumanTask) := by
    split <;> infer_instance
  have halike (l l' : Location) (d : HumanTaskDraft) : Alike (match d.surface with
      | some s => pure { surface := s, assigneeRole := d.assigneeRole, outcomes := d.outcomes }
      | none => failIn l (.missingIn "human_task" "surface") : Parser HumanTask)
      (match d.surface with
      | some s => pure { surface := s, assigneeRole := d.assigneeRole, outcomes := d.outcomes }
      | none => failIn l' (.missingIn "human_task" "surface")) := by
    split <;> infer_instance
  unfold humanTask
  infer_instance

instance {o : StepOptions} : Reads g plain (stepOption o) .ends := by
  unfold stepOption
  refine .keyword (fun k => ?_) ?_
  · split <;> infer_instance
  · infer_instance

instance {d : ProcessStepDraft} : Reads g plain (processStepStatement d) .ends := by
  unfold processStepStatement
  refine .keyword (fun k => ?_) ?_
  · split <;> infer_instance
  · infer_instance

instance : Reads g plain singleStep .ends := by
  unfold singleStep
  infer_instance

theorem Agree.parallelStep {member member' : Parser (Option ProcessStep)}
    (h : Agree r .block false member member' id fun v => if v.isSome then .ends else .stays) :
    Agree r g plain (Parser.parallelStep member) (Parser.parallelStep member') id
      fun _ => .ends := by
  refine .here fun l l' => .bind (Reads.agree r) fun n => ?_
  rw [id]
  exact .bind_still (.block (f := id) (fun _ => .attempt h) [])

instance : Tries g plain step? where
  agree r := .onLevel <| .weaken <| .nested fun h => .look (Tries.agree r) <|
    .look (.tries (.advance (.bind_still (.parallelStep h.onLevel)))) (Tries.agree r)

set_option synthInstance.maxSize 512 in
instance : Reads g plain entityEvent .stays := by
  unfold entityEvent
  infer_instance

set_option synthInstance.maxSize 512 in
instance : Reads g plain processTrigger .stays := by
  unfold processTrigger
  infer_instance

instance : Reads g plain compensation .ends := by
  unfold compensation
  infer_instance

instance : Reads g plain overlapPolicy .stays := by
  unfold overlapPolicy
  infer_instance

instance {p : Process} : Reads g plain (processDirective p) .ends := by
  unfold processDirective
  refine .keyword (fun k => ?_) ?_
  · split <;> infer_instance
  · infer_instance

instance {p : Process} : Reads g plain (processStatement p) .ends := by
  unfold processStatement
  infer_instance

instance {d : ScheduleDraft} : Reads g plain (scheduleDirective d) .ends := by
  unfold scheduleDirective
  refine .keyword (fun k => ?_) ?_
  · split <;> infer_instance
  · infer_instance

instance {d : ScheduleDraft} : Reads g plain (scheduleStatement d) .ends := by
  unfold scheduleStatement
  infer_instance

/-! ## Streams -/

instance {schemas : List StreamSchema} : Reads g plain (anotherSchema schemas) .ends := by
  unfold anotherSchema
  infer_instance

instance {s : Stream} : Reads g plain (streamStatement s) .ends := by
  unfold streamStatement
  refine .keyword (fun k => ?_) ?_
  · split <;> infer_instance
  · infer_instance

end Blueprint.Parser
