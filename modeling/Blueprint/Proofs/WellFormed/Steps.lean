import Blueprint.Api.Grammar
import Blueprint.Process.Grammar
import Blueprint.Proofs.WellFormed.Fields

/-!
# Steps and attempts that are read are well-formed

Steps stand inside of parallel steps, so that what holds of a step and all steps inside it is proved
for one round of the recursion from the same of the next (`step?_gives`).
-/

namespace Blueprint

/-! ## Names without repetition -/

theorem firstRepeated?_eq_none_iff {seen l : List String} :
    firstRepeated? seen l = none ↔ l.Nodup ∧ ∀ n ∈ l, n ∉ seen := by
  induction l generalizing seen with
  | nil => simp [firstRepeated?]
  | cons n l ih =>
    rw [firstRepeated?]
    split
    · next hn =>
      rw [List.contains_iff_mem] at hn
      exact iff_of_false nofun fun h => h.2 n List.mem_cons_self hn
    · next hn =>
      rw [List.contains_iff_mem] at hn
      rw [ih, List.nodup_cons, List.forall_mem_cons]
      constructor
      · rintro ⟨hl, hnot⟩
        refine ⟨⟨fun hmem => hnot n hmem List.mem_cons_self, hl⟩, hn, fun a ha hseen => ?_⟩
        exact hnot a ha (List.mem_cons_of_mem n hseen)
      · rintro ⟨⟨hnl, hl⟩, -, hnot⟩
        refine ⟨hl, fun a ha hseen => ?_⟩
        rcases List.mem_cons.1 hseen with rfl | hseen
        · exact hnl ha
        · exact hnot a ha hseen

theorem Attempts.WellFormed.none : Attempts.WellFormed none := nofun

/-! ## Lists of steps -/

namespace Steps.WellFormed

variable {steps : List ProcessStep} {s : ProcessStep}

theorem nil : Steps.WellFormed [] := by
  intro s hs
  rw [ProcessStep.flattenAll] at hs
  cases hs

theorem flattenAll_append (l l' : List ProcessStep) : ProcessStep.flattenAll (l ++ l') =
    ProcessStep.flattenAll l ++ ProcessStep.flattenAll l' := by
  induction l with
  | nil => rw [ProcessStep.flattenAll]; rfl
  | cons s l ih =>
    rw [List.cons_append, ProcessStep.flattenAll, ProcessStep.flattenAll, ih, List.append_assoc]

theorem concat (h : Steps.WellFormed steps) (hs : Steps.WellFormed [s]) :
    Steps.WellFormed (steps ++ [s]) := by
  intro a ha
  rw [flattenAll_append] at ha
  rcases List.mem_append.1 ha with ha | ha
  · exact h a ha
  · exact hs a ha

theorem singleton_iff : Steps.WellFormed [s] ↔ ∀ a ∈ s.flatten, a.WellFormed := by
  unfold Steps.WellFormed
  rw [ProcessStep.flattenAll, ProcessStep.flattenAll, List.append_nil]

theorem parallel {n : String} (h : Steps.WellFormed steps) (htwo : 2 ≤ steps.length) :
    Steps.WellFormed [.parallel n steps] := by
  rw [singleton_iff, ProcessStep.flatten]
  exact List.forall_mem_cons.2 ⟨⟨.none, htwo⟩, h⟩

theorem single {n : String} {task : StepTask} {o : StepOptions}
    (h : Attempts.WellFormed o.retry) : Steps.WellFormed [.single n task o] := by
  rw [singleton_iff, ProcessStep.flatten]
  exact List.forall_mem_singleton.2 h

end Steps.WellFormed

namespace Parser

/-! ## Attempts -/

theorem retryPolicy_gives : Gives retryPolicy fun p => Attempts.WellFormed (some p) := by
  unfold retryPolicy
  refine .seq fun p => .ite (fun _ => .fail) fun h => .pure ?_
  rintro _ ⟨⟩
  exact Nat.one_le_iff_ne_zero.2 h

theorem stepOption_gives {o : StepOptions} (h : Attempts.WellFormed o.retry) :
    Gives (stepOption o) fun o => Attempts.WellFormed o.retry := by
  unfold stepOption
  refine .statement .retry h ?_ fun k hk => ?_
  · exact .seq fun _ => retryPolicy_gives.bind fun _ h => .pure h
  · split <;> first | exact absurd rfl hk | infer_instance

theorem llmIntentStatement_gives {d : LlmIntentDraft} (h : Attempts.WellFormed d.retry) :
    Gives (llmIntentStatement d) fun d => Attempts.WellFormed d.retry := by
  unfold llmIntentStatement
  refine .statement .retry h ?_ fun k hk => ?_
  · exact .seq fun _ => retryPolicy_gives.bind fun _ h => .pure h
  · split <;> first | exact absurd rfl hk | infer_instance

theorem llmIntent_gives : Gives llmIntent fun i => Attempts.WellFormed i.retry := by
  unfold llmIntent
  refine .seq fun _ => .seq fun _ => .seq fun (n, title) => ?_
  refine .bind (.block Attempts.WellFormed.none fun _ => llmIntentStatement_gives) fun d h => ?_
  exact .seq fun _ => .pure h

theorem webhookStatement_gives {d : WebhookDraft} (h : Attempts.WellFormed d.retry) :
    Gives (webhookStatement d) fun d => Attempts.WellFormed d.retry := by
  unfold webhookStatement
  refine .statement .retry h ?_ fun k hk => ?_
  · exact .seq fun _ => retryPolicy_gives.bind fun _ h => .pure h
  · split <;> first | exact absurd rfl hk | infer_instance

theorem webhook_gives : Gives webhook Webhook.WellFormed := by
  unfold webhook
  refine .seq fun _ => .seq fun _ => .seq fun (n, title) => ?_
  refine .bind (.block Attempts.WellFormed.none fun _ => webhookStatement_gives) fun d h => ?_
  refine .seq fun _ => .seq fun _ => .ite (fun _ => .failIn) fun hne => .pure ⟨?_, h⟩
  rwa [List.isEmpty_iff] at hne

/-! ## Steps -/

theorem processStepStatement_gives {d : ProcessStepDraft}
    (h : Attempts.WellFormed d.options.retry) :
    Gives (processStepStatement d) fun d => Attempts.WellFormed d.options.retry := by
  have hoption : Gives (do return { d with options := ← stepOption d.options }) fun d =>
      Attempts.WellFormed d.options.retry :=
    (stepOption_gives h).bind fun _ h => .pure h
  unfold processStepStatement
  refine .seq fun k => ?_
  split
  · exact Keeps.of inferInstance h
  · exact Keeps.of inferInstance h
  · exact Keeps.of inferInstance h
  · exact Keeps.of inferInstance h
  · exact hoption

theorem singleStep_gives : Gives singleStep fun s => Steps.WellFormed [s] := by
  unfold singleStep
  refine .seq fun _ => .seq fun n => ?_
  refine .bind (.block Attempts.WellFormed.none fun _ => processStepStatement_gives) fun d h => ?_
  exact .seq fun _ => .pure (.single h)

theorem parallelStep_gives {member : Parser (Option ProcessStep)}
    (hmember : Gives member fun o => ∀ s, o = some s → Steps.WellFormed [s]) :
    Gives (parallelStep member) fun s => Steps.WellFormed [s] := by
  unfold parallelStep
  refine .seq fun _ => .seq fun n => .bind (.block (I := Steps.WellFormed) .nil ?_) ?_
  · intro l hl
    refine hmember.bind fun o ho => ?_
    cases o with
    | some s => exact .pure (hl.concat (ho s rfl))
    | none => exact .passOver hl
  · intro branches h
    exact .ite (fun _ => .failIn) fun htwo => .pure (h.parallel (Nat.not_lt.1 htwo))

/-- A step and all steps inside it are well-formed. -/
theorem step?_gives : Gives step? fun o => ∀ s, o = some s → Steps.WellFormed [s] := by
  unfold step?
  refine .nested fun member hmember => ?_
  refine .seq fun _ => .ite (fun _ => ?_) fun _ => .seq fun _ => .ite (fun _ => ?_) fun _ => .none
  · exact .seq fun _ => singleStep_gives.bind fun _ h => .some h
  · exact .seq fun _ => (parallelStep_gives hmember).bind fun _ h => .some h

/-! ## Processes and schedules -/

/-- The steps and the fields of a process that is not read to its end. -/
structure ProcessSoFar (p : Process) : Prop where
  inputs : Fields.WellFormed p.inputs
  outputs : Fields.WellFormed p.outputs
  steps : Steps.WellFormed p.steps

theorem processDirective_gives {p : Process} (h : ProcessSoFar p) :
    Gives (processDirective p) ProcessSoFar := by
  unfold processDirective
  refine .seq fun k => ?_
  by_cases hinput : k = some .input
  · subst hinput
    exact .seq fun _ => fieldBlock_gives.bind fun _ hf => .pure ⟨hf, h.outputs, h.steps⟩
  by_cases houtput : k = some .output
  · subst houtput
    exact .seq fun _ => fieldBlock_gives.bind fun _ hf => .pure ⟨h.inputs, hf, h.steps⟩
  have hframe {r : Parser Process} (hr : Keeps r (fun p => (p.inputs, p.outputs, p.steps))
      (p.inputs, p.outputs, p.steps)) : Gives r ProcessSoFar := by
    refine hr.gives.mono fun q hq => ?_
    simp only [Prod.mk.injEq] at hq
    obtain ⟨hinputs, houtputs, hsteps⟩ := hq
    exact ⟨hinputs ▸ h.inputs, houtputs ▸ h.outputs, hsteps ▸ h.steps⟩
  split <;> first
    | exact absurd rfl hinput
    | exact absurd rfl houtput
    | exact hframe inferInstance

theorem processStatement_gives {p : Process} (h : ProcessSoFar p) :
    Gives (processStatement p) ProcessSoFar := by
  unfold processStatement
  refine step?_gives.bind fun o ho => ?_
  cases o with
  | some s => exact .pure ⟨h.inputs, h.outputs, h.steps.concat (ho s rfl)⟩
  | none => exact processDirective_gives h

theorem process_gives : Gives process Process.WellFormed := by
  unfold process
  refine .seq fun _ => .seq fun _ => .seq fun (n, title) => ?_
  refine .bind (.block ⟨.nil, .nil, .nil⟩ fun _ => processStatement_gives) fun p h => ?_
  refine .ite (fun _ => .failIn) fun _ => ?_
  split
  · exact .failIn
  · next hnone =>
    exact .pure ⟨h.inputs, h.outputs, h.steps, (firstRepeated?_eq_none_iff.1 hnone).1⟩

instance {d : ScheduleDraft} : Keeps (scheduleDirective d) (·.steps) d.steps := by
  unfold scheduleDirective
  refine .cases fun k => ?_
  split <;> infer_instance

theorem scheduleStatement_gives {d : ScheduleDraft} (h : Steps.WellFormed d.steps) :
    Gives (scheduleStatement d) fun d => Steps.WellFormed d.steps := by
  unfold scheduleStatement
  refine step?_gives.bind fun o ho => ?_
  cases o with
  | some s => exact .pure (h.concat (ho s rfl))
  | none => exact Keeps.of inferInstance h

theorem schedule_gives : Gives schedule fun s => Steps.WellFormed s.steps := by
  unfold schedule
  refine .seq fun _ => .seq fun _ => .seq fun (n, title) => ?_
  refine .bind (.block .nil fun _ => scheduleStatement_gives) fun d h => ?_
  exact .seq fun _ => .ite (fun _ => .failIn) fun _ => .pure h

end Parser

end Blueprint
