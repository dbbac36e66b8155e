import Blueprint.Approval.Grammar
import Blueprint.Experience.Grammar
import Blueprint.Integration.Grammar
import Blueprint.Ledger.Grammar
import Blueprint.Proofs.Results
import Blueprint.Proofs.WellFormed.Basic
import Blueprint.View.Grammar
import Blueprint.Workspace.Grammar

/-!
# Named parts that are read are well-formed

Actions, regions, steps, transfers, tiers and columns are read one after the other, and each is
compared with those before it.
-/

namespace Blueprint.Parser

/-! ## Surfaces -/

theorem addAction_gives {s : Surface} {a : SurfaceAction}
    (h : NamesApart SurfaceAction.name s.actions) :
    Gives (addAction s a) fun s => NamesApart SurfaceAction.name s.actions := by
  unfold addAction
  exact .ite (fun _ => .fail) fun hn => .pure (h.concat hn)

theorem surfaceStatement_gives {s : Surface} (h : NamesApart SurfaceAction.name s.actions) :
    Gives (surfaceStatement s) fun s => NamesApart SurfaceAction.name s.actions := by
  unfold surfaceStatement
  refine .statement .action h ?_ fun k hk => ?_
  · exact .seq fun _ => .seq fun a => addAction_gives h
  · split <;> first | exact absurd rfl hk | infer_instance

theorem surface_gives : Gives surface fun s => NamesApart SurfaceAction.name s.actions := by
  unfold surface
  refine .seq fun _ => .seq fun _ => .seq fun (n, title) => ?_
  exact .block .nil fun _ => surfaceStatement_gives

/-! ## Workspaces -/

theorem region_gives {regions : List Region} (h : NamesApart Region.name regions) :
    Gives (region regions) (NamesApart Region.name) := by
  unfold region
  refine .seq fun t => .seq fun n => .seq fun r => ?_
  exact .ite (fun _ => .failAt) fun hn => .pure (h.concat hn)

theorem workspaceStatement_gives {w : Workspace} (h : NamesApart Region.name w.regions) :
    Gives (workspaceStatement w) fun w => NamesApart Region.name w.regions := by
  have hregion : Gives (do
      if ← isAtRegion then return { w with regions := ← region w.regions } else passOver w)
      fun w => NamesApart Region.name w.regions :=
    .seq fun _ => .ite (fun _ => (region_gives h).bind fun _ h => .pure h) fun _ => .passOver h
  unfold workspaceStatement
  refine .seq fun opensLine => .seq fun k => ?_
  split
  · exact .seq fun _ => .ite (fun _ => .seq fun _ => .pure h) fun _ => hregion
  · exact .ite (fun _ => hregion) fun _ => .seq fun _ => .pure h
  · exact .ite (fun _ => hregion) fun _ => .seq fun _ => .pure h
  · exact hregion

theorem workspace_gives : Gives workspace fun w => NamesApart Region.name w.regions := by
  unfold workspace
  refine .seq fun _ => .seq fun _ => .seq fun (n, title) => ?_
  exact .block .nil fun _ => workspaceStatement_gives

/-! ## Experiences -/

theorem experienceStep_gives {steps : List ExperienceStep}
    (h : NamesApart ExperienceStep.name steps) :
    Gives (experienceStep steps) (NamesApart ExperienceStep.name) := by
  unfold experienceStep
  refine .seq fun t => .seq fun n => .seq fun d => ?_
  exact .ite (fun _ => .failAt) fun hn => .pure (h.concat hn)

theorem experienceStatement_gives {d : ExperienceDraft}
    (h : NamesApart ExperienceStep.name d.steps) :
    Gives (experienceStatement d) fun d => NamesApart ExperienceStep.name d.steps := by
  unfold experienceStatement
  refine .statement .step h ?_ fun k hk => ?_
  · exact .seq fun _ => (experienceStep_gives h).bind fun _ h => .pure h
  · split <;> first | exact absurd rfl hk | infer_instance

theorem experience_gives : Gives experience fun e => NamesApart ExperienceStep.name e.steps := by
  unfold experience
  refine .seq fun _ => .seq fun _ => .seq fun (n, title) => ?_
  refine .bind (.block .nil fun _ => experienceStatement_gives) fun d h => ?_
  exact .seq fun _ => .pure h

/-! ## Integrations -/

theorem anotherAction_gives {actions : List IntegrationAction}
    (h : NamesApart IntegrationAction.name actions) :
    Gives (anotherAction actions) (NamesApart IntegrationAction.name) := by
  unfold anotherAction
  refine .seq fun t => .seq fun a => ?_
  exact .ite (fun _ => .failAt) fun hn => .pure (h.concat hn)

instance {i : Integration} : Keeps (integrationUse i) (·.actions) i.actions := by
  unfold integrationUse
  infer_instance

theorem integrationStatement_gives {i : Integration}
    (h : NamesApart IntegrationAction.name i.actions) :
    Gives (integrationStatement i) fun i => NamesApart IntegrationAction.name i.actions := by
  unfold integrationStatement
  refine .statement .action h ?_ fun k hk => ?_
  · exact .seq fun _ => (anotherAction_gives h).bind fun _ h => .pure h
  · split <;> first | exact absurd rfl hk | infer_instance

theorem integration_gives :
    Gives integration fun i => NamesApart IntegrationAction.name i.actions := by
  unfold integration
  refine .seq fun _ => .seq fun _ => .seq fun (n, title) => ?_
  exact .block .nil fun _ => integrationStatement_gives

/-! ## Transactions -/

theorem transfer_gives : Gives transfer fun r => r.debit ≠ r.credit := by
  unfold transfer
  refine .seq fun _ => .seq fun n => .seq fun d => .seq fun debit => .seq fun credit => ?_
  refine .seq fun amount => .ite (fun _ => .failIn) fun hne => .pure ?_
  rwa [beq_iff_eq] at hne

/-- The transfers have names of their own, and each is between two ledgers. -/
structure TransfersSoFar (transfers : List Transfer) : Prop where
  names : NamesApart Transfer.name transfers
  ledgers : ∀ r ∈ transfers, r.debit ≠ r.credit

theorem anotherTransfer_gives {transfers : List Transfer} (h : TransfersSoFar transfers) :
    Gives (anotherTransfer transfers) TransfersSoFar := by
  unfold anotherTransfer
  refine .seq fun t => transfer_gives.bind fun r hr => .ite (fun _ => .failAt) fun hn => .pure ?_
  exact ⟨h.names.concat hn, forall_mem_concat h.ledgers hr⟩

theorem transactionStatement_gives {t : Transaction} (h : TransfersSoFar t.transfers) :
    Gives (transactionStatement t) fun t => TransfersSoFar t.transfers := by
  unfold transactionStatement
  refine .statement .transfer h ?_ fun k hk => ?_
  · exact .seq fun _ => (anotherTransfer_gives h).bind fun _ h => .pure h
  · split <;> first | exact absurd rfl hk | infer_instance

theorem transaction_gives : Gives transaction Transaction.WellFormed := by
  unfold transaction
  refine .seq fun _ => .seq fun _ => .seq fun (n, title) => ?_
  refine .bind (.block ⟨.nil, List.forall_mem_nil _⟩ fun _ => transactionStatement_gives) ?_
  intro t h
  refine .ite (fun _ => .failIn) fun hne => .pure ⟨?_, h.names, h.ledgers⟩
  rwa [List.isEmpty_iff] at hne

/-! ## Approvals and service levels -/

theorem quorum_gives : Gives quorum (1 ≤ ·) := by
  unfold quorum
  exact .seq fun t => .seq fun n => .ite (fun _ => .failAt) fun hn =>
    .pure (Nat.one_le_iff_ne_zero.2 hn)

theorem approvalStatement_gives {d : ApprovalDraft} (h : 1 ≤ d.quorum) :
    Gives (approvalStatement d) fun d => 1 ≤ d.quorum := by
  unfold approvalStatement
  refine .statement .quorum h ?_ fun k hk => ?_
  · exact .seq fun _ => quorum_gives.bind fun _ h => .pure h
  · split <;> first | exact absurd rfl hk | infer_instance

theorem approval_gives : Gives approval fun a => 1 ≤ a.quorum := by
  unfold approval
  refine .seq fun _ => .seq fun _ => .seq fun (n, title) => ?_
  refine .bind (.block (Nat.le_refl 1) fun _ => approvalStatement_gives) fun d h => ?_
  exact .seq fun _ => .seq fun _ => .pure h

theorem slaTier_gives {tiers : List SlaTier} (h : NamesApart SlaTier.name tiers) :
    Gives (slaTier tiers) (NamesApart SlaTier.name) := by
  unfold slaTier
  refine .seq fun t => .seq fun n => .ite (fun _ => .failAt) fun hn => .seq fun d => ?_
  exact .pure (h.concat hn)

theorem slaStatement_gives {d : SlaDraft} (h : NamesApart SlaTier.name d.tiers) :
    Gives (slaStatement d) fun d => NamesApart SlaTier.name d.tiers := by
  unfold slaStatement
  refine .statement .tiers h ?_ fun k hk => ?_
  · exact .seq fun _ => .bind (.block h fun _ => slaTier_gives) fun _ h => .pure h
  · split <;> first | exact absurd rfl hk | infer_instance

theorem sla_gives : Gives sla Sla.WellFormed := by
  unfold sla
  refine .seq fun _ => .seq fun _ => .seq fun (n, title) => ?_
  refine .bind (.block .nil fun _ => slaStatement_gives) fun d h => ?_
  refine .seq fun _ => .seq fun _ => .seq fun _ => .ite (fun _ => .failIn) fun hne => .pure ⟨?_, h⟩
  rwa [List.isEmpty_iff] at hne

/-! ## Views and data products -/

theorem viewField_gives {fields : List ViewField} (h : NamesApart ViewField.name fields) :
    Gives (viewField fields) (NamesApart ViewField.name) := by
  unfold viewField
  refine .seq fun t => .seq fun n => .ite (fun _ => .failAt) fun hn => ?_
  have hfield (expr : Option Computed) :
      Gives (closing (return fields ++ [⟨n, expr⟩])) (NamesApart ViewField.name) :=
    .closing (.pure (h.concat hn))
  exact .seq fun _ => .ite (fun _ => .seq fun _ => hfield _) fun _ => .seq fun _ => hfield _

theorem viewStatement_gives {d : ViewDraft} (h : NamesApart ViewField.name d.fields) :
    Gives (viewStatement d) fun d => NamesApart ViewField.name d.fields := by
  unfold viewStatement
  refine .statement .fields h ?_ fun k hk => ?_
  · exact .seq fun _ => .bind (.block h fun _ => viewField_gives) fun _ h => .pure h
  · split <;> first | exact absurd rfl hk | infer_instance

theorem view_gives : Gives view View.WellFormed := by
  unfold view
  refine .seq fun _ => .seq fun _ => .seq fun (n, title) => ?_
  refine .bind (.block .nil fun _ => viewStatement_gives) fun d h => ?_
  refine .seq fun _ => .ite (fun _ => .failIn) fun hne => .pure ⟨?_, h⟩
  rwa [List.isEmpty_iff] at hne

theorem dataProduct_gives : Gives dataProduct fun p => p.sources ≠ [] := by
  unfold dataProduct
  refine .seq fun _ => .seq fun _ => .seq fun (n, title) => .seq fun p => ?_
  refine .ite (fun _ => .failIn) fun hne => .pure ?_
  rwa [List.isEmpty_iff] at hne

theorem dataProducts_gives : Gives dataProducts fun l => ∀ p ∈ l, p.sources ≠ [] := by
  unfold dataProducts
  refine .seq fun _ => .block (List.forall_mem_nil _) fun l h => ?_
  refine .seq fun _ => .ite (fun _ => ?_) fun _ => .passOver h
  exact dataProduct_gives.bind fun _ hp => .pure (forall_mem_concat h hp)

end Blueprint.Parser
