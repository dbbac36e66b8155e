import Blueprint.Api.Grammar
import Blueprint.Approval.Grammar
import Blueprint.Module.Grammar
import Blueprint.Proofs.Grammar.Entities
import Blueprint.Proofs.Grammar.Processes
import Blueprint.View.Grammar

/-!
# Policies, interfaces, approvals, views and the application read the same
-/

namespace Blueprint.Parser

variable {g : Ground} [g.Level] {plain : Bool}

/-! ## Policies and tenancy -/

instance : Reads g plain dataClass .stays := by
  unfold dataClass
  infer_instance

instance : Reads g plain classification .stays := by
  unfold classification
  infer_instance

instance : Reads g plain erasure .ends := by
  unfold erasure
  infer_instance

instance {p : Policies} : Reads g plain (policiesStatement p) .ends := by
  unfold policiesStatement
  refine .keyword (fun k => ?_) ?_
  · split <;> infer_instance
  · infer_instance

instance {d : TenancyDraft} : Reads g plain (tenancyStatement d) .ends := by
  unfold tenancyStatement
  refine .keyword (fun k => ?_) ?_
  · split <;> infer_instance
  · infer_instance

/-! ## Interfaces and webhooks -/

instance {operations : List AccessOperation} :
    Reads g plain (anotherOperation operations) .stays := by
  unfold anotherOperation
  infer_instance

instance : Reads g plain exposure .ends := by
  unfold exposure
  infer_instance

instance {a : ApiInterface} : Reads g plain (apiStatement a) .ends := by
  unfold apiStatement
  refine .keyword (fun k => ?_) ?_
  · split <;> infer_instance
  · infer_instance

instance {events : List WebhookEvent} : Reads g plain (anotherEvent events) .stays := by
  unfold anotherEvent
  infer_instance

instance : Reads g plain webhookAuthMethod .stays := by
  unfold webhookAuthMethod
  infer_instance

instance : Reads g plain inlineAuth .stays := by
  unfold inlineAuth
  infer_instance

instance {d : WebhookAuthDraft} : Reads g plain (authStatement d) .ends := by
  unfold authStatement
  infer_instance

theorem kind_of_block {σ : Type} {statement : σ → Parser σ} {s v : σ} {scope : Scope}
    {ts rest : List Token} (h : block statement s scope ts = .ok (v, rest)) :
    (head scope ts).kind = .colon := by
  obtain ⟨_, _, hbegin, -⟩ := bind_eq_ok_iff.1 h
  obtain ⟨_, _, hcolon, -⟩ := bind_eq_ok_iff.1 hbegin
  exact (expect_eq_ok_iff.1 hcolon).1

theorem kind_of_directive {α : Type} {value : Parser α} {v : α} {scope : Scope}
    {ts rest : List Token} (h : directive value scope ts = .ok (v, rest)) :
    (head scope ts).kind = .colon := by
  obtain ⟨_, _, hcolon, -⟩ := bind_eq_ok_iff.1 h
  exact (expect_eq_ok_iff.1 hcolon).1

theorem kind_of_webhookAuth {v : WebhookAuth} {scope : Scope} {ts rest : List Token}
    (h : webhookAuth scope ts = .ok (v, rest)) : (head scope ts).kind = .colon := by
  unfold webhookAuth at h
  rw [bind_eq_ok (peekIs_apply _ _ _ _)] at h
  split at h
  · rw [bind_eq_ok (here_apply _ _)] at h
    obtain ⟨_, _, hblock, -⟩ := bind_eq_ok_iff.1 h
    exact kind_of_block hblock
  · exact kind_of_directive h

/-- Without a colon, neither form of authentication can follow, so that it does not matter how far
ahead the form is looked for. -/
instance : Reads g plain webhookAuth .ends := by
  have hstill (l : Location) (d : WebhookAuthDraft) : Still (match d.method with
      | some method => pure { method, secret := d.secret }
      | none => failIn l (.missingIn "webhook auth" "method") : Parser WebhookAuth) := by
    split <;> infer_instance
  have halike (l l' : Location) (d : WebhookAuthDraft) : Alike (match d.method with
      | some method => pure { method, secret := d.secret }
      | none => failIn l (.missingIn "webhook auth" "method") : Parser WebhookAuth)
      (match d.method with
      | some method => pure { method, secret := d.secret }
      | none => failIn l' (.missingIn "webhook auth" "method")) := by
    split <;> infer_instance
  have hreads : Reads g true webhookAuth .ends := by
    unfold webhookAuth
    infer_instance
  let guarded : Parser WebhookAuth := do
    if ← isAt .colon then webhookAuth else unexpected "authentication"
  have hguarded : Reads g plain guarded .ends := inferInstance
  have hrun {scope : Scope} {ts : List Token} (h : (head scope ts).kind = .colon) :
      guarded scope ts = webhookAuth scope ts := by
    show (isAt .colon >>= _) scope ts = _
    rw [bind_eq_ok (isAt_apply _ _ _), if_pos (beq_iff_eq.2 h)]
  refine .of_alike ⟨fun h => ?_⟩ ⟨fun {scope ts _ _} h => ?_⟩ hguarded
  · rw [hrun (kind_of_webhookAuth h)]
    exact h
  · by_cases hcolon : (head scope ts).kind = .colon
    · rw [← hrun hcolon]
      exact h
    · have h : (isAt .colon >>= _) scope ts = _ := h
      rw [bind_eq_ok (isAt_apply _ _ _), if_neg (by rwa [beq_iff_eq])] at h
      exact absurd h unexpected_ne_ok

instance {p : WebhookPayload} : Reads g plain (payloadStatement p) .ends := by
  unfold payloadStatement
  refine .keyword (fun k => ?_) ?_
  · split <;> infer_instance
  · infer_instance

instance {d : WebhookDraft} : Reads g plain (webhookStatement d) .ends := by
  unfold webhookStatement
  refine .keyword (fun k => ?_) ?_
  · split <;> infer_instance
  · infer_instance

/-! ## Approvals and service levels -/

instance : Reads g plain approvalOutcome .ends := by
  unfold approvalOutcome
  infer_instance

instance : Reads g plain quorum .ends := by
  unfold quorum
  infer_instance

instance {d : ApprovalDraft} : Reads g plain (approvalStatement d) .ends := by
  unfold approvalStatement
  refine .keyword (fun k => ?_) ?_
  · split <;> infer_instance
  · infer_instance

instance {tiers : List SlaTier} : Reads g plain (slaTier tiers) .ends := by
  unfold slaTier
  infer_instance

instance : Reads g plain fieldAssignment .stays := by
  unfold fieldAssignment
  infer_instance

instance {a : BreachAction} : Reads g plain (breachStatement a) .ends := by
  unfold breachStatement
  refine .keyword (fun k => ?_) ?_
  · split <;> infer_instance
  · infer_instance

instance {d : SlaDraft} : Reads g plain (slaStatement d) .ends := by
  unfold slaStatement
  refine .keyword (fun k => ?_) ?_
  · split <;> infer_instance
  · infer_instance

/-! ## Views and data products -/

instance {fields : List ViewField} : Reads g plain (viewField fields) .ends := by
  unfold viewField
  infer_instance

instance {d : ViewDraft} : Reads g plain (viewStatement d) .ends := by
  unfold viewStatement
  refine .keyword (fun k => ?_) ?_
  · split <;> infer_instance
  · infer_instance

instance {p : DataProduct} : Reads g plain (dataProductStatement p) .ends := by
  unfold dataProductStatement
  refine .keyword (fun k => ?_) ?_
  · split <;> infer_instance
  · infer_instance

/-! ## The application -/

instance {c : AppConfig} : Reads g plain (appStatement c) .ends := by
  let setting (key value : String) (ends : Bool) (t : Token) : Parser AppConfig := (do
      if ends then failAt t (.missingValue key)
      else
        endStatement
        return c.extensions.insert key value) >>= fun extensions => pure { c with extensions }
  have halike (key value : String) (ends : Bool) (t t' : Token) :
      Alike (setting key value ends t) (setting key value ends t') := inferInstance
  have hvalue (key : String) : Reads g false
      (advance >>= fun t => setting key t.text t.kind.endsStatement t) .ends := by
    have hblind : Blind fun t => setting key t.text t.kind.endsStatement t := by
      refine ⟨fun hk hx => ?_⟩
      rw [hk, hx]
      exact halike _ _ _ _ _
    refine .advance fun {t _ _ _ _} ht h => ?_
    obtain ⟨_, _, h, -⟩ := bind_eq_ok_iff.1 h
    rw [if_pos ht] at h
    exact failAt_ne_ok h
  have hkey : Blind fun key : Token => (do
      let _ ← expect .colon
      let t ← advance
      setting key.text t.text t.kind.endsStatement t) := by
    refine ⟨fun _ hx => ?_⟩
    rw [hx]
    exact .rfl
  have hother (plain : Bool) : Reads g plain (do
      if (← isAtWord) && (← peekIs 1 .colon) then
        return { c with extensions := ← extension c.extensions }
      else passOver c) .ends := by
    unfold extension
    simp only [bind_assoc]
    rw [look_and_peek (exists_peekIs _ _), advance_past (q := peekIs 1 .colon) kind_of_peekIs]
    infer_instance
  unfold appStatement
  refine .keyword (fun k => ?_) ?_
  · split <;> infer_instance
  · infer_instance

end Blueprint.Parser
