import Blueprint.Declaration.Encode
import Blueprint.Proofs.Json.Expressions

/-!
# The JSON form of constructs

Whatever else can be declared, different declarations of a kind have different JSON forms. The steps
of a process form trees: a step that holds others is told from a single one by its task, and steps
are compared by recursion on the first of two.
-/

namespace Blueprint

open Json (Settles eq_of_obj_eq tag_eq eq_of_tagged_eq)

/-! ## Surfaces and workspaces -/

instance : Faithful SurfaceMode := .spelled (by rintro ⟨⟩ ⟨⟩ <;> decide)
instance : Faithful SurfaceElement := ⟨by rintro ⟨⟩ ⟨⟩ h; cases eq_of_obj_eq h (by decide); rfl⟩
instance : Faithful SurfaceSection := ⟨by rintro ⟨⟩ ⟨⟩ h; cases eq_of_obj_eq h (by decide); rfl⟩
instance : Faithful OutcomeKind := .spelled (by rintro ⟨⟩ ⟨⟩ <;> decide)
instance : Faithful Outcome := ⟨by rintro ⟨⟩ ⟨⟩ h; cases eq_of_obj_eq h (by decide); rfl⟩
instance : Faithful SurfaceAction := ⟨by rintro ⟨⟩ ⟨⟩ h; cases eq_of_obj_eq h (by decide); rfl⟩
instance : Faithful SortKey := ⟨by rintro ⟨⟩ ⟨⟩ h; cases eq_of_obj_eq h (by decide); rfl⟩
instance : Faithful AttentionLevel := .spelled (by rintro ⟨⟩ ⟨⟩ <;> decide)
instance : Faithful AttentionSignal := ⟨by rintro ⟨⟩ ⟨⟩ h; cases eq_of_obj_eq h (by decide); rfl⟩

instance : Faithful PersonaScope := ⟨by
  rintro ⟨⟩ ⟨⟩ h <;>
    first
    | exact absurd (tag_eq h) (by decide)
    | (cases eq_of_tagged_eq h (by decide); rfl)⟩

instance : Faithful PersonaVariant := ⟨by rintro ⟨⟩ ⟨⟩ h; cases eq_of_obj_eq h (by decide); rfl⟩
instance : Faithful Presentation := ⟨by rintro ⟨⟩ ⟨⟩ h; cases eq_of_obj_eq h (by decide); rfl⟩
instance : Faithful SurfaceAccess := ⟨by rintro ⟨⟩ ⟨⟩ h; cases eq_of_obj_eq h (by decide); rfl⟩
instance : Faithful Surface := ⟨by rintro ⟨⟩ ⟨⟩ h; cases eq_of_obj_eq h (by decide); rfl⟩

instance : Faithful WorkspaceAccess := ⟨by
  rintro ⟨⟩ ⟨⟩ h <;>
    first
    | exact absurd (tag_eq h) (by decide)
    | (cases eq_of_tagged_eq h (by decide); rfl)⟩

instance : Faithful DisplayMode := .spelled (by rintro ⟨⟩ ⟨⟩ <;> decide)
instance : Faithful RegionAggregate := ⟨by rintro ⟨⟩ ⟨⟩ h; cases eq_of_obj_eq h (by decide); rfl⟩
instance : Faithful Region := ⟨by rintro ⟨⟩ ⟨⟩ h; cases eq_of_obj_eq h (by decide); rfl⟩
instance : Faithful Workspace := ⟨by rintro ⟨⟩ ⟨⟩ h; cases eq_of_obj_eq h (by decide); rfl⟩

/-! ## Experiences -/

instance : Faithful StepKind := .spelled (by rintro ⟨⟩ ⟨⟩ <;> decide)
instance : Faithful StepTransition := ⟨by rintro ⟨⟩ ⟨⟩ h; cases eq_of_obj_eq h (by decide); rfl⟩
instance : Faithful ExperienceStep := ⟨by rintro ⟨⟩ ⟨⟩ h; cases eq_of_obj_eq h (by decide); rfl⟩
instance : Faithful Experience := ⟨by rintro ⟨⟩ ⟨⟩ h; cases eq_of_obj_eq h (by decide); rfl⟩

/-! ## Services and integrations -/

instance : Faithful SpecSource := ⟨by
  rintro ⟨⟩ ⟨⟩ h <;>
    first
    | exact absurd (tag_eq h) (by decide)
    | (cases eq_of_tagged_eq h (by decide); rfl)⟩

instance : Faithful AuthProfile := ⟨by
  rintro ⟨kind, options⟩ ⟨kind', options'⟩ h
  obtain ⟨hkind, hoptions⟩ := Prod.mk.inj (eq_of_obj_eq h (by decide))
  have hpair : Function.Injective fun p : String × String => [p.1, p.2] := by
    rintro ⟨key, value⟩ ⟨key', value'⟩ hp
    cases hp
    rfl
  cases hkind
  cases List.map_injective_iff.2 hpair hoptions
  rfl⟩

instance : Faithful DomainServiceKind := .spelled (by rintro ⟨⟩ ⟨⟩ <;> decide)

instance : Faithful ServiceBody := ⟨by
  rintro ⟨⟩ ⟨⟩ h <;>
    first
    | exact absurd (tag_eq h) (by decide)
    | (cases eq_of_tagged_eq h (by decide); rfl)⟩

instance : Faithful Service := ⟨by rintro ⟨⟩ ⟨⟩ h; cases eq_of_obj_eq h (by decide); rfl⟩
instance : Faithful ForeignConstraint := .spelled (by rintro ⟨⟩ ⟨⟩ <;> decide)
instance : Faithful ForeignModel := ⟨by rintro ⟨⟩ ⟨⟩ h; cases eq_of_obj_eq h (by decide); rfl⟩
instance : Faithful MappingRule := ⟨by rintro ⟨⟩ ⟨⟩ h; cases eq_of_obj_eq h (by decide); rfl⟩
instance : Faithful ResponseMapping := ⟨by rintro ⟨⟩ ⟨⟩ h; cases eq_of_obj_eq h (by decide); rfl⟩

instance : Faithful IntegrationAction := ⟨by
  rintro ⟨_, _, _, ⟨⟩, _, _⟩ ⟨_, _, _, ⟨⟩, _, _⟩ h
  cases eq_of_obj_eq h (by decide)
  rfl⟩

instance : Faithful SyncMode := ⟨by
  rintro ⟨⟩ ⟨⟩ h <;>
    first
    | exact absurd (tag_eq h) (by decide)
    | (cases eq_of_tagged_eq h (by decide); rfl)⟩

instance : Faithful MatchRule := ⟨by rintro ⟨⟩ ⟨⟩ h; cases eq_of_obj_eq h (by decide); rfl⟩

instance : Faithful IntegrationSync := ⟨by
  rintro ⟨_, _, ⟨⟩, _, _, _⟩ ⟨_, _, ⟨⟩, _, _, _⟩ h
  cases eq_of_obj_eq h (by decide)
  rfl⟩

instance : Faithful Integration := ⟨by rintro ⟨⟩ ⟨⟩ h; cases eq_of_obj_eq h (by decide); rfl⟩

/-! ## Tests and flows -/

instance : Faithful Assignment := ⟨by rintro ⟨⟩ ⟨⟩ h; cases eq_of_obj_eq h (by decide); rfl⟩
instance : Faithful TestOperation := .spelled (by rintro ⟨⟩ ⟨⟩ <;> decide)
instance : Faithful SetupStep := ⟨by rintro ⟨⟩ ⟨⟩ h; cases eq_of_obj_eq h (by decide); rfl⟩
instance : Faithful TestAction := ⟨by rintro ⟨⟩ ⟨⟩ h; cases eq_of_obj_eq h (by decide); rfl⟩
instance : Faithful Expectation := ⟨by rintro ⟨⟩ ⟨⟩ h; cases eq_of_obj_eq h (by decide); rfl⟩
instance : Faithful TestCase := ⟨by rintro ⟨⟩ ⟨⟩ h; cases eq_of_obj_eq h (by decide); rfl⟩
instance : Faithful FlowPriority := .spelled (by rintro ⟨⟩ ⟨⟩ <;> decide)
instance : Faithful FlowPreconditions := ⟨by rintro ⟨⟩ ⟨⟩ h; cases eq_of_obj_eq h (by decide); rfl⟩

instance : Faithful FlowStep := ⟨by
  rintro ⟨⟩ ⟨⟩ h <;>
    first
    | exact absurd (tag_eq h) (by decide)
    | (cases eq_of_tagged_eq h (by decide); rfl)⟩

instance : Faithful Flow := ⟨by rintro ⟨⟩ ⟨⟩ h; cases eq_of_obj_eq h (by decide); rfl⟩

/-! ## Personas and stories -/

instance : Faithful Proficiency := .spelled (by rintro ⟨⟩ ⟨⟩ <;> decide)
instance : Faithful Persona := ⟨by rintro ⟨⟩ ⟨⟩ h; cases eq_of_obj_eq h (by decide); rfl⟩
instance : Faithful ScenarioEntry := ⟨by rintro ⟨⟩ ⟨⟩ h; cases eq_of_obj_eq h (by decide); rfl⟩
instance : Faithful Scenario := ⟨by rintro ⟨⟩ ⟨⟩ h; cases eq_of_obj_eq h (by decide); rfl⟩
instance : Faithful StoryTrigger := .spelled (by rintro ⟨⟩ ⟨⟩ <;> decide)
instance : Faithful StoryStatus := .spelled (by rintro ⟨⟩ ⟨⟩ <;> decide)
instance : Faithful UnlessClause := ⟨by rintro ⟨⟩ ⟨⟩ h; cases eq_of_obj_eq h (by decide); rfl⟩
instance : Faithful Story := ⟨by rintro ⟨⟩ ⟨⟩ h; cases eq_of_obj_eq h (by decide); rfl⟩

/-! ## Language models -/

instance : Faithful LlmProvider := .spelled (by rintro ⟨⟩ ⟨⟩ <;> decide)
instance : Faithful ModelTier := .spelled (by rintro ⟨⟩ ⟨⟩ <;> decide)
instance : Faithful LlmModel := ⟨by rintro ⟨⟩ ⟨⟩ h; cases eq_of_obj_eq h (by decide); rfl⟩
instance : Faithful ArtifactStore := .spelled (by rintro ⟨⟩ ⟨⟩ <;> decide)
instance : Faithful LlmLogging := ⟨by rintro ⟨⟩ ⟨⟩ h; cases eq_of_obj_eq h (by decide); rfl⟩
instance : Faithful RateLimit := ⟨by rintro ⟨⟩ ⟨⟩ h; cases eq_of_obj_eq h (by decide); rfl⟩
instance : Faithful LlmConfig := ⟨by rintro ⟨⟩ ⟨⟩ h; cases eq_of_obj_eq h (by decide); rfl⟩
instance : Faithful BackoffStrategy := .spelled (by rintro ⟨⟩ ⟨⟩ <;> decide)
instance : Faithful RetryPolicy := ⟨by rintro ⟨⟩ ⟨⟩ h; cases eq_of_obj_eq h (by decide); rfl⟩
instance : Faithful PiiAction := .spelled (by rintro ⟨⟩ ⟨⟩ <;> decide)
instance : Faithful PiiPolicy := ⟨by rintro ⟨⟩ ⟨⟩ h; cases eq_of_obj_eq h (by decide); rfl⟩
instance : Faithful LlmIntent := ⟨by rintro ⟨⟩ ⟨⟩ h; cases eq_of_obj_eq h (by decide); rfl⟩

/-! ## Ledgers and transactions -/

instance : Faithful AccountType := .spelled (by rintro ⟨⟩ ⟨⟩ <;> decide)
instance : Faithful SyncTarget := ⟨by rintro ⟨⟩ ⟨⟩ h; cases eq_of_obj_eq h (by decide); rfl⟩
instance : Faithful Ledger := ⟨by rintro ⟨⟩ ⟨⟩ h; cases eq_of_obj_eq h (by decide); rfl⟩
instance : Faithful ExecutionMode := .spelled (by rintro ⟨⟩ ⟨⟩ <;> decide)
instance : Faithful TransactionPriority := .spelled (by rintro ⟨⟩ ⟨⟩ <;> decide)
instance : Faithful Transfer := ⟨by rintro ⟨⟩ ⟨⟩ h; cases eq_of_obj_eq h (by decide); rfl⟩
instance : Faithful Transaction := ⟨by rintro ⟨⟩ ⟨⟩ h; cases eq_of_obj_eq h (by decide); rfl⟩

/-! ## Processes and schedules -/

instance : Faithful EntityEvent := ⟨by
  rintro ⟨⟩ ⟨⟩ h <;>
    first
    | exact absurd (tag_eq h) (by decide)
    | (cases eq_of_tagged_eq h (by decide); rfl)⟩

instance : Faithful ProcessTrigger := ⟨by
  rintro ⟨⟩ ⟨⟩ h <;>
    first
    | exact absurd (tag_eq h) (by decide)
    | (cases eq_of_tagged_eq h (by decide); rfl)⟩

instance : Faithful TaskOutcome := ⟨by rintro ⟨⟩ ⟨⟩ h; cases eq_of_obj_eq h (by decide); rfl⟩

instance (t t' : HumanTask) : Settles t.members t'.members
    ["surface", "assignee_role", "outcomes"] t t' := by
  unfold HumanTask.members
  refine .imp inferInstance ?_
  cases t
  cases t'
  rintro ⟨⟩
  rfl

instance : Faithful StepTask := ⟨by
  rintro ⟨⟩ ⟨⟩ h <;>
    first
    | exact absurd (tag_eq h) (by decide)
    | (cases eq_of_tagged_eq h (by decide); rfl)⟩

instance (o o' : StepOptions) : Settles o.members o'.members
    ["condition", "timeout", "retry", "on_success", "on_failure", "on_timeout"] o o' := by
  unfold StepOptions.members
  refine .imp inferInstance ?_
  cases o
  cases o'
  rintro ⟨⟩
  rfl

/-- The task of a single step is told from a group of steps by its kind. -/
theorem ProcessStep.toJson_single_ne_parallel {name name' : String} {task : StepTask}
    {branches : List ProcessStep} {options options' : StepOptions} :
    (single name task options).toJson ≠ (parallel name' branches options').toJson := by
  intro h
  have h' : Json.obj (Json.field "name" name ++ Json.field "kind" (encode task) ++
      options.members) = (parallel name' branches options').toJson := h
  have hparts := eq_of_obj_eq h' (by decide)
  simp only [Prod.mk.injEq] at hparts
  obtain ⟨⟨-, hkind⟩, -⟩ := hparts
  cases task <;> exact absurd (tag_eq hkind) (by decide)

mutual

theorem ProcessStep.eq_of_toJson_eq : ∀ s t : ProcessStep, s.toJson = t.toJson → s = t
  | .single _ _ _, t, h => by
    cases t with
    | single => cases eq_of_obj_eq h (by decide); rfl
    | parallel => exact absurd h ProcessStep.toJson_single_ne_parallel
  | .parallel _ branches _, t, h => by
    cases t with
    | single => exact absurd h.symm ProcessStep.toJson_single_ne_parallel
    | parallel _ branches' _ =>
      have hparts := eq_of_obj_eq h (by decide)
      simp only [Prod.mk.injEq] at hparts
      obtain ⟨⟨rfl, hkind⟩, rfl⟩ := hparts
      have hbranches : ProcessStep.listToJson branches = ProcessStep.listToJson branches' := by
        simpa using (List.cons.inj (Json.obj.inj hkind)).2
      rw [ProcessStep.eq_of_listToJson_eq branches branches' hbranches]

theorem ProcessStep.eq_of_listToJson_eq : ∀ ss ts : List ProcessStep,
    ProcessStep.listToJson ss = ProcessStep.listToJson ts → ss = ts
  | [], [], _ => rfl
  | s :: ss, t :: ts, h => by
    obtain ⟨hs, hss⟩ := List.cons.inj h
    rw [ProcessStep.eq_of_toJson_eq s t hs, ProcessStep.eq_of_listToJson_eq ss ts hss]

end

instance : Faithful ProcessStep := ⟨ProcessStep.eq_of_toJson_eq _ _⟩

instance : Faithful Compensation := ⟨by rintro ⟨⟩ ⟨⟩ h; cases eq_of_obj_eq h (by decide); rfl⟩
instance : Faithful OverlapPolicy := .spelled (by rintro ⟨⟩ ⟨⟩ <;> decide)
instance : Faithful Process := ⟨by rintro ⟨⟩ ⟨⟩ h; cases eq_of_obj_eq h (by decide); rfl⟩

instance : Faithful ScheduleTiming := ⟨by
  rintro ⟨⟩ ⟨⟩ h <;>
    first
    | exact absurd (tag_eq h) (by decide)
    | (cases eq_of_tagged_eq h (by decide); rfl)⟩

instance : Faithful Schedule := ⟨by rintro ⟨⟩ ⟨⟩ h; cases eq_of_obj_eq h (by decide); rfl⟩

/-! ## Streams -/

instance : Faithful StreamKind := .spelled (by rintro ⟨⟩ ⟨⟩ <;> decide)
instance : Faithful OrderingScope := .spelled (by rintro ⟨⟩ ⟨⟩ <;> decide)
instance : Faithful StreamSchema := ⟨by rintro ⟨⟩ ⟨⟩ h; cases eq_of_obj_eq h (by decide); rfl⟩
instance : Faithful Stream := ⟨by rintro ⟨⟩ ⟨⟩ h; cases eq_of_obj_eq h (by decide); rfl⟩

/-! ## Interfaces to others -/

instance : Faithful ApiStyle := .spelled (by rintro ⟨⟩ ⟨⟩ <;> decide)
instance : Faithful ApiAuth := .spelled (by rintro ⟨⟩ ⟨⟩ <;> decide)
instance : Faithful ApiExposure := ⟨by rintro ⟨⟩ ⟨⟩ h; cases eq_of_obj_eq h (by decide); rfl⟩
instance : Faithful ApiInterface := ⟨by rintro ⟨⟩ ⟨⟩ h; cases eq_of_obj_eq h (by decide); rfl⟩
instance : Faithful WebhookEvent := .spelled (by rintro ⟨⟩ ⟨⟩ <;> decide)
instance : Faithful WebhookAuthMethod := .spelled (by rintro ⟨⟩ ⟨⟩ <;> decide)
instance : Faithful WebhookAuth := ⟨by rintro ⟨⟩ ⟨⟩ h; cases eq_of_obj_eq h (by decide); rfl⟩
instance : Faithful PayloadFormat := .spelled (by rintro ⟨⟩ ⟨⟩ <;> decide)
instance : Faithful WebhookPayload := ⟨by rintro ⟨⟩ ⟨⟩ h; cases eq_of_obj_eq h (by decide); rfl⟩
instance : Faithful Webhook := ⟨by rintro ⟨⟩ ⟨⟩ h; cases eq_of_obj_eq h (by decide); rfl⟩

/-! ## Policies -/

instance : Faithful DataClass := .spelled (by rintro ⟨⟩ ⟨⟩ <;> decide)
instance : Faithful Classification := ⟨by rintro ⟨⟩ ⟨⟩ h; cases eq_of_obj_eq h (by decide); rfl⟩
instance : Faithful ErasureMode := .spelled (by rintro ⟨⟩ ⟨⟩ <;> decide)
instance : Faithful Erasure := ⟨by rintro ⟨⟩ ⟨⟩ h; cases eq_of_obj_eq h (by decide); rfl⟩
instance : Faithful Policies := ⟨by rintro ⟨⟩ ⟨⟩ h; cases eq_of_obj_eq h (by decide); rfl⟩
instance : Faithful TenancyMode := .spelled (by rintro ⟨⟩ ⟨⟩ <;> decide)
instance : Faithful IsolationLevel := .spelled (by rintro ⟨⟩ ⟨⟩ <;> decide)
instance : Faithful Provisioning := .spelled (by rintro ⟨⟩ ⟨⟩ <;> decide)
instance : Faithful Tenancy := ⟨by rintro ⟨⟩ ⟨⟩ h; cases eq_of_obj_eq h (by decide); rfl⟩

/-! ## Views and data products -/

instance : Faithful ViewField := ⟨by rintro ⟨⟩ ⟨⟩ h; cases eq_of_obj_eq h (by decide); rfl⟩
instance : Faithful View := ⟨by rintro ⟨⟩ ⟨⟩ h; cases eq_of_obj_eq h (by decide); rfl⟩
instance : Faithful RefreshCadence := .spelled (by rintro ⟨⟩ ⟨⟩ <;> decide)
instance : Faithful DataProduct := ⟨by rintro ⟨⟩ ⟨⟩ h; cases eq_of_obj_eq h (by decide); rfl⟩

/-! ## Approvals -/

instance : Faithful TimeoutAction := .spelled (by rintro ⟨⟩ ⟨⟩ <;> decide)
instance : Faithful ApprovalOutcome := ⟨by rintro ⟨⟩ ⟨⟩ h; cases eq_of_obj_eq h (by decide); rfl⟩
instance : Faithful Approval := ⟨by rintro ⟨⟩ ⟨⟩ h; cases eq_of_obj_eq h (by decide); rfl⟩
instance : Faithful SlaTier := ⟨by rintro ⟨⟩ ⟨⟩ h; cases eq_of_obj_eq h (by decide); rfl⟩
instance : Faithful FieldAssignment := ⟨by rintro ⟨⟩ ⟨⟩ h; cases eq_of_obj_eq h (by decide); rfl⟩
instance : Faithful BreachAction := ⟨by rintro ⟨⟩ ⟨⟩ h; cases eq_of_obj_eq h (by decide); rfl⟩
instance : Faithful Sla := ⟨by rintro ⟨⟩ ⟨⟩ h; cases eq_of_obj_eq h (by decide); rfl⟩

end Blueprint
