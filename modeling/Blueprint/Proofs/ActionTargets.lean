import Blueprint.Proofs.Unread

/-!
# Where calls of integrations lead

An action of a surface and a step of an experience may name an integration together with one of its
actions. The integration is looked up in both cases, so after linking it is declared. The action is
looked for only if a surface names it. The action that a step names is not looked at by any stage:
modules are linked alike whatever their steps name there (`linkModules_actions_lead`).
-/

namespace Blueprint

/-- The integration is declared and has the action. -/
def Declarations.Offers (d : Declarations) (integration action : String) : Prop :=
  ∃ i ∈ d.named .integration, Integration.name i = integration ∧
    ∃ a ∈ Integration.actions i, a.name = action

/-! ## What is looked up -/

section

variable {t : SymbolTable}

/-- Where an action of a surface leads is among the references of the surface. -/
theorem Surface.exists_reference {s : Surface} {a : SurfaceAction} {o : Outcome}
    (ha : a ∈ s.actions)
    (ho : a.outcome = some o) :
    ∃ r ∈ s.declaredReferences, r.kinds = [o.kind.declKind] ∧ r.name = o.target := by
  exact ⟨_, List.mem_append_right _ (List.mem_flatMap.2 ⟨a, ha,
    List.mem_map_of_mem (Option.mem_toList.2 ho)⟩), rfl, rfl⟩

/-- The integration of a step is among the references of the experience. -/
theorem Experience.exists_reference {e : Experience} {s : ExperienceStep} {i : String}
    (hs : s ∈ e.steps) (hi : s.integration = some i) :
    ∃ r ∈ e.declaredReferences, r.kinds = [.integration] ∧ r.name = i := by
  exact ⟨_, List.mem_flatMap.2 ⟨s, hs, List.mem_append_right _
    (List.mem_map_of_mem (Option.mem_toList.2 hi))⟩, rfl, rfl⟩

/-- A reference of valid declarations to a single kind leads to a declaration of it. -/
theorem Declarations.Valid.mem_namesOf {d : Declarations} (h : d.Valid t) {k k' : DeclKind}
    {body : k.Body} (hbody : body ∈ d.named k) {r : Reference} (hr : r ∈ k.references body)
    (hk : r.kinds = [k']) : r.name ∈ t.declarations.namesOf k' := by
  have hresolved := h.references r (Declarations.mem_references.2 ⟨k, .inl ⟨body, hbody, hr⟩⟩)
  obtain ⟨found, hmem, hname⟩ := Reference.isSome_resolve?_iff.1 hresolved
  rw [hk, List.mem_singleton] at hmem
  exact hmem ▸ hname

/-- If nothing is found wrong with an action of a surface, the integration that it leads to, if it
is declared, has the action that is named. -/
theorem SurfaceAction.offers_of_finding? {s : Surface} {a : SurfaceAction} {o : Outcome}
    {action : String} (h : a.finding? t s = none) (ho : a.outcome = some o)
    (hkind : o.kind = .integration) (haction : o.action = some action)
    (htarget : o.target ∈ t.declarations.namesOf .integration) :
    t.declarations.Offers o.target action := by
  obtain ⟨i, hi⟩ := Option.isSome_iff_exists.1 (SymbolTable.find?_isSome_iff.2 htarget)
  have hany := SurfaceAction.finding?_eq_none_iff.1 h o ho hkind action haction i hi
  obtain ⟨found, hfound, hname⟩ := List.any_eq_true.1 hany
  obtain ⟨hmem, hi⟩ := SymbolTable.find?_eq_some_iff.1 hi
  exact ⟨i, hmem, hi, found, hfound, eq_of_beq hname⟩

end

/-! ## What no stage looks at -/

/-- The experience without the actions that its steps name. -/
def Experience.withoutActions (e : Experience) : Experience :=
  { e with steps := e.steps.map fun s => { s with action := none } }

def DeclKind.withoutStepActions : (k : DeclKind) → k.Body → k.Body
  | .experience => Experience.withoutActions
  | _ => id

theorem Experience.references_withoutActions (e : Experience) :
    e.withoutActions.declaredReferences = e.declaredReferences := by
  unfold declaredReferences withoutActions
  rw [List.flatMap_map]

theorem Experience.findings_withoutActions (e : Experience) :
    e.withoutActions.findings = e.findings := by
  have hstep (name : String) : e.withoutActions.hasStep name = e.hasStep name := by
    unfold hasStep withoutActions
    rw [List.any_map]
    rfl
  unfold findings
  simp only [hstep]
  unfold withoutActions
  rw [List.flatMap_map]

theorem unnoticed_withoutStepActions : Unnoticed DeclKind.withoutStepActions where
  name k body := by cases k <;> rfl
  location k body := by cases k <;> rfl
  references k body := by
    cases k
    case experience => exact Experience.references_withoutActions body
    all_goals rfl
  kept := by
    simp only [DeclKind.lookedAt, List.forall_mem_cons]
    exact ⟨rfl, rfl, rfl, rfl, rfl, rfl, rfl, List.forall_mem_nil _⟩
  findings := Experience.findings_withoutActions

/-! ## Main result -/

/-- After linking, the integration that an action of a surface or a step of an experience names is
declared, and it has the action that is named if a surface names it. What actions the steps name
does not matter: with other ones in their place, the modules link as before. -/
theorem linkModules_actions_lead {modules : List Module} {l : Linked}
    (h : linkModules modules = .ok l) :
    (∀ s ∈ l.declarations.surfaces, ∀ a ∈ s.actions, ∀ o, a.outcome = some o →
      o.kind = .integration → o.target ∈ l.declarations.namesOf .integration ∧
        ∀ action, o.action = some action → l.declarations.Offers o.target action) ∧
    (∀ e ∈ l.declarations.named .experience, ∀ s ∈ Experience.steps e, ∀ i,
      s.integration = some i → i ∈ l.declarations.namesOf .integration) ∧
    ∀ others : List Module, others.map (Module.alter DeclKind.withoutStepActions) =
        modules.map (Module.alter DeclKind.withoutStepActions) →
      ∃ l', linkModules others = .ok l' ∧
        l'.alter _ unnoticed_withoutStepActions = l.alter _ unnoticed_withoutStepActions := by
  obtain ⟨order, hl⟩ := linkModules_eq_ok_iff.1 h
  have hvalid := validateReferences_eq_ok_iff_valid.1 hl.valid
  refine ⟨fun s hs a ha o ho hkind => ?_, fun e he s hs i hi => ?_,
    fun others => unnoticed_withoutStepActions.exists_linked h⟩
  · obtain ⟨r, hr, hkinds, hname⟩ := Surface.exists_reference ha ho
    rw [hkind] at hkinds
    have htarget := hname ▸ hvalid.mem_namesOf (k := .surface) hs hr hkinds
    exact ⟨htarget, fun action haction => SurfaceAction.offers_of_finding?
      (hvalid.actions s hs a ha) ho hkind haction htarget⟩
  · obtain ⟨r, hr, hkinds, hname⟩ := Experience.exists_reference hs hi
    exact hname ▸ hvalid.mem_namesOf (k := .experience) he hr hkinds

/-- A module with an integration whose only action is `push`. A surface calls it, and a step of an
experience calls the action that is given. -/
def contactsModule (action : String) : Module :=
  let api : Service :=
    { location := ⟨"contacts.dsl", 1, 1, none⟩, name := "crm_api", body := .api none none none }
  let crm : Integration :=
    { location := ⟨"contacts.dsl", 4, 1, none⟩
      name := "crm"
      services := ["crm_api"]
      actions := [{ name := "push", call := ⟨"crm_api", none⟩ }] }
  let contacts : Surface :=
    { location := ⟨"contacts.dsl", 9, 1, none⟩
      name := "contacts"
      actions := [{ name := "send", outcome := some ⟨.integration, "crm", some "push"⟩ }] }
  let onboarding : Experience :=
    { location := ⟨"contacts.dsl", 13, 1, none⟩
      name := "onboarding"
      startStep := "sync"
      steps := [{ name := "sync", kind := .integration, integration := some "crm", action }] }
  { name := "contacts", file := "contacts.dsl"
    declarations := .ofList [⟨.service, api⟩, ⟨.integration, crm⟩, ⟨.surface, contacts⟩,
      ⟨.experience, onboarding⟩] }

theorem linkModules_actions_lead_contacts :
    ∃ l, linkModules [contactsModule "push"] = .ok l ∧ l.declarations.Offers "crm" "push" ∧
      ∀ action, ∃ l', linkModules [contactsModule action] = .ok l' := by
  have h : linkModules [contactsModule "push"] = .ok _ := rfl
  obtain ⟨hsurfaces, -, hothers⟩ := linkModules_actions_lead h
  refine ⟨_, h, ?_, fun action => ?_⟩
  · have hsend := hsurfaces _ List.mem_cons_self _ List.mem_cons_self _ rfl rfl
    exact hsend.2 "push" rfl
  · have hnamed : ((contactsModule action).alter DeclKind.withoutStepActions).declarations.named =
        ((contactsModule "push").alter DeclKind.withoutStepActions).declarations.named := by
      funext k
      cases k <;> rfl
    have hsame := congrArg (fun named => [({ name := "contacts", file := "contacts.dsl"
                                             declarations := { named } } : Module)]) hnamed
    obtain ⟨l', hl', -⟩ := hothers [contactsModule action] hsame
    exact ⟨l', hl'⟩

/-- Modules can be linked although a step of an experience names an action that its integration does
not have. -/
theorem linkModules_step_dangles :
    ∃ l, linkModules [contactsModule "pull"] = .ok l ∧
      ∃ e ∈ l.declarations.named .experience, ∃ s ∈ Experience.steps e,
        s.integration = some "crm" ∧ s.action = some "pull" ∧
          ¬ l.declarations.Offers "crm" "pull" := by
  refine ⟨_, rfl, _, List.mem_cons_self, _, List.mem_cons_self, rfl, rfl, ?_⟩
  rintro ⟨i, hi, -, a, ha, hname⟩
  obtain rfl := List.mem_singleton.1 hi
  obtain rfl := List.mem_singleton.1 ha
  exact absurd hname (by decide)

end Blueprint
