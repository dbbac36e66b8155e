import Blueprint.Proofs.Reach
import Blueprint.Proofs.Shadowing

/-!
# A part of an application

Of modules that link, those within reach of one of them link on their own, and their references lead
where they did. More generally this holds for every part that has, with a module, also those that
the module uses (`linkModules_part`): what a module refers to is in the part, and what is in the
part is not declared elsewhere.

There is one exception. An intent without a model of its own falls back to the default model, or to
any that is declared, and these may stand in modules that are left out. If so, the part does not
link (`linkModules_reachable_unserved`).
-/

namespace Blueprint

/-! ## Parts of symbol tables -/

/-- The first table is that of the modules, the second one that of some of them: with a module,
those that it sees. -/
structure SymbolTable.Part (modules kept : List Module) (t t' : SymbolTable) : Prop where
  table : of? modules = .ok t
  table' : of? kept = .ok t'
  subset : ∀ m ∈ kept, m ∈ modules
  closed : ∀ m ∈ kept, ∀ n ∈ modules, m.sees n.name = true → n ∈ kept

namespace SymbolTable.Part

variable {modules kept : List Module} {t t' : SymbolTable} (h : Part modules kept t t')

include h

/-! ## Declarations -/

theorem mem_named {k : DeclKind} {b : k.Body} (hb : b ∈ t'.declarations.named k) :
    b ∈ t.declarations.named k := by
  obtain ⟨m, hm, hb⟩ := (mem_named_iff h.table').1 hb
  exact (mem_named_iff h.table).2 ⟨m, h.subset m hm, hb⟩

theorem mem_references {r : Reference} :
    r ∈ t'.declarations.references ↔ ∃ m ∈ kept, r ∈ m.declarations.references :=
  mem_references_declarations h.table'

theorem mem_fieldMentions {m : FieldMention} (hm : m ∈ t'.declarations.fieldMentions) :
    m ∈ t.declarations.fieldMentions := by
  have hpolicies : ∀ p ∈ t'.declarations.policies, p ∈ t.declarations.policies := by
    intro p hp
    obtain ⟨n, hn, hp⟩ := (single?_eq_some_iff h.table' .policies).1 hp
    exact (single?_eq_some_iff h.table .policies).2 ⟨n, h.subset n hn, hp⟩
  refine Declarations.mem_fieldMentions.2 ?_
  rcases Declarations.mem_fieldMentions.1 hm with
    ⟨e, he, hm⟩ | ⟨s, hs, hm⟩ | ⟨p, hp, hm⟩ | ⟨l, hl, hm⟩
  · exact .inl ⟨e, h.mem_named he, hm⟩
  · exact .inr (.inl ⟨s, h.mem_named hs, hm⟩)
  · exact .inr (.inr (.inl ⟨p, hpolicies p hp, hm⟩))
  · exact .inr (.inr (.inr ⟨l, h.mem_named hl, hm⟩))

/-! ## Look-ups -/

/-- What is found in the part is found in the whole. -/
theorem find?_of_find? {k : DeclKind} {n : String} {b : k.Body} (hb : t'.find? k n = some b) :
    t.find? k n = some b := by
  obtain ⟨hmem, hname⟩ := find?_eq_some_iff.1 hb
  exact find?_eq_some_iff.2 ⟨h.mem_named hmem, hname⟩

theorem find?_eq {k : DeclKind} {n : String} (hn : n ∈ t'.declarations.namesOf k) :
    t'.find? k n = t.find? k n := by
  obtain ⟨b, hb⟩ := Option.isSome_iff_exists.1 (find?_isSome_iff.2 hn)
  rw [hb, h.find?_of_find? hb]

theorem owner?_of_owner? {k : DeclKind} {n owner : String} (ho : t'.owner? k n = some owner) :
    t.owner? k n = some owner := by
  obtain ⟨m, hm, hname, hdeclares⟩ := (owner?_eq_some_iff h.table').1 ho
  exact (owner?_eq_some_iff h.table).2 ⟨m, h.subset m hm, hname, hdeclares⟩

/-- What a module of the part sees belongs to the part. -/
theorem owner?_eq_of_sees {m : Module} (hm : m ∈ kept) {k : DeclKind} {n owner : String}
    (ho : t.owner? k n = some owner) (hs : m.sees owner = true) : t'.owner? k n = some owner := by
  obtain ⟨o, hmem, rfl, hdeclares⟩ := (owner?_eq_some_iff h.table).1 ho
  exact (owner?_eq_some_iff h.table').2 ⟨o, h.closed m hm o hmem hs, rfl, hdeclares⟩

/-- A visible reference of a module leads to the same module in the part. -/
theorem reference_owner? {m : Module} (hm : m ∈ kept) {r : Reference}
    (hv : m.violation? t r = none) : r.owner? t' = r.owner? t := by
  rw [Module.violation?_eq_none_iff_owner, Reference.owner?_eq_findSome?] at hv
  rw [Reference.owner?_eq_findSome?, Reference.owner?_eq_findSome?]
  generalize r.kinds = kinds at hv ⊢
  induction kinds with
  | nil => rfl
  | cons k rest ih =>
    rw [List.findSome?_cons] at hv ⊢
    rw [List.findSome?_cons]
    cases ho : t.owner? k r.name with
    | some owner => rw [h.owner?_eq_of_sees hm ho (hv owner (by rw [ho]))]
    | none =>
      have ho' : t'.owner? k r.name = none := by
        refine Option.eq_none_iff_forall_ne_some.2 fun owner ho' => ?_
        exact nomatch ho.symm.trans (h.owner?_of_owner? ho')
      rw [ho']
      rw [ho] at hv
      exact ih hv

/-! ## Validity -/

section

variable (hvisible : checkVisibility modules t = .ok ()) (hvalid : t.declarations.Valid t)

include hvisible hvalid

/-- A reference of a module leads somewhere in the part. -/
theorem isSome_resolve? {m : Module} (hm : m ∈ kept) {r : Reference}
    (hr : r ∈ m.declarations.references) : (r.resolve? t').isSome = true := by
  have hv := checkVisibility_eq_ok_iff.1 hvisible m (h.subset m hm) r hr
  rw [← Reference.isSome_owner?_iff, h.reference_owner? hm hv, Reference.isSome_owner?_iff]
  refine hvalid.references r ?_
  exact (mem_references_declarations h.table).2 ⟨m, h.subset m hm, hr⟩

/-- An entity has the fields that it had. -/
theorem hasField {e : Entity} (he : e ∈ t'.declarations.entities) (field : String) :
    t'.hasField e field = t.hasField e field := by
  obtain ⟨m, hm, hmem⟩ := (mem_named_iff h.table').1 he
  have harchetypes : t'.archetypesOf e = t.archetypesOf e := by
    refine List.filterMap_congr fun a ha => h.find?_eq ?_
    let r : Reference :=
      ⟨.archetype, none, a, e.location, s!"{titled .entity e.name} extends"⟩
    have hr : r ∈ m.declarations.references := by
      refine Declarations.mem_references.2 ⟨.entity, .inl ⟨e, hmem, ?_⟩⟩
      exact List.mem_append_right _ (List.mem_map_of_mem ha)
    obtain ⟨k, hk, hn⟩ :=
      Reference.isSome_resolve?_iff.1 (h.isSome_resolve? hvisible hvalid hm hr)
    obtain rfl := List.mem_singleton.1 hk
    exact hn
  unfold SymbolTable.hasField
  rw [harchetypes]

/-- A part of valid declarations is valid if its intents have models to run on. -/
theorem valid_iff : t'.declarations.Valid t' ↔ intentFindings t'.declarations = [] := by
  refine ⟨Declarations.Valid.intents, fun hintents => ⟨fun r hr => ?_, fun m hm e he => ?_,
    fun s hs a ha => ?_, fun e he => hvalid.experiences e (h.mem_named he), hintents⟩⟩
  · obtain ⟨m, hm, hr⟩ := h.mem_references.1 hr
    exact h.isSome_resolve? hvisible hvalid hm hr
  · have hmem := (find?_eq_some_iff.1 he).1
    rw [h.hasField hvisible hvalid hmem]
    exact hvalid.mentions m (h.mem_fieldMentions hm) e (h.find?_of_find? he)
  · have hfound := SurfaceAction.finding?_eq_none_iff.1 (hvalid.actions s (h.mem_named hs) a ha)
    refine SurfaceAction.finding?_eq_none_iff.2 fun o ho hk wanted hw i hi => ?_
    exact hfound o ho hk wanted hw i (h.find?_of_find? hi)

end

end SymbolTable.Part

/-! ## Intents -/

/-- Every intent of the modules has a model to run on: a default one, one that is declared, or its
own. -/
def IntentsServed (modules : List Module) : Prop :=
  (∃ m ∈ modules, ∃ c, m.declarations.llmConfig = some c ∧ c.defaultModel.isSome = true) ∨
    (∃ m ∈ modules, m.declarations.named .llmModel ≠ []) ∨
      ∀ m ∈ modules, ∀ i ∈ m.declarations.named .llmIntent, LlmIntent.model i ≠ none

theorem intentFindings_declarations_eq_nil_iff {modules : List Module} {t : SymbolTable}
    (ht : SymbolTable.of? modules = .ok t) :
    intentFindings t.declarations = [] ↔ IntentsServed modules := by
  have hdefault : (t.declarations.llmConfig.bind (·.defaultModel)).isSome = true ↔
      ∃ m ∈ modules, ∃ c, m.declarations.llmConfig = some c ∧ c.defaultModel.isSome = true := by
    have hconfig : (t.declarations.llmConfig.bind (·.defaultModel)).isSome = true ↔
        ∃ c, t.declarations.llmConfig = some c ∧ c.defaultModel.isSome = true := by
      cases t.declarations.llmConfig <;> simp
    have hdeclared (c : LlmConfig) : t.declarations.llmConfig = some c ↔
        ∃ m ∈ modules, m.declarations.llmConfig = some c :=
      SymbolTable.single?_eq_some_iff ht .llmConfig
    rw [hconfig]
    simp only [hdeclared]
    exact ⟨fun ⟨c, ⟨m, hm, hc⟩, hd⟩ => ⟨m, hm, c, hc, hd⟩,
      fun ⟨m, hm, c, hc, hd⟩ => ⟨c, ⟨m, hm, hc⟩, hd⟩⟩
  have hmodels : t.declarations.named .llmModel ≠ [] ↔
      ∃ m ∈ modules, m.declarations.named .llmModel ≠ [] := by
    rw [SymbolTable.named_of_of? ht, Ne, List.flatMap_eq_nil_iff]
    push Not
    rfl
  have hintents : (∀ i ∈ t.declarations.named .llmIntent, LlmIntent.model i ≠ none) ↔
      ∀ m ∈ modules, ∀ i ∈ m.declarations.named .llmIntent, LlmIntent.model i ≠ none := by
    rw [SymbolTable.named_of_of? ht, List.forall_mem_flatMap]
  rw [intentFindings_eq_nil_iff, hdefault, hmodels, hintents]
  rfl

theorem intentsServed_iff_of_perm {modules others : List Module} (h : modules.Perm others) :
    IntentsServed modules ↔ IntentsServed others := by
  unfold IntentsServed
  simp only [h.mem_iff]

/-! ## Linking a part -/

/-- The second list holds some of the modules and, with a module, all of them that it uses. -/
structure UseClosed (modules kept : List Module) : Prop where
  sublist : kept.Sublist modules
  closed : ∀ m ∈ kept, ∀ n ∈ modules, n.name ∈ m.uses → n ∈ kept

section

variable {modules kept order order' : List Module} {l : Linked} (hl : l.Checked modules order)
  (hk : UseClosed modules kept)

include hl hk

theorem orderModules_part : ∃ order', orderModules kept = .ok order' := by
  obtain ⟨hd, hclosed, ha, -⟩ := ModuleOrder.orderModules_eq_ok_iff.1 hl.ordered
  have hedge : ∀ a b, ModuleOrder.Edge kept a b → ModuleOrder.Edge modules a b :=
    fun _ _ ⟨m, hm, hname, hdep⟩ => ⟨m, hk.sublist.subset hm, hname, hdep⟩
  refine ⟨_, ModuleOrder.orderModules_eq_ok_iff.2
    ⟨hd.sublist (hk.sublist.map _), ?_, ha.mono hedge, rfl⟩⟩
  intro m hm used hu
  obtain ⟨n, hn, rfl⟩ := List.mem_map.1 (hclosed m (hk.sublist.subset hm) used hu)
  exact List.mem_map_of_mem (hk.closed m hm n hn hu)

variable (ho : orderModules kept = .ok order')

include ho

/-- The order of the kept modules has a symbol table, which is a part. -/
theorem exists_part : ∃ t, SymbolTable.Part order order' l.symbols t := by
  have hperm := ModuleOrder.perm_of_orderModules hl.ordered
  have hperm' := ModuleOrder.perm_of_orderModules ho
  have hd := (ModuleOrder.orderModules_eq_ok_iff.1 hl.ordered).1
  have hnodup : (order'.flatMap (·.declarations.subjects)).Nodup := by
    have hall := SymbolTable.nodup_subjects hl.symbols
    rw [(hperm.flatMap_right fun m => m.declarations.subjects).nodup_iff] at hall
    rw [(hperm'.flatMap_right fun m => m.declarations.subjects).nodup_iff]
    exact hall.sublist (hk.sublist.flatMap _)
  obtain ⟨t, ht⟩ := SymbolTable.exists_of?_iff.2 hnodup
  refine ⟨t, hl.symbols, ht, fun m hm => ?_, fun m hm n hn hs => ?_⟩
  · exact hperm.mem_iff.2 (hk.sublist.subset (hperm'.mem_iff.1 hm))
  · have hm' := hperm'.mem_iff.1 hm
    have hn' := hperm.mem_iff.1 hn
    rcases Module.sees_iff.1 hs with hname | hu
    · exact ModuleOrder.eq_of_name_eq hd hn' (hk.sublist.subset hm') hname ▸ hm
    · exact hperm'.mem_iff.2 (hk.closed m hm' n hn' hu)

theorem declaredApp?_part : ∃ app, declaredApp? order' = .ok app := by
  have hperm := (ModuleOrder.perm_of_orderModules hl.ordered).flatMap_right fun m => m.app.toList
  have hperm' := (ModuleOrder.perm_of_orderModules ho).flatMap_right fun m => m.app.toList
  have hlength : (order'.flatMap fun m => m.app.toList).length ≤ 1 :=
    calc (order'.flatMap fun m => m.app.toList).length
      _ = (kept.flatMap fun m => m.app.toList).length := hperm'.length_eq
      _ ≤ (modules.flatMap fun m => m.app.toList).length := (hk.sublist.flatMap _).length_le
      _ = l.app.toList.length := by rw [← hperm.length_eq, declaredApp?_eq_ok_iff.1 hl.app]
      _ ≤ 1 := Option.length_toList_le
  match happ : order'.flatMap fun m => m.app.toList with
  | [] => exact ⟨none, declaredApp?_eq_ok_iff.2 happ⟩
  | [app] => exact ⟨some app, declaredApp?_eq_ok_iff.2 happ⟩
  | _ :: _ :: _ =>
    rw [happ] at hlength
    simp at hlength

omit hk

variable {t : SymbolTable} (hpart : SymbolTable.Part order order' l.symbols t)

include hpart

/-- The references of a part lead where they did. -/
theorem reference_owner?_part {m : Module} (hm : m ∈ kept) {r : Reference}
    (hr : r ∈ m.declarations.references) : r.owner? t = r.owner? l.symbols := by
  have hm' := (ModuleOrder.perm_of_orderModules ho).mem_iff.2 hm
  exact hpart.reference_owner? hm'
    (checkVisibility_eq_ok_iff.1 hl.visible m (hpart.subset m hm') r hr)

theorem checkVisibility_part : checkVisibility order' t = .ok () := by
  refine checkVisibility_eq_ok_iff.2 fun m hm r hr => ?_
  have hm' := (ModuleOrder.perm_of_orderModules ho).mem_iff.1 hm
  have hv := checkVisibility_eq_ok_iff.1 hl.visible m (hpart.subset m hm) r hr
  rw [Module.violation?_eq_none_iff_owner] at hv ⊢
  rwa [reference_owner?_part hl ho hpart hm' hr]

theorem validateReferences_part :
    validateReferences t t.declarations = .ok () ↔ IntentsServed kept := by
  rw [validateReferences_eq_ok_iff_valid,
    hpart.valid_iff hl.visible (validateReferences_eq_ok_iff_valid.1 hl.valid),
    intentFindings_declarations_eq_nil_iff hpart.table',
    intentsServed_iff_of_perm (ModuleOrder.perm_of_orderModules ho)]

omit ho hpart

include hk

/-- Of modules that link, a part that has, with a module, those that it uses links on its own, and
its references lead where they did, unless an intent has no longer a model to run on. -/
theorem linkModules_part :
    (IntentsServed kept → ∃ l', linkModules kept = .ok l' ∧ ∀ m ∈ kept,
      ∀ r ∈ m.declarations.references, r.owner? l'.symbols = r.owner? l.symbols) ∧
    (¬ IntentsServed kept → ∃ e, linkModules kept = .error (.reference e)) := by
  obtain ⟨order', ho⟩ := orderModules_part hl hk
  obtain ⟨app, happ⟩ := declaredApp?_part hl hk ho
  obtain ⟨t, hpart⟩ := exists_part hl hk ho
  have hvalid := validateReferences_part hl ho hpart
  have hlink := linkModules_eq_of_symbols ho hpart.table' happ
  rw [checkVisibility_part hl ho hpart] at hlink
  cases hv : validateReferences t t.declarations with
  | ok u =>
    rw [hv] at hlink
    refine ⟨fun _ => ⟨_, hlink, fun m hm r => reference_owner?_part hl ho hpart hm⟩, fun hn => ?_⟩
    exact absurd (hvalid.1 hv) hn
  | error e =>
    rw [hv] at hlink
    refine ⟨fun hs => ?_, fun _ => ⟨e, hlink⟩⟩
    exact nomatch (hvalid.2 hs).symm.trans hv

end

/-- The modules within reach of one of them are such a part. -/
theorem useClosed_of_reachable? {modules kept : List Module} {root : String}
    (hd : ModuleOrder.Distinct modules) (h : reachable? modules root = some kept) :
    UseClosed modules kept where
  sublist := by
    obtain ⟨-, rfl⟩ := reachable?_eq_some_iff.1 h
    exact List.filter_sublist
  closed m hm n hn hu := by
    obtain ⟨hmem, hway⟩ := (mem_reachable?_iff h).1 hm
    exact (mem_reachable?_iff h).2 ⟨hn, hway.tail ((uses_iff hd hmem).2 hu)⟩

/-! ## Main result -/

/-- Of modules that link, those within reach of one of them link on their own, and their references
lead where they did, unless an intent has no longer a model to run on. Then they are not valid. -/
theorem linkModules_reachable {modules : List Module} {l : Linked} {root : String}
    (h : linkModules modules = .ok l) (hroot : root ∈ modules.map (·.name)) :
    ∃ kept, reachable? modules root = some kept ∧
      (IntentsServed kept → ∃ l', linkModules kept = .ok l' ∧ ∀ m ∈ kept,
        ∀ r ∈ m.declarations.references, r.owner? l'.symbols = r.owner? l.symbols) ∧
      (¬ IntentsServed kept → ∃ e, linkModules kept = .error (.reference e)) := by
  obtain ⟨order, hl⟩ := linkModules_eq_ok_iff.1 h
  have hd := (ModuleOrder.orderModules_eq_ok_iff.1 hl.ordered).1
  have hreach := reachable?_eq_some_iff.2 ⟨hroot, rfl⟩
  exact ⟨_, hreach, linkModules_part hl (useClosed_of_reachable? hd hreach)⟩

theorem linkModules_reachable_orders :
    ∃ l l', linkModules [notesModule, customersModule, ordersModule] = .ok l ∧
      reachable? [notesModule, customersModule, ordersModule] "orders" =
        some [customersModule, ordersModule] ∧
      linkModules [customersModule, ordersModule] = .ok l' ∧
      ∀ r ∈ ordersModule.declarations.references, r.owner? l'.symbols = r.owner? l.symbols := by
  have h : linkModules [notesModule, customersModule, ordersModule] = .ok _ := rfl
  have hreach : reachable? [notesModule, customersModule, ordersModule] "orders" =
      some [customersModule, ordersModule] := rfl
  have hroot : "orders" ∈ [notesModule, customersModule, ordersModule].map (·.name) := by decide
  obtain ⟨kept, hkept, hok, -⟩ := linkModules_reachable h hroot
  obtain rfl := Option.some.inj (hreach.symm.trans hkept)
  have hserved : IntentsServed [customersModule, ordersModule] := by
    refine .inr (.inr fun m hm i hi => ?_)
    obtain rfl | rfl := List.mem_pair.1 hm <;> exact absurd hi List.not_mem_nil
  obtain ⟨l', hl', howners⟩ := hok hserved
  exact ⟨_, l', h, hreach, hl', howners ordersModule (by simp)⟩

/-- A module that asks for summaries, of whatever model there is. -/
def assistantModule : Module :=
  let summarize : LlmIntent :=
    { location := ⟨"assistant.dsl", 2, 1, none⟩, name := "summarize", prompt := "Summarize it" }
  { name := "assistant", file := "assistant.dsl"
    declarations := .ofList [⟨.llmIntent, summarize⟩] }

/-- A module that declares a model. -/
def modelsModule : Module :=
  let fast : LlmModel :=
    { location := ⟨"models.dsl", 2, 1, none⟩, name := "fast", provider := .local, modelId := "m" }
  { name := "models", file := "models.dsl", declarations := .ofList [⟨.llmModel, fast⟩] }

/-- Modules that link although those within reach of one of them do not. -/
theorem linkModules_reachable_unserved :
    (∃ l, linkModules [assistantModule, modelsModule] = .ok l) ∧
      ∃ kept e, reachable? [assistantModule, modelsModule] "assistant" = some kept ∧
        linkModules kept = .error e :=
  ⟨⟨_, rfl⟩, [assistantModule], _, rfl, rfl⟩

end Blueprint
