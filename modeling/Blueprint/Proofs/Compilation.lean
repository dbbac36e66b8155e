import Blueprint.Application.Compile
import Blueprint.Proofs.Expansion
import Blueprint.Proofs.Validation

/-!
# The output of compilation is valid

Validation sees entities before they are expanded and surfaces before others are generated. It is
right all the same: expansion changes no name, fulfils what validation has promised
(`SymbolTable.Expands.holds`) and brings in only references that lead somewhere
(`SymbolTable.Expands.references`). So whatever comes out of compilation could be validated again
(`compileModules_valid`).
-/

namespace Blueprint

/-- The second table holds what the first one does, with expanded entities and more surfaces. -/
structure SymbolTable.Expands (t t' : SymbolTable) (g : Entity → Entity)
    (generated : List Surface) : Prop where
  declarations : t'.declarations =
    t.declarations.withScreens (t.declarations.entities.map g)
      (t.declarations.surfaces ++ generated)
  entity : ∀ e : Entity, e.Expands t (g e)
  surface : ∀ s ∈ generated, ∃ e ∈ t.declarations.entities, s.Shows (g e)

namespace SymbolTable.Expands

variable {t t' : SymbolTable} {g : Entity → Entity} {generated : List Surface}
  (h : t.Expands t' g generated)

include h

theorem named_eq {k : DeclKind} (he : k ≠ .entity) (hs : k ≠ .surface) :
    t'.declarations.named k = t.declarations.named k := by
  rw [h.declarations]
  cases k <;> first | rfl | contradiction

theorem find?_eq {k : DeclKind} (he : k ≠ .entity) (hs : k ≠ .surface) (n : String) :
    t'.find? k n = t.find? k n := by
  rw [SymbolTable.find?_eq, SymbolTable.find?_eq]
  unfold Declarations.find?
  rw [h.named_eq he hs]

theorem entities_eq : t'.declarations.entities = t.declarations.entities.map g := by
  rw [h.declarations]
  rfl

theorem surfaces_eq : t'.declarations.surfaces = t.declarations.surfaces ++ generated := by
  rw [h.declarations]
  rfl

/-! ## Names -/

theorem namesOf_entity : t'.declarations.namesOf .entity = t.declarations.namesOf .entity := by
  show t'.declarations.entities.map Entity.name = t.declarations.entities.map Entity.name
  rw [h.entities_eq, List.map_map]
  exact List.map_congr_left fun e _ => (h.entity e).name

theorem namesOf_surface :
    t'.declarations.namesOf .surface = (t.declarations.surfaces ++ generated).map Surface.name := by
  show t'.declarations.surfaces.map Surface.name = _
  rw [h.surfaces_eq]

theorem mem_namesOf {k : DeclKind} {n : String} (hn : n ∈ t.declarations.namesOf k) :
    n ∈ t'.declarations.namesOf k := by
  by_cases he : k = .entity
  · subst he
    rw [h.namesOf_entity]
    exact hn
  · by_cases hs : k = .surface
    · subst hs
      rw [h.namesOf_surface, List.map_append]
      exact List.mem_append_left _ hn
    · unfold Declarations.namesOf
      rw [h.named_eq he hs]
      exact hn

theorem mem_names_entity {e : Entity} (he : e ∈ t.declarations.entities) :
    (g e).name ∈ t'.declarations.namesOf .entity := by
  rw [h.namesOf_entity, (h.entity e).name]
  exact List.mem_map_of_mem he

/-! ## References -/

omit h in
/-- What a field refers to does not depend on where the field stands. -/
theorem exists_reference?_of_eq {f : Field} {l : Location} {o : String} {r : Reference}
    (hr : f.reference? l o = some r) (l' : Location) (o' : String) :
    ∃ r', f.reference? l' o' = some r' ∧ r'.kinds = r.kinds ∧ r'.name = r.name := by
  unfold Field.reference? at hr ⊢
  cases hf : f.fieldType <;> rw [hf] at hr <;> cases hr <;> exact ⟨_, rfl, rfl, rfl⟩

/-- What can be found before expansion can be found after it. -/
theorem resolves {r r' : Reference} (hr : (r.resolve? t).isSome = true)
    (hk : r.kinds = r'.kinds) (hn : r.name = r'.name) : (r'.resolve? t').isSome = true := by
  obtain ⟨k, hmem, hname⟩ := Reference.isSome_resolve?_iff.1 hr
  exact Reference.isSome_resolve?_iff.2 ⟨k, hk ▸ hmem, hn ▸ h.mem_namesOf hname⟩

omit h in
theorem resolves_entity {r : Reference} (hk : r.kind = .entity)
    (hn : r.name ∈ t'.declarations.namesOf .entity) : (r.resolve? t').isSome = true :=
  Reference.isSome_resolve?_iff.2 ⟨.entity, hk ▸ List.mem_cons_self, hn⟩

section

variable (hvalid : ∀ r ∈ t.declarations.references, (r.resolve? t).isSome = true)

include hvalid

omit h in
theorem resolves_of_mem {k : DeclKind} {body : k.Body} (hb : body ∈ t.declarations.named k)
    {r : Reference} (hr : r ∈ k.references body) : (r.resolve? t).isSome = true :=
  hvalid r (Declarations.mem_references.2 ⟨k, .inl ⟨body, hb, hr⟩⟩)

/-- An expanded entity refers to what it referred to, to what its archetypes refer to, and to the
tenant. -/
theorem references_entity {e : Entity} (he : e ∈ t.declarations.entities) {r : Reference}
    (hr : r ∈ (g e).declaredReferences) : (r.resolve? t').isSome = true := by
  have hx := h.entity e
  rcases List.mem_append.1 hr with hr | hr
  · obtain ⟨f, hf, hr⟩ := List.mem_filterMap.1 hr
    rcases hx.fields f hf with hf | ⟨a, ha, hf⟩ | ⟨tenant, ht, rfl⟩
    · obtain ⟨r₀, hr₀, hk, hn⟩ := exists_reference?_of_eq hr e.location (titled .entity e.name)
      refine h.resolves (resolves_of_mem hvalid he ?_) hk hn
      exact List.mem_append_left _ (List.mem_filterMap.2 ⟨f, hf, hr₀⟩)
    · obtain ⟨r₀, hr₀, hk, hn⟩ :=
        exists_reference?_of_eq hr a.location (titled .archetype a.name)
      obtain ⟨n, -, hfind⟩ := List.mem_filterMap.1 ha
      refine h.resolves (resolves_of_mem hvalid (find?_eq_some_iff.1 hfind).1 ?_) hk hn
      exact List.mem_filterMap.2 ⟨f, hf, hr₀⟩
    · cases hr
      refine resolves_entity rfl ?_
      rw [h.namesOf_entity]
      exact ht
  · rw [hx.archetypes] at hr
    obtain ⟨n, hn, rfl⟩ := List.mem_map.1 hr
    let r₀ : Reference := ⟨.archetype, none, n, e.location, s!"{titled .entity e.name} extends"⟩
    have hr₀ : r₀ ∈ e.declaredReferences :=
      List.mem_append_right _ (List.mem_map.2 ⟨n, hn, rfl⟩)
    exact h.resolves (resolves_of_mem hvalid he hr₀) rfl rfl

/-- A generated surface refers to its entity only. -/
theorem references_surface {s : Surface} (hs : s ∈ t'.declarations.surfaces) {r : Reference}
    (hr : r ∈ s.declaredReferences) : (r.resolve? t').isSome = true := by
  rw [h.surfaces_eq] at hs
  rcases List.mem_append.1 hs with hs | hs
  · exact h.resolves (resolves_of_mem hvalid hs hr) rfl rfl
  · obtain ⟨e, he, hshows⟩ := h.surface s hs
    unfold Surface.declaredReferences optionalReference at hr
    rw [hshows.actions, hshows.entity] at hr
    obtain rfl := List.mem_singleton.1 hr
    exact resolves_entity rfl (h.mem_names_entity he)

theorem references {r : Reference} (hr : r ∈ t'.declarations.references) :
    (r.resolve? t').isSome = true := by
  obtain ⟨k, ⟨body, hb, hr⟩ | hr⟩ := Declarations.mem_references.1 hr
  · by_cases he : k = .entity
    · subst he
      have hb : body ∈ t'.declarations.entities := hb
      rw [h.entities_eq] at hb
      obtain ⟨e, he, rfl⟩ := List.mem_map.1 hb
      exact h.references_entity hvalid he hr
    · by_cases hs : k = .surface
      · subst hs
        exact h.references_surface hvalid hb hr
      · rw [h.named_eq he hs] at hb
        exact h.resolves (resolves_of_mem hvalid hb hr) rfl rfl
  · have hr : r ∈ t.declarations.singleReferences k := by
      rw [h.declarations] at hr
      exact hr
    exact h.resolves (hvalid r (Declarations.mem_references.2 ⟨k, .inr hr⟩)) rfl rfl

end

/-! ## Fields -/

/-- A field that was found for an entity is there, on the entity as it was expanded. -/
theorem present {m : FieldMention} (hm : m.Holds t)
    (he : m.entity ∈ t.declarations.namesOf .entity) : m.Present t'.declarations := by
  obtain ⟨e, hfind⟩ := Option.isSome_iff_exists.1 (find?_isSome_iff.2 he)
  obtain ⟨hmem, hname⟩ := find?_eq_some_iff.1 hfind
  refine ⟨g e, ?_, (h.entity e).name.trans hname, ?_⟩
  · rw [h.entities_eq]
    exact List.mem_map_of_mem hmem
  · exact (h.entity e).declares _ (hm e hfind)

/-- Every field that is named somewhere is there, whether the place was declared or generated. -/
theorem mentions_present (hvalid : t.declarations.Valid t) {m : FieldMention}
    (hm : m ∈ t'.declarations.fieldMentions) : m.Present t'.declarations := by
  have hkeep : m ∈ t.declarations.fieldMentions → m.Present t'.declarations :=
    fun hm => h.present (hvalid.mentions m hm) (hvalid.entity_mem hm)
  rcases Declarations.mem_fieldMentions.1 hm with
    ⟨e', he', hm⟩ | ⟨s, hs, hm⟩ | ⟨p, hp, hm⟩ | ⟨l, hl, hm⟩
  · rw [h.entities_eq] at he'
    obtain ⟨e, he, rfl⟩ := List.mem_map.1 he'
    refine hkeep (Declarations.mem_fieldMentions.2 (.inl ⟨e, he, ?_⟩))
    have hx := h.entity e
    unfold Entity.fieldMentions at hm ⊢
    rw [hx.constraints, hx.displayField, hx.name] at hm
    exact hm
  · rw [h.surfaces_eq] at hs
    rcases List.mem_append.1 hs with hs | hs
    · exact hkeep (Declarations.mem_fieldMentions.2 (.inr (.inl ⟨s, hs, hm⟩)))
    · obtain ⟨e, he, hshows⟩ := h.surface s hs
      unfold Surface.fieldMentions at hm
      rw [hshows.entity, hshows.presentation] at hm
      obtain ⟨_, hsome, hm⟩ := List.mem_flatMap.1 hm
      obtain rfl := List.mem_singleton.1 hsome
      obtain ⟨n, hn, rfl⟩ := List.mem_map.1 hm
      refine ⟨g e, ?_, rfl, hshows.fields n ?_⟩
      · rw [h.entities_eq]
        exact List.mem_map_of_mem he
      · simpa using hn
  · rw [h.declarations] at hp
    exact hkeep (Declarations.mem_fieldMentions.2 (.inr (.inr (.inl ⟨p, hp, hm⟩))))
  · rw [h.named_eq (by decide) (by decide)] at hl
    exact hkeep (Declarations.mem_fieldMentions.2 (.inr (.inr (.inr ⟨l, hl, hm⟩))))

/-! ## Validity -/

/-- An action that leads on still does. -/
theorem action_finding?_eq (s : Surface) (a : SurfaceAction) :
    a.finding? t' s = a.finding? t s := by
  unfold SurfaceAction.finding?
  simp only [h.find?_eq (show DeclKind.integration ≠ .entity by decide) (by decide)]

/-- Valid declarations stay valid when they are expanded. -/
theorem valid (hvalid : t.declarations.Valid t) : t'.declarations.Valid t' where
  references r hr := h.references hvalid.references hr
  mentions m hm := (h.mentions_present hvalid hm).holds
  actions s hs a ha := by
    rw [h.action_finding?_eq]
    rw [h.surfaces_eq] at hs
    rcases List.mem_append.1 hs with hs | hs
    · exact hvalid.actions s hs a ha
    · obtain ⟨e, -, hshows⟩ := h.surface s hs
      rw [hshows.actions] at ha
      cases ha
  experiences e he := by
    rw [h.named_eq (by decide) (by decide)] at he
    exact hvalid.experiences e he
  intents := by
    rw [h.declarations]
    exact hvalid.intents

end SymbolTable.Expands

/-! ## Compilation -/

/-- Names that are not repeated before expansion are not repeated after it. -/
theorem Linked.nodup_namesOf_application (l : Linked) (options : CompileOptions) (k : DeclKind) :
    ((l.application options).declarations.namesOf k).Nodup := by
  have hn := l.symbols.nodup_namesOf
  have hsurfaces : (l.declarations.surfaces.map Surface.name).Nodup := hn .surface
  cases k
  case entity =>
    have hnames : ∀ e ∈ l.declarations.entities, e.name ∈ l.declarations.namesOf .entity :=
      fun e he => List.mem_map_of_mem he
    obtain ⟨g, hg, hx⟩ := expandEntities_eq_map hnames
    show (l.expandedEntities.map Entity.name).Nodup
    unfold expandedEntities
    rw [hg, List.map_map, show Entity.name ∘ g = Entity.name from funext fun e => (hx e).name]
    exact hn .entity
  case surface =>
    show ((l.declarations.surfaces ++ _).map Surface.name).Nodup
    split
    · exact nodup_names_generateSurfaces hsurfaces
    · rwa [List.append_nil]
  all_goals exact hn _

/-- What comes out of compilation is what linking found, expanded. -/
theorem Linked.expands_application (l : Linked) (options : CompileOptions) {t : SymbolTable}
    (ht : t.declarations = (l.application options).declarations) :
    ∃ g generated, l.symbols.Expands t g generated := by
  have hnames : ∀ e ∈ l.declarations.entities, e.name ∈ l.declarations.namesOf .entity :=
    fun e he => List.mem_map_of_mem he
  obtain ⟨g, hg, hx⟩ := expandEntities_eq_map hnames
  refine ⟨g, if options.archetypeSurfaces then
    generateSurfaces l.expandedEntities l.declarations.surfaces else [], ?_, hx, fun s hs => ?_⟩
  · rw [ht]
    unfold application expandedEntities
    rw [hg]
    rfl
  · split at hs
    · obtain ⟨e', he', hshows⟩ := shows_of_mem_generateSurfaces hs
      unfold expandedEntities at he'
      rw [hg] at he'
      obtain ⟨e, he, rfl⟩ := List.mem_map.1 he'
      exact ⟨e, he, hshows⟩
    · cases hs

theorem compileModules_eq_ok {modules : List Module} {options : CompileOptions}
    {app : Application} (h : compileModules modules options = .ok app) :
    ∃ l, linkModules modules = .ok l ∧ app = l.application options := by
  unfold compileModules at h
  obtain ⟨l, hl, h⟩ := Except.bind_eq_ok_iff.1 h
  refine ⟨l, hl, ?_⟩
  by_cases hd : (options.denyWarnings && !l.warnings.isEmpty) = true
  · rw [if_pos hd] at h
    cases h
  · rw [if_neg hd] at h
    cases h
    rfl

/-- What comes out of compilation has a symbol table, by itself, and is valid for it. In particular,
every field that is named for an entity is a field of the expanded entity. -/
theorem compileModules_valid {modules : List Module} {options : CompileOptions}
    {app : Application} (h : compileModules modules options = .ok app) :
    (∀ m : Module, m.declarations = app.declarations →
      ∃ t, SymbolTable.of? [m] = .ok t ∧ validateReferences t app.declarations = .ok ()) ∧
    ∀ mention ∈ app.declarations.fieldMentions, ∃ e ∈ app.declarations.entities,
      e.name = mention.entity ∧ e.declares mention.field = true := by
  obtain ⟨l, hl, rfl⟩ := compileModules_eq_ok h
  obtain ⟨order, hc⟩ := linkModules_eq_ok_iff.1 hl
  have hvalid := validateReferences_eq_ok_iff_valid.1 hc.valid
  have htable {m : Module} (hm : m.declarations = (l.application options).declarations) :
      ∃ t, SymbolTable.of? [m] = .ok t ∧
        t.declarations = (l.application options).declarations := by
    rw [← hm]
    exact SymbolTable.exists_of?_singleton fun k => hm ▸ l.nodup_namesOf_application options k
  constructor
  · intro m hm
    obtain ⟨t, ht, hdeclarations⟩ := htable hm
    obtain ⟨g, generated, hx⟩ := l.expands_application options hdeclarations
    refine ⟨t, ht, ?_⟩
    rw [← hdeclarations]
    exact validateReferences_eq_ok_iff_valid.2 (hx.valid hvalid)
  · intro mention hmention
    obtain ⟨t, -, hdeclarations⟩ :=
      htable (m := ⟨"", "", [], [], none, (l.application options).declarations⟩) rfl
    obtain ⟨g, generated, hx⟩ := l.expands_application options hdeclarations
    rw [← hdeclarations] at hmention ⊢
    exact hx.mentions_present hvalid hmention

/-- A module with what records have in common. -/
def recordsModule : Module :=
  let recorded : Archetype :=
    { location := ⟨"records.dsl", 1, 1, none⟩
      name := "Recorded"
      fields := [{ name := "since", fieldType := .date }] }
  { name := "records", file := "records.dsl", declarations := .ofList [⟨.archetype, recorded⟩] }

/-- A module with companies, which are tenants, and with memberships, which are records, belong to a
company and are shown by what they have in common with other records. -/
def membersModule : Module :=
  let company : Entity :=
    { location := ⟨"members.dsl", 2, 1, none⟩
      name := "Company"
      archetypeKind := some .tenant
      fields := [{ name := "id", fieldType := .uuid, modifiers := [.pk] }] }
  let membership : Entity :=
    { location := ⟨"members.dsl", 6, 1, none⟩
      name := "Membership"
      archetypeKind := some .userMembership
      archetypes := ["Recorded"]
      fields := [{ name := "role", fieldType := .text }]
      displayField := some "since" }
  { name := "members", file := "members.dsl", uses := ["records"]
    declarations := .ofList [⟨.entity, company⟩, ⟨.entity, membership⟩] }

/-- A membership gets a field of its archetype, a reference to its company and two surfaces. -/
theorem compileModules_valid_members :
    ∃ app, compileModules [recordsModule, membersModule] {} = .ok app ∧
      app.declarations.entities.map (·.names) = [["id"], ["company", "since", "role"]] ∧
      app.declarations.surfaces.map (·.name) =
        ["company_list", "membership_list", "membership_edit"] ∧
      (∃ t, SymbolTable.of? [⟨"app", "app.dsl", [], [], none, app.declarations⟩] = .ok t ∧
        validateReferences t app.declarations = .ok ()) ∧
      ⟨"Membership", "since"⟩ ∈ app.declarations.fieldMentions ∧
      ∀ mention ∈ app.declarations.fieldMentions, ∃ e ∈ app.declarations.entities,
        e.name = mention.entity ∧ e.declares mention.field = true := by
  have h : compileModules [recordsModule, membersModule] {} = .ok _ := rfl
  obtain ⟨hvalid, hpresent⟩ := compileModules_valid h
  exact ⟨_, h, by decide +kernel, by decide +kernel, hvalid _ rfl, List.mem_cons_self, hpresent⟩

end Blueprint
