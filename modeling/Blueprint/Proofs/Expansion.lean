import Blueprint.Proofs.Symbols
import Blueprint.Reference.Validation
import Blueprint.Surface.Generated

/-!
# What expansion adds to an entity

The three steps of expansion only add. An expanded entity is called what it was called, makes the
same demands on its fields and extends the same archetypes (`Entity.Expands`), it has every field
that it was promised (`SymbolTable.hasField`), and any field that is new is one of an archetype or
leads to a tenant that is declared.

A generated surface shows fields of an expanded entity and leads nowhere.
-/

namespace Blueprint

/-! ## Members -/

theorem Members.names_append (m n : Members) {x : String} :
    x ∈ (m ++ n).names ↔ x ∈ m.names ∨ x ∈ n.names := by
  show x ∈ (m.append n).names ↔ _
  unfold append names
  simp only [List.map_append, List.mem_append]
  tauto

/-- A member is left out only if its name is taken. -/
theorem Members.mem_names_untaken {m : Members} (taken : List String) {n : String}
    (h : n ∈ m.names) : n ∈ taken ∨ n ∈ (m.untaken taken).names := by
  unfold names untaken at *
  simp only [List.mem_append, List.mem_map] at h ⊢
  rcases h with ⟨f, hf, rfl⟩ | ⟨c, hc, rfl⟩
  · rcases @taken_or_kept_of_mem _ Field.name taken _ _ hf with ht | ⟨g, hg, e⟩
    · exact .inl ht
    · exact .inr (.inl ⟨g, hg, e⟩)
  · let fields := freshlyNamed Field.name taken m.fields
    rcases @taken_or_kept_of_mem _ ComputedField.name (taken ++ fields.map Field.name) _ _ hc
      with ht | ⟨g, hg, e⟩
    · rcases List.mem_append.1 ht with ht | ht
      · exact .inl ht
      · exact .inr (.inl (List.mem_map.1 ht))
    · exact .inr (.inr ⟨g, hg, e⟩)

theorem mem_names_inherited {archetypes : List Archetype} {a : Archetype} {n : String}
    (taken : List String) (ha : a ∈ archetypes) (h : n ∈ a.names) :
    n ∈ taken ∨ n ∈ (inherited taken archetypes).names := by
  induction archetypes generalizing taken with
  | nil => cases ha
  | cons b rest ih =>
    unfold inherited
    simp only [Members.names_append]
    rcases List.mem_cons.1 ha with rfl | ha
    · rcases Members.mem_names_untaken taken h with ht | hn
      · exact .inl ht
      · exact .inr (.inl hn)
    · rcases ih (taken ++ (b.untaken taken).names) ha with ht | hn
      · rcases List.mem_append.1 ht with ht | hn
        · exact .inl ht
        · exact .inr (.inl hn)
      · exact .inr (.inr hn)

/-- What is inherited is a member of an archetype. -/
theorem mem_fields_inherited {archetypes : List Archetype} {taken : List String} {f : Field}
    (h : f ∈ (inherited taken archetypes).fields) : ∃ a ∈ archetypes, f ∈ a.fields := by
  induction archetypes generalizing taken with
  | nil => cases h
  | cons b rest ih =>
    have hcases : f ∈ (b.untaken taken).fields ∨
        f ∈ (inherited (taken ++ (b.untaken taken).names) rest).fields := List.mem_append.1 h
    rcases hcases with hf | hf
    · exact ⟨b, List.mem_cons_self, (freshlyNamed_sublist taken b.fields).subset hf⟩
    · obtain ⟨a, ha, hf⟩ := ih hf
      exact ⟨a, List.mem_cons_of_mem _ ha, hf⟩

/-! ## Entities -/

/-- The second entity is the first one, expanded. -/
structure Entity.Expands (t : SymbolTable) (e e' : Entity) : Prop where
  name : e'.name = e.name
  constraints : e'.constraints = e.constraints
  displayField : e'.displayField = e.displayField
  archetypes : e'.archetypes = e.archetypes
  declares : ∀ n, t.hasField e n = true → e'.declares n = true
  fields : ∀ f ∈ e'.fields, f ∈ e.fields ∨ (∃ a ∈ t.archetypesOf e, f ∈ a.fields) ∨
    ∃ tenant ∈ t.declarations.namesOf .entity, f = tenantField tenant

/-- The entity with the members of its archetypes, and with what follows from its kind. -/
def Entity.completed (t : SymbolTable) (e : Entity) : Entity :=
  (e.inheriting (t.archetypesOf e)).shaped

theorem Entity.shaped_keeps (e : Entity) :
    e.shaped.name = e.name ∧ e.shaped.constraints = e.constraints ∧
      e.shaped.displayField = e.displayField ∧ e.shaped.archetypes = e.archetypes ∧
      e.shaped.toMembers = e.toMembers := by
  unfold shaped
  split <;> exact ⟨rfl, rfl, rfl, rfl, rfl⟩

/-- With its archetypes, an entity has what it has itself and what any of them has. -/
theorem Entity.declares_inheriting {e : Entity} {archetypes : List Archetype} {n : String}
    (h : e.declares n = true ∨ ∃ a ∈ archetypes, a.declares n = true) :
    (e.inheriting archetypes).declares n = true := by
  unfold inheriting
  simp only [Members.declares_iff, Members.names_append] at h ⊢
  rcases h with h | ⟨a, ha, hn⟩
  · exact .inr h
  · exact (mem_names_inherited e.names ha hn).symm

theorem Entity.expands_completed (t : SymbolTable) (e : Entity) : e.Expands t (e.completed t) := by
  obtain ⟨hn, hc, hd, ha, hm⟩ := (e.inheriting (t.archetypesOf e)).shaped_keeps
  refine ⟨hn, hc, hd, ha, fun n h => ?_, fun f hf => ?_⟩
  · unfold completed
    rw [hm]
    apply declares_inheriting
    unfold SymbolTable.hasField at h
    simpa using h
  · unfold completed at hf
    rw [hm] at hf
    rcases List.mem_append.1 hf with hf | hf
    · exact .inr (.inl (mem_fields_inherited hf))
    · exact .inl hf

/-- The expansion of an entity stays one when a reference to a declared tenant is added. -/
theorem Entity.Expands.scopedTo {t : SymbolTable} {e e' : Entity} {tenant : String}
    (h : e.Expands t e') (ht : tenant ∈ t.declarations.namesOf .entity) :
    e.Expands t (e'.scopedTo tenant) := by
  unfold Entity.scopedTo
  split
  · exact h
  · refine ⟨h.name, h.constraints, h.displayField, h.archetypes, fun n hn => ?_, fun f hf => ?_⟩
    · have := h.declares n hn
      simp only [Members.declares, List.any_cons, Bool.or_eq_true] at this ⊢
      tauto
    · rcases List.mem_cons.1 hf with rfl | hf
      · exact .inr (.inr ⟨tenant, ht, rfl⟩)
      · exact h.fields f hf

/-- Expansion treats the entities one by one. -/
theorem expandEntities_eq_map {t : SymbolTable} {entities : List Entity}
    (h : ∀ e ∈ entities, e.name ∈ t.declarations.namesOf .entity) :
    ∃ g : Entity → Entity, expandEntities t entities = entities.map g ∧
      ∀ e : Entity, e.Expands t (g e) := by
  have hone := Entity.expands_completed t
  unfold expandEntities scopeToTenant
  split
  next tenant htenant =>
    have hmem : tenant ∈ entities.map (Entity.completed t) :=
      (List.mem_filter.1 (htenant ▸ List.mem_singleton_self tenant)).1
    obtain ⟨e, he, rfl⟩ := List.mem_map.1 hmem
    have hdeclared : (e.completed t).name ∈ t.declarations.namesOf .entity :=
      (hone e).name ▸ h e he
    exact ⟨fun e' => (e'.completed t).scopedTo (e.completed t).name, List.map_map,
      fun e' => (hone e').scopedTo hdeclared⟩
  next => exact ⟨Entity.completed t, rfl, hone⟩

/-! ## Generated surfaces -/

/-- A generated surface shows fields of its entity and leads nowhere. -/
structure Surface.Shows (s : Surface) (e : Entity) : Prop where
  entity : s.entity = some e.name
  actions : s.actions = []
  presentation : s.presentation = none
  fields : ∀ n ∈ s.fieldNames, e.declares n = true

theorem Entity.shows_generatedSurface (e : Entity) (kind : ArchetypeKind) (ending : String)
    (mode : SurfaceMode) : (e.generatedSurface kind ending mode).Shows e := by
  refine ⟨rfl, rfl, rfl, fun n hn => ?_⟩
  unfold generatedSurface Surface.fieldNames at hn
  simp only [List.flatMap_cons, List.flatMap_nil, List.append_nil, List.map_map, List.mem_map,
    List.mem_filter] at hn
  obtain ⟨f, ⟨hf, -⟩, rfl⟩ := hn
  exact Members.declares_iff.2 (List.mem_append_left _ (List.mem_map_of_mem hf))

theorem shows_of_mem_generateSurfaces {entities : List Entity} {existing : List Surface}
    {s : Surface} (h : s ∈ generateSurfaces entities existing) : ∃ e ∈ entities, s.Shows e := by
  have hmem := (freshlyNamed_sublist _ _).subset h
  obtain ⟨e, he, hs⟩ := List.mem_flatMap.1 hmem
  unfold Entity.generatedSurfaces at hs
  obtain ⟨kind, -, hs⟩ := List.mem_flatMap.1 hs
  obtain ⟨⟨ending, mode⟩, -, rfl⟩ := List.mem_map.1 hs
  exact ⟨e, he, e.shows_generatedSurface kind ending mode⟩

/-- Generated surfaces repeat no name, neither of one another nor of a surface that is there. -/
theorem nodup_names_generateSurfaces {entities : List Entity} {existing : List Surface}
    (h : (existing.map Surface.name).Nodup) :
    ((existing ++ generateSurfaces entities existing).map Surface.name).Nodup := by
  rw [List.map_append, List.nodup_append]
  refine ⟨h, ?_, ?_⟩
  · unfold List.Nodup
    rw [List.pairwise_map]
    exact pairwise_freshlyNamed _ _
  · intro n hn m hm e
    obtain ⟨s, hs, rfl⟩ := List.mem_map.1 hm
    exact not_taken_of_mem_freshlyNamed hs (e ▸ hn)

end Blueprint
