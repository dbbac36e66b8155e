import Blueprint.Proofs.Linking

/-!
# What validation establishes

Declarations are valid if their references lead somewhere, if each field that is named somewhere
(`Declarations.fieldMentions`) is there on the entity for which it is named, and if actions,
experiences and intents lead on (`validateReferences_eq_ok_iff_valid`).
-/

namespace Blueprint

/-! ## Mentions of fields -/

/-- A field that is named, and the entity that is to have it. -/
structure FieldMention where
  entity : String
  field : String
  deriving DecidableEq

/-- The fields that constraints and the display field name. -/
def Entity.fieldMentions (e : Entity) : List FieldMention :=
  (e.constraints.flatMap (·.fields) ++ e.displayField.toList).map (⟨e.name, ·⟩)

/-- The fields that are shown, sorted by, filtered by or searched. -/
def Surface.fieldMentions (s : Surface) : List FieldMention :=
  s.entity.toList.flatMap fun e =>
    (s.fieldNames ++ s.presentation.toList.flatMap (·.fieldNames)).map (⟨e, ·⟩)

/-- The fields that are classified. -/
def Policies.fieldMentions (p : Policies) : List FieldMention :=
  p.classifications.map fun c => ⟨c.entity, c.field⟩

/-- The field that balances are written to. -/
def Ledger.fieldMentions (l : Ledger) : List FieldMention :=
  l.syncTo.toList.map fun s => ⟨s.entity, s.field⟩

/-- All fields that declarations name, each with the entity that is to have it. -/
def Declarations.fieldMentions (d : Declarations) : List FieldMention :=
  let ledgers : List Ledger := d.named .ledger
  d.entities.flatMap Entity.fieldMentions ++ d.surfaces.flatMap Surface.fieldMentions ++
    d.policies.toList.flatMap Policies.fieldMentions ++ ledgers.flatMap Ledger.fieldMentions

/-- The entity, if it is declared, has the field that is named for it. -/
def FieldMention.Holds (t : SymbolTable) (m : FieldMention) : Prop :=
  ∀ e : Entity, t.find? .entity m.entity = some e → t.hasField e m.field = true

/-- The entity is declared and has the field itself. -/
def FieldMention.Present (d : Declarations) (m : FieldMention) : Prop :=
  ∃ e ∈ d.entities, e.name = m.entity ∧ e.declares m.field = true

/-- What is present is found. -/
theorem FieldMention.Present.holds {t : SymbolTable} {m : FieldMention}
    (h : m.Present t.declarations) : m.Holds t := by
  intro e' hfind
  obtain ⟨e, he, hname, hfield⟩ := h
  cases hfind.symm.trans (SymbolTable.find?_eq_some_iff.2 ⟨he, hname⟩)
  unfold SymbolTable.hasField
  rw [hfield]
  rfl

theorem unknownFields_eq_nil_iff {t : SymbolTable} {location : Location} {context entity : String}
    {fields : List String} :
    unknownFields t location context entity fields = [] ↔
      ∀ f ∈ fields, FieldMention.Holds t ⟨entity, f⟩ := by
  unfold unknownFields FieldMention.Holds
  cases h : t.find? .entity entity with
  | none => exact iff_of_true rfl fun f _ e he => nomatch h.symm.trans he
  | some e =>
    have hsame : ∀ f, (∀ e' : Entity, t.find? .entity entity = some e' → t.hasField e' f = true) ↔
        t.hasField e f = true := by
      intro f
      refine ⟨fun hf => hf e h, fun hf e' he => ?_⟩
      cases h.symm.trans he
      exact hf
    simp [hsame]

/-! ## Findings -/

section

variable {t : SymbolTable}

theorem Entity.findings_eq_nil_iff {e : Entity} :
    e.findings t = [] ↔ ∀ m ∈ e.fieldMentions, m.Holds t := by
  unfold findings fieldMentions
  simp only [List.append_eq_nil_iff, List.flatMap_eq_nil_iff, unknownFields_eq_nil_iff,
    List.forall_mem_map, List.mem_append, List.mem_flatMap]
  constructor
  · rintro ⟨hc, hd⟩ f (⟨c, hmem, hf⟩ | hf)
    · exact hc c hmem f hf
    · exact hd f hf
  · exact fun h => ⟨fun c hmem f hf => h f (.inl ⟨c, hmem, hf⟩), fun f hf => h f (.inr hf)⟩

theorem Surface.findings_eq_nil_iff {s : Surface} :
    s.findings t = [] ↔
      (∀ m ∈ s.fieldMentions, m.Holds t) ∧ ∀ a ∈ s.actions, a.finding? t s = none := by
  unfold findings fieldMentions
  simp only [List.append_eq_nil_iff, List.flatMap_eq_nil_iff, unknownFields_eq_nil_iff,
    List.filterMap_eq_nil_iff, List.mem_flatMap, List.mem_map, List.mem_append]
  refine and_congr_left fun _ => ?_
  constructor
  · rintro h m ⟨e, he, f, hf | ⟨p, hp, hf⟩, rfl⟩
    · exact (h e he).1 f hf
    · exact (h e he).2 p hp f hf
  · intro h e he
    exact ⟨fun f hf => h _ ⟨e, he, f, .inl hf, rfl⟩,
      fun p hp f hf => h _ ⟨e, he, f, .inr ⟨p, hp, hf⟩, rfl⟩⟩

/-- There is no finding about an action if the integration that it leads to, as far as it is
declared, has the action that is named. -/
theorem SurfaceAction.finding?_eq_none_iff {s : Surface} {a : SurfaceAction} :
    a.finding? t s = none ↔ ∀ o, a.outcome = some o → o.kind = .integration →
      ∀ wanted, o.action = some wanted → ∀ i : Integration,
        t.find? .integration o.target = some i → i.actions.any (·.name == wanted) = true := by
  unfold finding?
  simp only [bind, Option.bind_eq_none_iff]
  refine forall₂_congr fun o _ => ?_
  by_cases hk : o.kind = .integration
  · rw [if_neg (not_not.2 hk)]
    simp only [hk, forall_const, Option.bind_eq_none_iff]
    refine forall₂_congr fun wanted _ => Option.bind_eq_none_iff.trans ?_
    exact forall₂_congr fun i _ => by simp
  · simp [hk]

theorem Policies.findings_eq_nil_iff {p : Policies} :
    p.findings t = [] ↔ ∀ m ∈ p.fieldMentions, m.Holds t := by
  unfold findings fieldMentions
  simp only [List.flatMap_eq_nil_iff, unknownFields_eq_nil_iff, List.mem_singleton, forall_eq,
    List.forall_mem_map]

theorem Ledger.findings_eq_nil_iff {l : Ledger} :
    l.findings t = [] ↔ ∀ m ∈ l.fieldMentions, m.Holds t := by
  unfold findings fieldMentions
  simp only [List.flatMap_eq_nil_iff, unknownFields_eq_nil_iff, List.mem_singleton, forall_eq,
    List.forall_mem_map]

end

/-- What validation asks of declarations. -/
structure Declarations.Valid (d : Declarations) (t : SymbolTable) : Prop where
  references : ∀ r ∈ d.references, (r.resolve? t).isSome = true
  mentions : ∀ m ∈ d.fieldMentions, m.Holds t
  actions : ∀ s ∈ d.surfaces, ∀ a ∈ s.actions, a.finding? t s = none
  experiences : ∀ e ∈ d.named .experience, Experience.findings e = []
  intents : intentFindings d = []

theorem Declarations.mem_fieldMentions {d : Declarations} {m : FieldMention} :
    m ∈ d.fieldMentions ↔
      (∃ e ∈ d.entities, m ∈ e.fieldMentions) ∨ (∃ s ∈ d.surfaces, m ∈ s.fieldMentions) ∨
        (∃ p ∈ d.policies, m ∈ p.fieldMentions) ∨
          ∃ l ∈ d.named .ledger, m ∈ Ledger.fieldMentions l := by
  unfold fieldMentions
  simp only [List.mem_append, List.mem_flatMap, Option.mem_toList, or_assoc]
  exact or_congr_right (or_congr_right (or_congr_right List.mem_flatMap))

/-- Declarations are accepted exactly if they are valid. -/
theorem validateReferences_eq_ok_iff_valid {t : SymbolTable} {d : Declarations} :
    validateReferences t d = .ok () ↔ d.Valid t := by
  have hledgers : List.flatMap (Ledger.findings t) (d.named .ledger) = [] ↔
      ∀ l ∈ d.named .ledger, ∀ m ∈ Ledger.fieldMentions l, m.Holds t :=
    List.flatMap_eq_nil_iff.trans (forall₂_congr fun l _ => Ledger.findings_eq_nil_iff)
  have hexperiences : List.flatMap Experience.findings (d.named .experience) = [] ↔
      ∀ e ∈ d.named .experience, Experience.findings e = [] := List.flatMap_eq_nil_iff
  rw [validateReferences_eq_ok_iff]
  unfold referenceFindings
  simp only [List.append_eq_nil_iff, hledgers, hexperiences, unknownNames_eq_nil_iff,
    List.flatMap_eq_nil_iff, Entity.findings_eq_nil_iff, Surface.findings_eq_nil_iff,
    Policies.findings_eq_nil_iff, Option.mem_toList]
  constructor
  · rintro ⟨⟨⟨⟨⟨⟨hr, he⟩, hs⟩, hx⟩, hp⟩, hl⟩, hi⟩
    refine ⟨hr, fun m hm => ?_, fun s hmem => (hs s hmem).2, hx, hi⟩
    rcases Declarations.mem_fieldMentions.1 hm with
      ⟨e, hmem, hm⟩ | ⟨s, hmem, hm⟩ | ⟨p, hmem, hm⟩ | ⟨l, hmem, hm⟩
    · exact he e hmem m hm
    · exact (hs s hmem).1 m hm
    · exact hp p hmem m hm
    · exact hl l hmem m hm
  · intro h
    have hm := fun m hm => h.mentions m (Declarations.mem_fieldMentions.2 hm)
    exact ⟨⟨⟨⟨⟨⟨h.references, fun e he m hmem => hm m (.inl ⟨e, he, hmem⟩)⟩,
      fun s hs => ⟨fun m hmem => hm m (.inr (.inl ⟨s, hs, hmem⟩)), h.actions s hs⟩⟩,
      h.experiences⟩, fun p hp m hmem => hm m (.inr (.inr (.inl ⟨p, hp, hmem⟩)))⟩,
      fun l hl m hmem => hm m (.inr (.inr (.inr ⟨l, hl, hmem⟩)))⟩, h.intents⟩

/-- Whatever names a field for an entity refers to the entity, or is its declaration. -/
theorem Declarations.Valid.entity_mem {t : SymbolTable} (h : t.declarations.Valid t)
    {m : FieldMention} (hm : m ∈ t.declarations.fieldMentions) :
    m.entity ∈ t.declarations.namesOf .entity := by
  have hfound : ∀ r ∈ t.declarations.references, r.kinds = [.entity] →
      r.name ∈ t.declarations.namesOf .entity := by
    intro r hr hk
    obtain ⟨k, hmem, hn⟩ := Reference.isSome_resolve?_iff.1 (h.references r hr)
    rw [hk, List.mem_singleton] at hmem
    exact hmem ▸ hn
  rcases mem_fieldMentions.1 hm with ⟨e, he, hm⟩ | ⟨s, hs, hm⟩ | ⟨p, hp, hm⟩ | ⟨l, hl, hm⟩
  · obtain ⟨_, -, rfl⟩ := List.mem_map.1 hm
    exact List.mem_map_of_mem he
  · obtain ⟨e, he, hm⟩ := List.mem_flatMap.1 hm
    obtain ⟨_, -, rfl⟩ := List.mem_map.1 hm
    let r : Reference := ⟨.entity, none, e, s.location, titled .surface s.name⟩
    refine hfound r (mem_references.2 ⟨.surface, .inl ⟨s, hs, ?_⟩⟩) rfl
    exact List.mem_append_left _ (List.mem_map_of_mem he)
  · obtain ⟨c, hc, rfl⟩ := List.mem_map.1 hm
    let r : Reference := ⟨.entity, none, c.entity, p.location, "policies classify"⟩
    refine hfound r (mem_references.2 ⟨.stream, .inr ?_⟩) rfl
    refine List.mem_flatMap.2 ⟨p, Option.mem_toList.2 hp, ?_⟩
    exact List.mem_append_left _ (List.mem_map_of_mem (List.mem_map_of_mem hc))
  · obtain ⟨s, hs, rfl⟩ := List.mem_map.1 hm
    let r : Reference := ⟨.entity, none, s.entity, Ledger.location l,
      titled .ledger (Ledger.name l) ++ " sync_to"⟩
    refine hfound r (mem_references.2 ⟨.ledger, .inl ⟨l, hl, ?_⟩⟩) rfl
    refine List.mem_map_of_mem (Option.mem_toList.2 ?_)
    rw [Option.mem_toList.1 hs]
    rfl

end Blueprint
