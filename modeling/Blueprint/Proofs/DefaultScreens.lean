import Mathlib.Data.List.Nodup
import Blueprint.Proofs.Expansion

/-!
# Default screens

Generated surfaces can be put behind the surfaces that are declared: they repeat no name, and each
shows an entity as its kind calls for (`Surface.IsDefaultFor`). Keys and times that are set by
themselves are never shown, sensitive values only where they can be entered, and settings only to
administrators.

A generated surface is named for its entity, in lower case, and ends in what it is for. Entities
whose names become the same in lower case share these names, and the one that stands first gets the
surfaces (`mem_generateSurfaces_iff`). Names in camel case are never confused, so that no surface
goes missing among them (`exists_generated_of_camelCase`).
-/

namespace Blueprint

/-! ## Names in lower case -/

namespace Text

/-- ASCII characters other than the underscore. -/
def IsPlainName (name : List Char) : Prop := ∀ c ∈ name, c.toNat < 128 ∧ c ≠ '_'

/-- A plain name with an upper-case letter at the front. -/
def IsCamelCase : List Char → Prop
  | [] => False
  | c :: cs => isUpper c = true ∧ IsPlainName (c :: cs)

variable {c d : Char} {cs ds : List Char}

theorem IsPlainName.of_cons (h : IsPlainName (c :: cs)) : IsPlainName cs :=
  fun x hx => h x (List.mem_cons_of_mem _ hx)

theorem lower_of_lt (h : c.toNat < 128) : lower c = [c.toLower] := if_pos h

theorem toNat_toLower_of_isUpper (h : c.toNat < 128) (hu : isUpper c = true) :
    c.toLower.toNat = c.toNat + 32 := by
  unfold isUpper at hu
  rw [if_pos h] at hu
  have hrange := of_decide_eq_true hu
  have hlast : c.val.toNat ≤ 90 := UInt32.le_iff_toNat_le.1 hrange.2
  have hshift : ('a'.val - 'A'.val).toNat = 32 := rfl
  unfold Char.toLower
  rw [dif_pos hrange]
  show (c.val + ('a'.val - 'A'.val)).toNat = c.val.toNat + 32
  rw [UInt32.toNat_add, hshift]
  omega

theorem eq_of_toLower_eq (hc : c.toNat < 128) (hcu : isUpper c = true) (hd : d.toNat < 128)
    (hdu : isUpper d = true) (h : c.toLower = d.toLower) : c = d := by
  have hnat := toNat_toLower_of_isUpper hc hcu
  rw [h, toNat_toLower_of_isUpper hd hdu] at hnat
  exact Char.toNat_inj.1 (by omega)

theorem inner_cons_of_isUpper (hc : c.toNat < 128) (hu : isUpper c = true) :
    snakeCase.inner (c :: cs) = '_' :: c.toLower :: snakeCase.inner cs := by
  unfold snakeCase.inner
  rw [List.flatMap_cons, if_pos hu, lower_of_lt hc]
  rfl

theorem inner_cons_of_not_isUpper (hu : ¬ isUpper c = true) :
    snakeCase.inner (c :: cs) = c :: snakeCase.inner cs := by
  unfold snakeCase.inner
  rw [List.flatMap_cons, if_neg hu]
  rfl

theorem inner_cons_ne_nil (hc : c.toNat < 128) : snakeCase.inner (c :: cs) ≠ [] := by
  by_cases hu : isUpper c = true
  · rw [inner_cons_of_isUpper hc hu]
    exact List.cons_ne_nil _ _
  · rw [inner_cons_of_not_isUpper hu]
    exact List.cons_ne_nil _ _

/-- The underscores tell which letters of a plain name were upper-case. -/
theorem eq_of_inner_eq (hcs : IsPlainName cs) (hds : IsPlainName ds)
    (h : snakeCase.inner cs = snakeCase.inner ds) : cs = ds := by
  induction cs generalizing ds with
  | nil =>
    cases ds with
    | nil => rfl
    | cons d ds => exact absurd h.symm (inner_cons_ne_nil (hds d List.mem_cons_self).1)
  | cons c cs ih =>
    obtain ⟨hc, hcne⟩ := hcs c List.mem_cons_self
    cases ds with
    | nil => exact absurd h (inner_cons_ne_nil hc)
    | cons d ds =>
      obtain ⟨hd, hdne⟩ := hds d List.mem_cons_self
      by_cases hcu : isUpper c = true <;> by_cases hdu : isUpper d = true
      · rw [inner_cons_of_isUpper hc hcu, inner_cons_of_isUpper hd hdu] at h
        obtain ⟨hlower, hrest⟩ := List.cons.inj (List.cons.inj h).2
        rw [eq_of_toLower_eq hc hcu hd hdu hlower, ih hcs.of_cons hds.of_cons hrest]
      · rw [inner_cons_of_isUpper hc hcu, inner_cons_of_not_isUpper hdu] at h
        exact absurd (List.cons.inj h).1.symm hdne
      · rw [inner_cons_of_not_isUpper hcu, inner_cons_of_isUpper hd hdu] at h
        exact absurd (List.cons.inj h).1 hcne
      · rw [inner_cons_of_not_isUpper hcu, inner_cons_of_not_isUpper hdu] at h
        rw [(List.cons.inj h).1, ih hcs.of_cons hds.of_cons (List.cons.inj h).2]

theorem snakeCase_of_isUpper (hc : c.toNat < 128) (hu : isUpper c = true) :
    snakeCase (c :: cs) = c.toLower :: snakeCase.inner cs := by
  rw [snakeCase, if_pos hu, lower_of_lt hc]
  rfl

/-- Names in camel case stay apart in lower case. -/
theorem eq_of_snakeCase_eq (hcs : IsCamelCase cs) (hds : IsCamelCase ds)
    (h : snakeCase cs = snakeCase ds) : cs = ds := by
  match cs, ds, hcs, hds with
  | c :: cs, d :: ds, ⟨hcu, hcs⟩, ⟨hdu, hds⟩ =>
    have hc := (hcs c List.mem_cons_self).1
    have hd := (hds d List.mem_cons_self).1
    rw [snakeCase_of_isUpper hc hcu, snakeCase_of_isUpper hd hdu] at h
    rw [eq_of_toLower_eq hc hcu hd hdu (List.cons.inj h).1,
      eq_of_inner_eq hcs.of_cons hds.of_cons (List.cons.inj h).2]

end Text

/-! ## Names of surfaces -/

/-- The kind of the entity calls for a surface of the mode, whose name has the ending. -/
def Entity.CallsFor (e : Entity) (ending : String) (mode : SurfaceMode) : Prop :=
  ∃ kind, e.archetypeKind = some kind ∧ (ending, mode) ∈ kind.screens

/-- The first entity takes the name of a surface with the ending from the second one: their names
are the same in lower case, and its kind calls for such a surface as well. -/
def Entity.Takes (e' e : Entity) (ending : String) : Prop :=
  Text.snakeCase e'.name.toList = Text.snakeCase e.name.toList ∧ ∃ mode, e'.CallsFor ending mode

theorem toList_generatedName (entity ending : String) :
    (generatedName entity ending).toList =
      Text.snakeCase entity.toList ++ '_' :: ending.toList := by
  unfold generatedName
  simp

/-- Behind the last underscore of the name stands the ending. -/
theorem generatedName_eq_iff {a b x y : String} (hx : '_' ∉ x.toList) (hy : '_' ∉ y.toList) :
    generatedName a x = generatedName b y ↔
      Text.snakeCase a.toList = Text.snakeCase b.toList ∧ x = y := by
  rw [← String.toList_inj, toList_generatedName, toList_generatedName]
  constructor
  · intro h
    rcases List.append_eq_append_iff.1 h with ⟨between, hfront, hback⟩ | ⟨between, hfront, hback⟩
    · cases between with
      | nil => exact ⟨by simpa using hfront.symm, String.toList_inj.1 (List.cons.inj hback).2⟩
      | cons c between =>
        refine absurd ?_ hx
        rw [(List.cons.inj hback).2]
        simp
    · cases between with
      | nil => exact ⟨by simpa using hfront, (String.toList_inj.1 (List.cons.inj hback).2).symm⟩
      | cons c between =>
        refine absurd ?_ hy
        rw [(List.cons.inj hback).2]
        simp
  · rintro ⟨h, rfl⟩
    rw [h]

namespace ArchetypeKind

variable {kind : ArchetypeKind} {ending : String} {mode mode' : SurfaceMode}

theorem underscore_not_mem_of_mem_screens (h : (ending, mode) ∈ kind.screens) :
    '_' ∉ ending.toList := by
  have hall : ∀ kind : ArchetypeKind, ∀ s ∈ kind.screens, '_' ∉ s.1.toList := by
    rintro ⟨⟩ <;> decide
  exact hall kind _ h

theorem mode_eq_of_mem_screens (h : (ending, mode) ∈ kind.screens)
    (h' : (ending, mode') ∈ kind.screens) : mode = mode' := by
  have hall : ∀ kind : ArchetypeKind, ∀ s ∈ kind.screens, ∀ s' ∈ kind.screens,
      s.1 = s'.1 → s.2 = s'.2 := by
    rintro ⟨⟩ <;> decide
  exact hall kind _ h _ h' rfl

end ArchetypeKind

/-! ## What a default screen shows -/

/-- A surface of the mode may show the field: it is no key and no time that is set by itself, and
where records are only looked at it is not sensitive. -/
def Field.MayBeShown (f : Field) (mode : SurfaceMode) : Prop :=
  Modifier.pk ∉ f.modifiers ∧ Modifier.autoAdd ∉ f.modifiers ∧ Modifier.autoUpdate ∉ f.modifiers ∧
    (mode = .list ∨ mode = .view → Modifier.sensitive ∉ f.modifiers)

/-- Only administrators who have signed in can open the surface. -/
def Surface.IsForAdmins (s : Surface) : Prop :=
  ∃ access, s.access = some access ∧ access.requireAuth = true ∧
    access.allowPersonas = ["admin"] ∧ access.denyPersonas = []

/-- The surface shows the entity as its kind calls for. -/
structure Surface.IsDefaultFor (s : Surface) (e : Entity) : Prop where
  entity : s.entity = some e.name
  name : ∃ ending, e.CallsFor ending s.mode ∧ s.name = generatedName e.name ending
  /-- What is shown are fields of the entity in their order, and all that may be shown. -/
  fields : ∃ shown : List Field, shown.Sublist e.fields ∧ s.fieldNames = shown.map (·.name) ∧
    ∀ f, f ∈ shown ↔ f ∈ e.fields ∧ f.MayBeShown s.mode
  admins : e.archetypeKind = some .settings ∨ e.archetypeKind = some .tenantSettings →
    s.IsForAdmins

/-- Where no two fields share a name, the surface names the fields that may be shown and no
others. -/
theorem Surface.IsDefaultFor.mem_fieldNames_iff {s : Surface} {e : Entity} {f : Field}
    (h : s.IsDefaultFor e) (hd : (e.fields.map (·.name)).Nodup) (hf : f ∈ e.fields) :
    f.name ∈ s.fieldNames ↔ f.MayBeShown s.mode := by
  obtain ⟨shown, -, hnames, hshown⟩ := h.fields
  rw [hnames, List.mem_map]
  constructor
  · rintro ⟨g, hg, hname⟩
    obtain ⟨hmem, hmay⟩ := (hshown g).1 hg
    rwa [← List.inj_on_of_nodup_map hd hmem hf hname]
  · intro hmay
    exact ⟨f, (hshown f).2 ⟨hf, hmay⟩, rfl⟩

theorem Field.isShownIn_iff {f : Field} {mode : SurfaceMode} :
    f.isShownIn mode = true ↔ f.MayBeShown mode := by
  have hdisplay : mode.isDisplay = true ↔ mode = .list ∨ mode = .view := by
    cases mode <;> decide
  unfold isShownIn MayBeShown hasModifier
  simp only [Bool.and_eq_true, Bool.not_eq_true', Bool.or_eq_false_iff, List.contains_eq_mem,
    decide_eq_false_iff_not, Bool.and_eq_false_iff, and_assoc, ← hdisplay]
  cases mode.isDisplay <;> simp

theorem Entity.isDefaultFor_generatedSurface {e : Entity} {kind : ArchetypeKind} {ending : String}
    {mode : SurfaceMode} (hk : e.archetypeKind = some kind) (h : (ending, mode) ∈ kind.screens) :
    (e.generatedSurface kind ending mode).IsDefaultFor e := by
  refine ⟨rfl, ⟨ending, ⟨kind, hk, h⟩, rfl⟩, ⟨e.fields.filter (·.isShownIn mode), ?_, ?_, ?_⟩, ?_⟩
  · exact List.filter_sublist
  · simp [generatedSurface, Surface.fieldNames, Field.element]
  · intro f
    rw [List.mem_filter, Field.isShownIn_iff]
    rfl
  · intro hsettings
    have hrestricted : kind.isRestricted = true := by
      rw [hk] at hsettings
      rcases hsettings with e | e <;> cases e <;> rfl
    exact ⟨_, if_pos hrestricted, rfl, rfl, rfl⟩

theorem Entity.mem_generatedSurfaces_iff {e : Entity} {s : Surface} :
    s ∈ e.generatedSurfaces ↔ ∃ kind ending mode, e.archetypeKind = some kind ∧
      (ending, mode) ∈ kind.screens ∧ e.generatedSurface kind ending mode = s := by
  unfold generatedSurfaces
  simp

/-- Generated surfaces can be put behind the surfaces that are declared: no name is repeated, and
each surface shows an entity of the list as its kind calls for. -/
theorem generateSurfaces_default (entities : List Entity) (existing : List Surface) :
    ((generateSurfaces entities existing).map (·.name)).Nodup ∧
      (∀ s ∈ generateSurfaces entities existing, s.name ∉ existing.map (·.name)) ∧
      ∀ s ∈ generateSurfaces entities existing, ∃ e ∈ entities, s.IsDefaultFor e := by
  refine ⟨?_, fun s hs => not_taken_of_mem_freshlyNamed hs, fun s hs => ?_⟩
  · unfold List.Nodup
    rw [List.pairwise_map]
    exact pairwise_freshlyNamed _ _
  · obtain ⟨e, he, hs⟩ := List.mem_flatMap.1 ((freshlyNamed_sublist _ _).subset hs)
    obtain ⟨kind, ending, mode, hk, hscreen, rfl⟩ := Entity.mem_generatedSurfaces_iff.1 hs
    exact ⟨e, he, e.isDefaultFor_generatedSurface hk hscreen⟩

/-! ## Which default screens there are -/

section

variable {entities front back : List Entity} {e e' : Entity} {existing : List Surface}
  {s s' : Surface} {ending : String} {mode : SurfaceMode}

theorem Entity.entity_of_mem_generatedSurfaces (h : s ∈ e.generatedSurfaces) :
    s.entity = some e.name := by
  obtain ⟨kind, ending, mode, -, -, rfl⟩ := mem_generatedSurfaces_iff.1 h
  rfl

theorem Entity.takes_iff (hcall : e.CallsFor ending mode) :
    e'.Takes e ending ↔ ∃ s ∈ e'.generatedSurfaces, s.name = generatedName e.name ending := by
  obtain ⟨_, -, hscreen⟩ := hcall
  have hplain := ArchetypeKind.underscore_not_mem_of_mem_screens hscreen
  constructor
  · rintro ⟨halike, mode', kind, hk, hscreen'⟩
    exact ⟨_, mem_generatedSurfaces_iff.2 ⟨kind, ending, mode', hk, hscreen', rfl⟩,
      (generatedName_eq_iff hplain hplain).2 ⟨halike, rfl⟩⟩
  · rintro ⟨s, hs, hname⟩
    obtain ⟨kind, ending', mode', hk, hscreen', rfl⟩ := mem_generatedSurfaces_iff.1 hs
    have hplain' := ArchetypeKind.underscore_not_mem_of_mem_screens hscreen'
    obtain ⟨halike, rfl⟩ := (generatedName_eq_iff hplain' hplain).1 hname
    exact ⟨halike, mode', kind, hk, hscreen'⟩

/-- The surfaces of one entity are named apart. -/
theorem Entity.eq_of_mem_generatedSurfaces (hs : s ∈ e.generatedSurfaces)
    (hs' : s' ∈ e.generatedSurfaces) (h : s.name = s'.name) : s = s' := by
  obtain ⟨kind, ending, mode, hk, hscreen, rfl⟩ := mem_generatedSurfaces_iff.1 hs
  obtain ⟨kind', ending', mode', hk', hscreen', rfl⟩ := mem_generatedSurfaces_iff.1 hs'
  obtain rfl : kind = kind' := Option.some.inj (hk.symm.trans hk')
  have hplain := ArchetypeKind.underscore_not_mem_of_mem_screens hscreen
  have hplain' := ArchetypeKind.underscore_not_mem_of_mem_screens hscreen'
  obtain ⟨-, rfl⟩ := (generatedName_eq_iff hplain hplain').1 h
  rw [ArchetypeKind.mode_eq_of_mem_screens hscreen hscreen']

theorem find?_of_mem_generatedSurfaces (h : s ∈ e.generatedSurfaces) :
    e.generatedSurfaces.find? (·.name == s.name) = some s := by
  have hsome : (e.generatedSurfaces.find? (·.name == s.name)).isSome = true :=
    List.find?_isSome.2 ⟨s, h, beq_self_eq_true _⟩
  obtain ⟨s', hs'⟩ := Option.isSome_iff_exists.1 hsome
  rw [hs', Entity.eq_of_mem_generatedSurfaces (List.mem_of_find?_eq_some hs') h
    (eq_of_beq (List.find?_some hs' :))]

theorem name_ne_of_mem_front (hd : (entities.map (·.name)).Nodup)
    (hsplit : entities = front ++ e :: back) (h : e' ∈ front) : e'.name ≠ e.name := by
  rw [hsplit, List.map_append, List.nodup_append] at hd
  exact hd.2.2 _ (List.mem_map_of_mem h) _ (List.mem_map_of_mem List.mem_cons_self)

/-- A surface that the kind of an entity calls for is generated exactly if its name is not that of a
declared surface and no entity in front generates one under the name. -/
theorem mem_generateSurfaces_iff (hd : (entities.map (·.name)).Nodup)
    (hsplit : entities = front ++ e :: back) (hs : s ∈ e.generatedSurfaces) :
    s ∈ generateSurfaces entities existing ↔
      s.name ∉ existing.map (·.name) ∧
        ∀ e' ∈ front, ∀ s' ∈ e'.generatedSurfaces, s'.name ≠ s.name := by
  unfold generateSurfaces
  rw [mem_freshlyNamed_iff, hsplit, List.flatMap_append, List.flatMap_cons, List.find?_append,
    List.find?_append, find?_of_mem_generatedSurfaces hs, Option.some_or]
  refine and_congr_right fun _ => ?_
  have hnone : (front.flatMap Entity.generatedSurfaces).find? (·.name == s.name) = none ↔
      ∀ e' ∈ front, ∀ s' ∈ e'.generatedSurfaces, s'.name ≠ s.name := by
    simp only [List.find?_eq_none, List.mem_flatMap, beq_iff_eq]
    exact ⟨fun h e' he' s' hs' => h s' ⟨e', he', hs'⟩,
      fun h s' ⟨e', he', hs'⟩ => h e' he' s' hs'⟩
  rw [← hnone]
  constructor
  · intro hsome
    rw [Option.or_eq_some_iff] at hsome
    rcases hsome with hfront | ⟨hfront, -⟩
    · obtain ⟨e', he', hs'⟩ := List.mem_flatMap.1 (List.mem_of_find?_eq_some hfront)
      have hname := Entity.entity_of_mem_generatedSurfaces hs'
      rw [Entity.entity_of_mem_generatedSurfaces hs] at hname
      exact absurd (Option.some.inj hname).symm (name_ne_of_mem_front hd hsplit he')
    · exact hfront
  · intro hfront
    rw [hfront, Option.none_or]

theorem exists_generated_iff_not_takes (hd : (entities.map (·.name)).Nodup)
    (hsplit : entities = front ++ e :: back) (hcall : e.CallsFor ending mode) :
    (∃ s ∈ generateSurfaces entities existing,
        s.name = generatedName e.name ending ∧ s.entity = some e.name) ↔
      generatedName e.name ending ∉ existing.map (·.name) ∧ ∀ e' ∈ front, ¬ e'.Takes e ending := by
  have hmem : e ∈ entities := hsplit ▸ List.mem_append_right _ List.mem_cons_self
  simp only [Entity.takes_iff hcall, not_exists, not_and]
  constructor
  · rintro ⟨s, hs, hname, hentity⟩
    obtain ⟨e', he', hs'⟩ := List.mem_flatMap.1 ((freshlyNamed_sublist _ _).subset hs)
    rw [Entity.entity_of_mem_generatedSurfaces hs'] at hentity
    obtain rfl := List.inj_on_of_nodup_map hd he' hmem (Option.some.inj hentity)
    rw [← hname]
    exact (mem_generateSurfaces_iff hd hsplit hs').1 hs
  · intro hfree
    obtain ⟨kind, hk, hscreen⟩ := hcall
    have hs := Entity.mem_generatedSurfaces_iff.2 ⟨kind, ending, mode, hk, hscreen, rfl⟩
    exact ⟨_, (mem_generateSurfaces_iff hd hsplit hs).2 hfree, rfl, rfl⟩

/-- Every name that a kind calls for is that of a surface, declared or generated. It is generated
for the entity itself exactly if no declared surface has it and no entity in front takes it. -/
theorem exists_generated_iff (hd : (entities.map (·.name)).Nodup)
    (hsplit : entities = front ++ e :: back) (hcall : e.CallsFor ending mode) :
    (∃ s ∈ existing ++ generateSurfaces entities existing, s.name = generatedName e.name ending) ∧
      ((∃ s ∈ generateSurfaces entities existing,
          s.name = generatedName e.name ending ∧ s.entity = some e.name) ↔
        generatedName e.name ending ∉ existing.map (·.name) ∧
          ∀ e' ∈ front, ¬ e'.Takes e ending) := by
  refine ⟨?_, exists_generated_iff_not_takes hd hsplit hcall⟩
  obtain ⟨kind, hk, hscreen⟩ := hcall
  have hs := Entity.mem_generatedSurfaces_iff.2 ⟨kind, ending, mode, hk, hscreen, rfl⟩
  have hall : e.generatedSurface kind ending mode ∈ entities.flatMap Entity.generatedSurfaces :=
    List.mem_flatMap.2 ⟨e, hsplit ▸ List.mem_append_right _ List.mem_cons_self, hs⟩
  rcases @taken_or_kept_of_mem _ Surface.name (existing.map Surface.name) _ _ hall
    with hname | ⟨s, hs, hname⟩
  · obtain ⟨s, hs, hname⟩ := List.mem_map.1 hname
    exact ⟨s, List.mem_append_left _ hs, hname⟩
  · exact ⟨s, List.mem_append_right _ hs, hname⟩

/-- A user entity of the given name. -/
def userEntity (name : String) : Entity :=
  { location := ⟨"team.dsl", 1, 1, none⟩, name, archetypeKind := some .user }

theorem exists_generated_iff_members :
    (([userEntity "TeamMember", userEntity "team_member"].map (·.name)).Nodup ∧
      [userEntity "TeamMember", userEntity "team_member"] =
        [] ++ userEntity "TeamMember" :: [userEntity "team_member"] ∧
      (userEntity "TeamMember").CallsFor "list" .list) ∧
    ∃ s ∈ generateSurfaces [userEntity "TeamMember", userEntity "team_member"] [],
      s.name = generatedName "TeamMember" "list" ∧ s.entity = some "TeamMember" := by
  have hd : ([userEntity "TeamMember", userEntity "team_member"].map (·.name)).Nodup := by decide
  have hcall : (userEntity "TeamMember").CallsFor "list" .list := ⟨.user, rfl, by decide⟩
  have hsplit : [userEntity "TeamMember", userEntity "team_member"] =
      [] ++ userEntity "TeamMember" :: [userEntity "team_member"] := rfl
  refine ⟨⟨hd, hsplit, hcall⟩, (exists_generated_iff hd hsplit hcall).2.2 ⟨List.not_mem_nil, ?_⟩⟩
  exact fun _ h => absurd h List.not_mem_nil

/-- Of two entities whose names are the same in lower case, the second gets no surfaces. -/
theorem generated_for_first_only :
    ([userEntity "TeamMember", userEntity "team_member"].map (·.name)).Nodup ∧
      (userEntity "team_member").CallsFor "list" .list ∧
      ¬ ∃ s ∈ generateSurfaces [userEntity "TeamMember", userEntity "team_member"] [],
        s.name = generatedName "team_member" "list" ∧ s.entity = some "team_member" := by
  exact ⟨by decide, ⟨.user, rfl, by decide⟩, by decide +kernel⟩

/-- Among names in camel case no surface goes missing. -/
theorem exists_generated_of_camelCase (hd : (entities.map (·.name)).Nodup)
    (hcamel : ∀ e ∈ entities, Text.IsCamelCase e.name.toList) (he : e ∈ entities)
    (hcall : e.CallsFor ending mode) (hfree : generatedName e.name ending ∉ existing.map (·.name)) :
    ∃ s ∈ generateSurfaces entities existing,
      s.name = generatedName e.name ending ∧ s.entity = some e.name := by
  obtain ⟨front, back, hsplit⟩ := List.append_of_mem he
  refine (exists_generated_iff_not_takes hd hsplit hcall).2 ⟨hfree, ?_⟩
  rintro e' he' ⟨halike, -⟩
  have hmem : e' ∈ entities := hsplit ▸ List.mem_append_left _ he'
  have hname := Text.eq_of_snakeCase_eq (hcamel e' hmem) (hcamel e he) halike
  exact name_ne_of_mem_front hd hsplit he' (String.toList_inj.1 hname)

end

end Blueprint
