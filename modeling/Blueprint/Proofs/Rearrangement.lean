import Blueprint.Proofs.Collisions
import Blueprint.Proofs.Validation

/-!
# Rearranged modules

What modules declare does not depend on their order, nor on which others they use. Two symbol tables
are `Rearranged` if they hold the same declarations in any order, with the same owners, as those of
rearranged modules do (`rearranged_of_contents`). They lead references to the same places, so
whatever is valid for one is valid for the other (`Rearranged.valid`).
-/

namespace Blueprint

/-- What a module is called and declares. -/
def Module.content (m : Module) : String × Declarations := (m.name, m.declarations)

/-- What depends on nothing but the contents of modules is there in both lists, in any order. -/
theorem flatMap_perm_of_content {β : Type} {modules modules' : List Module} {f : Module → List β}
    (hf : ∀ m n : Module, m.content = n.content → f m = f n)
    (h : (modules'.map Module.content).Perm (modules.map Module.content)) :
    (modules'.flatMap f).Perm (modules.flatMap f) := by
  let g : String × Declarations → List β := fun c =>
    f { name := c.1, file := "", declarations := c.2 }
  have hg : ∀ l : List Module, l.flatMap f = (l.map Module.content).flatMap g := by
    intro l
    rw [List.flatMap_map]
    exact List.flatMap_congr fun m _ => hf _ _ rfl
  rw [hg, hg]
  exact h.flatMap_right g

/-- Rearranging at most one thing changes nothing. -/
theorem eq_toList_of_perm {α : Type} {l : List α} {o : Option α} (h : l.Perm o.toList) :
    l = o.toList := by
  cases o with
  | none => exact List.perm_nil.1 h
  | some a => exact List.perm_singleton.1 h

/-- The second table holds the declarations of the first, in any order, with the same owners. -/
structure SymbolTable.Rearranged (t t' : SymbolTable) : Prop where
  named : ∀ k, (t'.declarations.named k).Perm (t.declarations.named k)
  single : ∀ what, t'.declarations.single? what = t.declarations.single? what
  owner? : ∀ k n, t'.owner? k n = t.owner? k n

theorem flatMap_declarations_perm {β : Type} {modules modules' : List Module}
    (h : (modules'.map Module.content).Perm (modules.map Module.content))
    (f : Declarations → List β) :
    (modules'.flatMap fun m => f m.declarations).Perm (modules.flatMap fun m => f m.declarations) :=
  flatMap_perm_of_content (fun _ _ e => congrArg f (congrArg Prod.snd e)) h

/-- Tables of the same modules in any order, up to what these use. -/
theorem SymbolTable.rearranged_of_contents {modules modules' : List Module} {t t' : SymbolTable}
    (ht : of? modules = .ok t) (ht' : of? modules' = .ok t')
    (h : (modules'.map Module.content).Perm (modules.map Module.content)) : t.Rearranged t' := by
  constructor
  · intro k
    rw [declarations_of_of? ht, declarations_of_of? ht']
    exact flatMap_declarations_perm h fun d => d.named k
  · intro what
    have hlist : (t'.declarations.single? what).toList.Perm
        (t.declarations.single? what).toList := by
      rw [toList_single? ht, toList_single? ht']
      exact flatMap_declarations_perm h fun d => (d.single? what).toList
    have hhead := congrArg List.head? (eq_toList_of_perm hlist)
    rwa [Option.head?_toList, Option.head?_toList] at hhead
  · have howner {l l' : List Module} {s s' : SymbolTable} (hs : of? l = .ok s)
        (hs' : of? l' = .ok s') (hl : (l'.map Module.content).Perm (l.map Module.content))
        {k : DeclKind} {n owner : String} (ho : s.owner? k n = some owner) :
        s'.owner? k n = some owner := by
      obtain ⟨m, hm, hname, hdecl⟩ := (owner?_eq_some_iff hs).1 ho
      obtain ⟨m', hm', e⟩ := List.mem_map.1 (hl.mem_iff.2 (List.mem_map_of_mem hm))
      refine (owner?_eq_some_iff hs').2 ⟨m', hm', ?_, ?_⟩
      · exact (congrArg Prod.fst e).trans hname
      · rw [show m'.declarations = m.declarations from congrArg Prod.snd e]
        exact hdecl
    exact fun k n => Option.ext fun owner => ⟨howner ht' ht h.symm, howner ht ht' h⟩

/-- Rearranged modules have a symbol table too. -/
theorem SymbolTable.exists_rearranged {modules modules' : List Module} {t : SymbolTable}
    (ht : of? modules = .ok t)
    (h : (modules'.map Module.content).Perm (modules.map Module.content)) :
    ∃ t', of? modules' = .ok t' ∧ t.Rearranged t' := by
  obtain ⟨t', ht'⟩ := exists_of?_iff.2
    ((flatMap_declarations_perm h Declarations.subjects).nodup_iff.2 (nodup_subjects ht))
  exact ⟨t', ht', rearranged_of_contents ht ht' h⟩

/-- Every intent has a model to run on: a default one, one that is declared, or its own. -/
theorem intentFindings_eq_nil_iff {d : Declarations} :
    intentFindings d = [] ↔ (d.llmConfig.bind (·.defaultModel)).isSome = true ∨
      d.named .llmModel ≠ [] ∨ ∀ i ∈ d.named .llmIntent, LlmIntent.model i ≠ none := by
  have hfindings : ∀ (hasDefault : Bool) (models : List LlmModel) (intents : List LlmIntent),
      (if hasDefault || !models.isEmpty then ([] : List (Finding ReferenceFault))
        else (intents.filter (·.model.isNone)).map fun i => ⟨some i.location, .noModel i.name⟩) =
          [] ↔ hasDefault = true ∨ models ≠ [] ∨ ∀ i ∈ intents, i.model ≠ none := by
    intro hasDefault models intents
    cases hasDefault <;> cases models <;> simp
  exact hfindings _ _ _

namespace SymbolTable.Rearranged

variable {t t' : SymbolTable} (h : t.Rearranged t')

include h

theorem symm : t'.Rearranged t :=
  ⟨fun k => (h.named k).symm, fun what => (h.single what).symm, fun k n => (h.owner? k n).symm⟩

theorem singletons :
    t'.declarations.llmConfig = t.declarations.llmConfig ∧
      t'.declarations.policies = t.declarations.policies ∧
        t'.declarations.tenancy = t.declarations.tenancy :=
  ⟨h.single .llmConfig, h.single .policies, h.single .tenancy⟩

/-! ## Look-ups -/

theorem mem_named {k : DeclKind} {b : k.Body} :
    b ∈ t'.declarations.named k ↔ b ∈ t.declarations.named k :=
  (h.named k).mem_iff

theorem contains (k : DeclKind) (n : String) : t'.contains k n = t.contains k n := by
  rw [Bool.eq_iff_iff, contains_iff, contains_iff]
  exact ((h.named k).map k.name).mem_iff

theorem resolve? (r : Reference) : r.resolve? t' = r.resolve? t := by
  unfold Reference.resolve?
  simp only [h.contains]

theorem reference_owner? (r : Reference) : r.owner? t' = r.owner? t := by
  unfold Reference.owner?
  simp only [h.resolve?, h.owner?]

/-- What is declared under a name is the same, whatever the order of modules. -/
theorem find? (k : DeclKind) (n : String) : t'.find? k n = t.find? k n := by
  refine Option.ext fun b => ?_
  rw [find?_eq_some_iff, find?_eq_some_iff, h.mem_named]

theorem archetypesOf (e : Entity) : t'.archetypesOf e = t.archetypesOf e := by
  unfold SymbolTable.archetypesOf
  rw [show t'.find? .archetype = t.find? .archetype from funext (h.find? .archetype)]

theorem hasField (e : Entity) (field : String) : t'.hasField e field = t.hasField e field := by
  unfold SymbolTable.hasField
  rw [h.archetypesOf]

theorem action_finding? (s : Surface) (a : SurfaceAction) : a.finding? t' s = a.finding? t s := by
  unfold SurfaceAction.finding?
  simp only [h.find?]

/-! ## Validity -/

theorem mem_references {r : Reference} :
    r ∈ t'.declarations.references ↔ r ∈ t.declarations.references := by
  have hsingle (k : DeclKind) :
      t'.declarations.singleReferences k = t.declarations.singleReferences k := by
    unfold Declarations.singleReferences
    rw [h.singletons.1, h.singletons.2.1]
  simp only [Declarations.mem_references, h.mem_named, hsingle]

theorem mem_fieldMentions {m : FieldMention} :
    m ∈ t'.declarations.fieldMentions ↔ m ∈ t.declarations.fieldMentions := by
  have hnamed : ∀ (k : DeclKind) (p : k.Body → Prop),
      (∃ b ∈ t'.declarations.named k, p b) ↔ ∃ b ∈ t.declarations.named k, p b := by
    intro k p
    simp only [h.mem_named]
  rw [Declarations.mem_fieldMentions, Declarations.mem_fieldMentions, h.singletons.2.1]
  exact or_congr (hnamed .entity _)
    (or_congr (hnamed .surface _) (or_congr_right (hnamed .ledger _)))

/-- Declarations stay valid when modules are rearranged. -/
theorem valid (hv : t.declarations.Valid t) : t'.declarations.Valid t' where
  references r hr := by
    rw [h.resolve?]
    exact hv.references r (h.mem_references.1 hr)
  mentions m hm e he := by
    rw [h.hasField]
    rw [h.find?] at he
    exact hv.mentions m (h.mem_fieldMentions.1 hm) e he
  actions s hs a ha := by
    rw [h.action_finding?]
    exact hv.actions s (h.mem_named.1 hs) a ha
  experiences e he := hv.experiences e (h.mem_named.1 he)
  intents := by
    have hi := intentFindings_eq_nil_iff.1 hv.intents
    rw [← h.singletons.1] at hi
    refine intentFindings_eq_nil_iff.2 (hi.imp_right (Or.imp ?_ ?_))
    · exact fun hm e => hm (List.perm_nil.1 (e ▸ (h.named .llmModel).symm))
    · exact fun hall i hmem => hall i (h.mem_named.1 hmem)

end SymbolTable.Rearranged

/-! ## The application -/

theorem declaredApp?_eq_ok_iff {modules : List Module} {app : Option App} :
    declaredApp? modules = .ok app ↔ (modules.flatMap fun m => m.app.toList) = app.toList := by
  have hmap : (modules.flatMap fun m => m.app.toList) =
      (modules.filterMap fun m => m.app.map fun a => (m.name, a)).map (·.2) := by
    induction modules with
    | nil => rfl
    | cons m modules ih =>
      rw [List.flatMap_cons, List.filterMap_cons, ih]
      cases m.app <;> rfl
  unfold declaredApp?
  rw [hmap]
  split
  · next e => cases app <;> simp [e]
  · next name only e => cases app <;> simp [e]
  · next name first others hne e =>
    cases app with
    | none => simp [e]
    | some app =>
      refine iff_of_false (by simp) ?_
      rw [e, List.map_cons, Option.toList_some, List.cons.injEq, List.map_eq_nil_iff]
      exact fun h => hne h.2

end Blueprint
