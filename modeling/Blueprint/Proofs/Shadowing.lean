import Blueprint.Proofs.Collisions
import Blueprint.Proofs.UnusedImports

/-!
# Names that hide each other

A reference may mean more than one kind: what a workspace shows is an entity or a view. It leads to
the first of its kinds under which the name is declared, in whatever module
(`Reference.owner?_eq_findSome?`). So a name that a module sees under a later kind is hidden if a
module that it may not refer to declares it under an earlier one, and the reference is a violation
then. Nothing else hides a name (`violation?_eq_none_iff_not_barred`).

A module that refers to its own declarations only is thus at the mercy of other modules, but no more
than for the names of its views (`visible_view_hidden`).
-/

namespace Blueprint

/-- What is declared under the name belongs to the module or to one that it uses. -/
def Module.SeesName (m : Module) (t : SymbolTable) (k : DeclKind) (n : String) : Prop :=
  ∃ owner, t.owner? k n = some owner ∧ (owner = m.name ∨ owner ∈ m.uses)

/-- What is declared under the name belongs to a module that this one neither is nor uses. -/
def Module.IsBarred (m : Module) (t : SymbolTable) (k : DeclKind) (n : String) : Prop :=
  ∃ owner, t.owner? k n = some owner ∧ ¬ (owner = m.name ∨ owner ∈ m.uses)

section

variable {m : Module} {t : SymbolTable} {r : Reference} {k : DeclKind} {n : String}
  {before after : List DeclKind}

theorem Module.not_isBarred_iff :
    ¬ m.IsBarred t k n ↔ ∀ owner, t.owner? k n = some owner → m.sees owner = true := by
  unfold IsBarred
  simp only [sees_iff, not_exists, not_and, not_not]

theorem Module.SeesName.not_isBarred (h : m.SeesName t k n) : ¬ m.IsBarred t k n := by
  obtain ⟨owner, ho, hs⟩ := h
  rintro ⟨other, ho', hbarred⟩
  obtain rfl := Option.some.inj (ho.symm.trans ho')
  exact hbarred hs

/-! ## Where a reference leads -/

/-- What a reference leads to belongs to the first owner of its name under one of its kinds. -/
theorem Reference.owner?_eq_findSome? (r : Reference) (t : SymbolTable) :
    r.owner? t = r.kinds.findSome? fun k => t.owner? k r.name := by
  unfold owner? resolve?
  simp only [SymbolTable.contains_eq_isSome_owner?]
  induction r.kinds with
  | nil => rfl
  | cons k rest ih =>
    rw [List.find?_cons, List.findSome?_cons, ← ih]
    cases ho : t.owner? k r.name with
    | none => rfl
    | some owner => exact ho

/-- A reference means two kinds at most. -/
theorem Reference.eq_nil_or_singleton_of_kinds (hk : r.kinds = before ++ k :: after) :
    before = [] ∨ ∃ first, before = [first] := by
  have hlength := congrArg List.length hk
  have htwo : r.kinds.length ≤ 2 := by
    unfold kinds
    cases r.otherKind <;> simp
  rw [List.length_append, List.length_cons] at hlength
  match before with
  | [] => exact .inl rfl
  | [first] => exact .inr ⟨first, rfl⟩
  | _ :: _ :: _ =>
    simp only [List.length_cons] at hlength
    omega

/-- A name that a module sees is visible unless an earlier kind of the reference bars it. -/
theorem Module.violation?_eq_none_iff_of_seesName (hk : r.kinds = before ++ k :: after)
    (hs : m.SeesName t k r.name) :
    m.violation? t r = none ↔ ∀ k' ∈ before, ¬ m.IsBarred t k' r.name := by
  have hseen := not_isBarred_iff.1 hs.not_isBarred
  obtain ⟨owner, ho, -⟩ := hs
  rw [violation?_eq_none_iff_owner, Reference.owner?_eq_findSome?, hk, List.findSome?_append,
    List.findSome?_cons, ho]
  rcases Reference.eq_nil_or_singleton_of_kinds hk with rfl | ⟨first, rfl⟩
  · simp [hseen owner ho]
  · rw [List.forall_mem_singleton, not_isBarred_iff, List.findSome?_singleton]
    cases hfirst : t.owner? first r.name with
    | none => simp [hseen owner ho]
    | some other => simp

end

/-! ## Main result -/

/-- A reference of a module to a name that the module sees is no violation exactly if no earlier
kind of the reference bars the name: if no module that it may not refer to declares it under such a
kind. In particular there are no violations in a module that refers to its own declarations only,
unless another module, which it does not use, hides one of their names so. -/
theorem violation?_eq_none_iff_not_barred {modules : List Module} {t : SymbolTable} {m : Module}
    (ht : SymbolTable.of? modules = .ok t) (hm : m ∈ modules) :
    (∀ r ∈ m.declarations.references, ∀ before k after, r.kinds = before ++ k :: after →
      m.SeesName t k r.name →
        (m.violation? t r = none ↔ ∀ k' ∈ before, ¬ m.IsBarred t k' r.name)) ∧
    ((∀ r ∈ m.declarations.references, ∃ before k after, r.kinds = before ++ k :: after ∧
        r.name ∈ m.declarations.namesOf k ∧ ∀ k' ∈ before, ∀ o ∈ modules,
          r.name ∈ o.declarations.namesOf k' → o.name = m.name ∨ o.name ∈ m.uses) →
      checkVisibility [m] t = .ok ()) := by
  refine ⟨fun r _ before k after => Module.violation?_eq_none_iff_of_seesName, fun hown => ?_⟩
  have howner : ∀ k n owner, t.owner? k n = some owner ↔
      ∃ o ∈ modules, o.name = owner ∧ n ∈ o.declarations.namesOf k := by
    intro k n owner
    simp only [Declarations.mem_namesOf_iff]
    exact SymbolTable.owner?_eq_some_iff ht
  refine checkVisibility_eq_ok_iff.2 (List.forall_mem_singleton.2 fun r hr => ?_)
  obtain ⟨before, k, after, hk, hn, hhidden⟩ := hown r hr
  have hsees : m.SeesName t k r.name :=
    ⟨m.name, (howner _ _ _).2 ⟨m, hm, rfl, hn⟩, .inl rfl⟩
  refine (Module.violation?_eq_none_iff_of_seesName hk hsees).2 ?_
  rintro k' hk' ⟨other, ho, hbarred⟩
  obtain ⟨o, hmem, rfl, hdeclares⟩ := (howner _ _ _).1 ho
  exact hbarred (hhidden k' hk' o hmem hdeclares)

/-- A module that shows the sales of a day, which are a view of its orders. -/
def deskModule : Module :=
  let order : Entity := { location := ⟨"desk.dsl", 2, 1, none⟩, name := "Order" }
  let sales : View :=
    { location := ⟨"desk.dsl", 5, 1, none⟩, name := "Sales", source := "Order", fields := [] }
  let desk : Workspace :=
    { location := ⟨"desk.dsl", 10, 1, none⟩
      name := "desk"
      regions := [{ name := "today", source := some "Sales" }] }
  { name := "desk", file := "desk.dsl"
    declarations := .ofList [⟨.entity, order⟩, ⟨.view, sales⟩, ⟨.workspace, desk⟩] }

theorem violation?_eq_none_iff_not_barred_desk :
    ∃ t, SymbolTable.of? [customersModule, deskModule] = .ok t ∧
      checkVisibility [deskModule] t = .ok () := by
  have ht : SymbolTable.of? [customersModule, deskModule] = .ok _ := rfl
  have hm : deskModule ∈ [customersModule, deskModule] := by simp
  refine ⟨_, ht, (violation?_eq_none_iff_not_barred ht hm).2 fun r hr => ?_⟩
  obtain rfl | rfl := List.mem_pair.1 (show r ∈ [_, _] from hr)
  · exact ⟨[.entity], .view, [], rfl, by decide, by decide⟩
  · exact ⟨[], .entity, [.view], rfl, by decide, by decide⟩

/-- A module that declares an entity of the name of that view. -/
def salesModule : Module :=
  let sales : Entity := { location := ⟨"sales.dsl", 2, 1, none⟩, name := "Sales" }
  { name := "sales", file := "sales.dsl", declarations := .ofList [⟨.entity, sales⟩] }

/-- A module whose references all name its own declarations, and one of them is a violation. -/
theorem visible_view_hidden :
    ∃ t, SymbolTable.of? [deskModule, salesModule] = .ok t ∧
      (∀ r ∈ deskModule.declarations.references, ∃ k ∈ r.kinds,
        t.owner? k r.name = some deskModule.name) ∧
      (∃ r ∈ deskModule.declarations.references, deskModule.violation? t r ≠ none) ∧
      ∃ findings, checkVisibility [deskModule, salesModule] t = .error ⟨.visibility, findings⟩ := by
  refine ⟨_, rfl, ?_, ?_, _, rfl⟩
  · intro r hr
    obtain rfl | rfl := List.mem_pair.1 (show r ∈ [_, _] from hr)
    · exact ⟨.view, by decide, by decide⟩
    · exact ⟨.entity, by decide, by decide⟩
  · exact ⟨_, List.mem_cons_self, by decide⟩

end Blueprint
