import Blueprint.Proofs.Rearrangement

/-!
# Imports that nothing needs

Linking warns about a used module that is not referred to. Such a use can be left out: the other
modules are ordered anew, and nothing else changes but the warning. A use without a warning is
needed: without it, some reference is no longer visible (`linkModules_without`).

Leaving out a use takes edges from the graph of modules, so there still is an order; the symbol
tables of the two orders are `Rearranged`. Then only visibility can fail, and it does exactly if a
reference of the module leads to the one that it no longer uses.
-/

namespace Blueprint

/-- The module without the use of another one. -/
def Module.without (m : Module) (used : String) : Module :=
  { m with uses := m.uses.filter (· != used) }

theorem Module.mem_uses_without {m : Module} {used other : String} :
    other ∈ (m.without used).uses ↔ other ∈ m.uses ∧ other ≠ used := by
  unfold without
  simp

/-! ## Order -/

section

variable {before after order order' : List Module} {m : Module} {used : String}

/-- Without one use, there still is an order. -/
theorem orderModules_without (h : orderModules (before ++ m :: after) = .ok order) :
    ∃ order', orderModules (before ++ m.without used :: after) = .ok order' := by
  obtain ⟨hd, hc, ha, -⟩ := ModuleOrder.orderModules_eq_ok_iff.1 h
  have hnames : (before ++ m.without used :: after).map (·.name) =
      (before ++ m :: after).map (·.name) := by
    simp only [List.map_append, List.map_cons]
    rfl
  have hedge : ∀ a b, ModuleOrder.Edge (before ++ m.without used :: after) a b →
      ModuleOrder.Edge (before ++ m :: after) a b := by
    rintro a b ⟨n, hn, rfl, hdep⟩
    obtain ⟨hne, huses⟩ := ModuleOrder.dependsOn_iff.1 hdep
    rcases List.mem_append.1 hn with hn | hn
    · exact ⟨n, List.mem_append_left _ hn, rfl, hdep⟩
    · rcases List.mem_cons.1 hn with rfl | hn
      · exact ⟨m, by simp, rfl,
          ModuleOrder.dependsOn_iff.2 ⟨hne, (Module.mem_uses_without.1 huses).1⟩⟩
      · exact ⟨n, by simp [hn], rfl, hdep⟩
  refine ⟨_, ModuleOrder.orderModules_eq_ok_iff.2 ⟨?_, ?_, ha.mono hedge, rfl⟩⟩
  · unfold ModuleOrder.Distinct at hd ⊢
    rwa [hnames]
  · intro n hn other hother
    rw [hnames]
    rcases List.mem_append.1 hn with hn | hn
    · exact hc n (List.mem_append_left _ hn) other hother
    · rcases List.mem_cons.1 hn with rfl | hn
      · exact hc m (by simp) other (Module.mem_uses_without.1 hother).1
      · exact hc n (by simp [hn]) other hother

/-- Both orders hold the same modules, up to what the one module uses. -/
theorem exists_rearranged_without {l : Linked} (hl : l.Checked (before ++ m :: after) order)
    (h : orderModules (before ++ m.without used :: after) = .ok order') :
    ∃ t, SymbolTable.of? order' = .ok t ∧ l.symbols.Rearranged t := by
  have hsame : (before ++ m.without used :: after).map Module.content =
      (before ++ m :: after).map Module.content := by
    simp only [List.map_append, List.map_cons]
    rfl
  have horder := (ModuleOrder.perm_of_orderModules hl.ordered).map Module.content
  have horder' := (ModuleOrder.perm_of_orderModules h).map Module.content
  exact SymbolTable.exists_rearranged hl.symbols ((hsame ▸ horder').trans horder.symm)

end

/-! ## Warnings -/

/-- Linking warns that the module uses the other one, to which it never refers. -/
def Linked.WarnsUnused (l : Linked) (m : Module) (used : String) : Prop :=
  unusedImportWarning m used ∈ unusedImports [m] l.symbols

theorem Module.refersTo_iff {m : Module} {t : SymbolTable} {other : String} :
    m.refersTo t other = true ↔ ∃ r ∈ m.declarations.references, r.owner? t = some other := by
  unfold refersTo
  simp

/-- The used modules that a module never refers to. -/
def Module.unusedUses (t : SymbolTable) (m : Module) : List String :=
  m.uses.filter fun used => used != m.name && !m.refersTo t used

theorem Module.mem_unusedUses {t : SymbolTable} {m : Module} {used : String} :
    used ∈ m.unusedUses t ↔ used ∈ m.uses ∧ used ≠ m.name ∧ m.refersTo t used = false := by
  unfold unusedUses
  simp

theorem unusedImports_eq (modules : List Module) (t : SymbolTable) :
    unusedImports modules t =
      modules.flatMap fun m => (m.unusedUses t).map (unusedImportWarning m) := rfl

theorem SymbolTable.Rearranged.unusedUses {t t' : SymbolTable} (h : t.Rearranged t')
    (m : Module) : m.unusedUses t' = m.unusedUses t := by
  unfold Module.unusedUses Module.refersTo
  simp only [h.reference_owner?]

/-- The message of a warning about an unused module, as characters. -/
theorem toList_message_unusedImportWarning (m : Module) (used : String) :
    (unusedImportWarning m used).message.toList = "module '".toList ++ m.name.toList ++
      "' imports '".toList ++ used.toList ++ "' but never references it".toList := by
  unfold unusedImportWarning
  simp only [String.toList_append, toString]

theorem unusedImportWarning_injective (m : Module) :
    Function.Injective (unusedImportWarning m) := by
  intro a b h
  have hchars := congrArg (fun w => w.message.toList) h
  simp only [toList_message_unusedImportWarning] at hchars
  exact String.toList_inj.1 (List.append_cancel_left (List.append_cancel_right hchars))

theorem Linked.warnsUnused_iff {l : Linked} {m : Module} {used : String} :
    l.WarnsUnused m used ↔ used ∈ m.uses ∧ used ≠ m.name ∧ m.refersTo l.symbols used = false := by
  unfold WarnsUnused
  rw [unusedImports_eq, List.flatMap_singleton, List.mem_map_of_injective
    (unusedImportWarning_injective m), Module.mem_unusedUses]

theorem eq_of_append_cons_eq {α : Type} {c : α} {l l' a b : List α}
    (h : l ++ c :: a = l' ++ c :: b) (ha : c ∉ a) (hb : c ∉ b) : l = l' ∧ a = b := by
  rcases List.append_eq_append_iff.1 h with ⟨front, rfl, e⟩ | ⟨front, rfl, e⟩
  · cases front with
    | nil => exact ⟨(List.append_nil l).symm, (List.cons.inj e).2⟩
    | cons x front => exact absurd ((List.cons.inj e).2 ▸ by simp) ha
  · cases front with
    | nil => exact ⟨List.append_nil l', (List.cons.inj e).2.symm⟩
    | cons x front => exact absurd ((List.cons.inj e).2 ▸ by simp) hb

/-- Where no used module has a quote in its name, the message tells what the warning is about. -/
theorem eq_of_unusedImportWarning_eq {m n : Module} {a b : String}
    (h : unusedImportWarning m a = unusedImportWarning n b) (ha : '\'' ∉ a.toList)
    (hb : '\'' ∉ b.toList) : m.name = n.name ∧ a = b := by
  have hchars := congrArg (fun w => w.message.toList) h
  simp only [toList_message_unusedImportWarning] at hchars
  have hquote : "' imports '".toList = "' imports ".toList ++ ['\''] := by decide
  have hcut := List.append_cancel_right hchars
  rw [hquote] at hcut
  simp only [List.append_assoc, List.singleton_append] at hcut
  simp only [← List.append_assoc] at hcut
  obtain ⟨hfront, hname⟩ := eq_of_append_cons_eq hcut ha hb
  exact ⟨String.toList_inj.1 (List.append_cancel_left (List.append_cancel_right hfront)),
    String.toList_inj.1 hname⟩

/-- The warnings of linking about modules that are used and never referred to. -/
def Linked.unusedImportWarnings (l : Linked) : List Warning :=
  l.warnings.filter (·.kind == .unusedImport)

section

variable {modules order : List Module} {l : Linked} {m : Module} {used : String}

theorem Linked.unusedImportWarnings_eq (hl : l.Checked modules order) :
    l.unusedImportWarnings = unusedImports order l.symbols := by
  have himports : ∀ w ∈ unusedImports order l.symbols,
      (w.kind == .unusedImport) = true := by
    intro w hw
    rw [unusedImports_eq, List.mem_flatMap] at hw
    obtain ⟨m, -, hw⟩ := hw
    obtain ⟨used, -, rfl⟩ := List.mem_map.1 hw
    rfl
  have hcycles : ∀ w ∈ cycleWarnings l.declarations.entities,
      ¬ (w.kind == .unusedImport) = true := by
    intro w hw
    obtain ⟨cycle, -, rfl⟩ := List.mem_map.1 hw
    exact Bool.false_ne_true
  unfold unusedImportWarnings
  rw [hl.warnings, List.filter_append, List.filter_eq_self.2 himports,
    List.filter_eq_nil_iff.2 hcycles, List.append_nil]

theorem Linked.unusedImportWarnings_perm (hl : l.Checked modules order) :
    l.unusedImportWarnings.Perm (unusedImports modules l.symbols) := by
  rw [unusedImportWarnings_eq hl]
  exact (ModuleOrder.perm_of_orderModules hl.ordered).flatMap_right _

/-- A warning is one that a module gives rise to. -/
theorem Linked.mem_warnings_iff_of_no_quotes (hl : l.Checked modules order)
    (hd : ModuleOrder.Distinct modules)
    (hquotes : ∀ n ∈ modules, ∀ other ∈ n.uses, '\'' ∉ other.toList) (hm : m ∈ modules)
    (hu : used ∈ m.uses) :
    unusedImportWarning m used ∈ l.unusedImportWarnings ↔ l.WarnsUnused m used := by
  rw [(unusedImportWarnings_perm hl).mem_iff, unusedImports_eq, List.mem_flatMap]
  constructor
  · rintro ⟨n, hn, hw⟩
    obtain ⟨other, hother, e⟩ := List.mem_map.1 hw
    obtain ⟨hname, rfl⟩ := eq_of_unusedImportWarning_eq e
      (hquotes n hn other (Module.mem_unusedUses.1 hother).1) (hquotes m hm used hu)
    obtain rfl := ModuleOrder.eq_of_name_eq hd hn hm hname
    exact warnsUnused_iff.2 (Module.mem_unusedUses.1 hother)
  · intro hw
    exact ⟨m, hm, List.mem_map_of_mem (Module.mem_unusedUses.2 (warnsUnused_iff.1 hw))⟩

end

/-! ## Visibility -/

theorem Reference.owner?_eq_some_iff {r : Reference} {t : SymbolTable} {owner : String} :
    r.owner? t = some owner ↔ ∃ k, r.resolve? t = some k ∧ t.owner? k r.name = some owner := by
  unfold owner?
  rw [Option.bind_eq_some_iff]

/-- A reference leads to a module exactly if it leads to a declaration. -/
theorem Reference.isSome_owner?_iff {r : Reference} {t : SymbolTable} :
    (r.owner? t).isSome = true ↔ (r.resolve? t).isSome = true := by
  unfold owner?
  cases hk : r.resolve? t with
  | none => exact Iff.rfl
  | some k =>
    have hcontains := List.find?_some hk
    rw [SymbolTable.contains_eq_isSome_owner?] at hcontains
    exact iff_of_true hcontains rfl

/-- A reference of a module is visible if the module sees the owner of what it leads to. -/
theorem Module.violation?_eq_none_iff_owner {m : Module} {t : SymbolTable} {r : Reference} :
    m.violation? t r = none ↔ ∀ owner, r.owner? t = some owner → m.sees owner = true := by
  rw [violation?_eq_none_iff]
  simp only [Reference.owner?_eq_some_iff]
  exact ⟨fun h owner ⟨k, hk, ho⟩ => h k owner hk ho, fun h k owner hk ho => h owner ⟨k, hk, ho⟩⟩

theorem checkVisibility_eq_error_of_ne_ok {modules : List Module} {t : SymbolTable}
    (h : checkVisibility modules t ≠ .ok ()) :
    ∃ findings, checkVisibility modules t = .error ⟨.visibility, findings⟩ := by
  unfold checkVisibility at h ⊢
  dsimp only at h ⊢
  split at h
  · exact absurd rfl h
  · next hv => exact ⟨_, if_neg hv⟩

section

variable {before after order order' : List Module} {m : Module} {l : Linked} {used : String}

/-- Without a use, everything is still visible exactly if the module does not refer to what it no
longer uses. -/
theorem checkVisibility_without (hl : l.Checked (before ++ m :: after) order) (hne : used ≠ m.name)
    (h : orderModules (before ++ m.without used :: after) = .ok order') {t : SymbolTable}
    (hr : l.symbols.Rearranged t) :
    checkVisibility order' t = .ok () ↔ m.refersTo l.symbols used = false := by
  have hperm := ModuleOrder.perm_of_orderModules h
  have hperm' := ModuleOrder.perm_of_orderModules hl.ordered
  simp only [checkVisibility_eq_ok_iff, Module.violation?_eq_none_iff_owner, hr.reference_owner?]
  have hvisible := checkVisibility_eq_ok_iff.1 hl.visible
  simp only [Module.violation?_eq_none_iff_owner] at hvisible
  rw [← Bool.not_eq_true, Module.refersTo_iff]
  constructor
  · rintro hall ⟨r, hmem, howner⟩
    have hm : m.without used ∈ order' := hperm.mem_iff.2 (by simp)
    rcases Module.sees_iff.1 (hall _ hm r hmem used howner) with e | hu
    · exact hne e
    · exact (Module.mem_uses_without.1 hu).2 rfl
  · intro hnone n hn r hmem owner howner
    rcases List.mem_append.1 (hperm.mem_iff.1 hn) with hn | hn
    · exact hvisible n (hperm'.mem_iff.2 (List.mem_append_left _ hn)) r hmem owner howner
    · rcases List.mem_cons.1 hn with rfl | hn
      · have hsees := hvisible m (hperm'.mem_iff.2 (by simp)) r hmem owner howner
        refine Module.sees_iff.2 ((Module.sees_iff.1 hsees).imp_right fun hu => ?_)
        refine Module.mem_uses_without.2 ⟨hu, ?_⟩
        rintro rfl
        exact hnone ⟨r, hmem, howner⟩
      · exact hvisible n (hperm'.mem_iff.2 (by simp [hn])) r hmem owner howner

/-- Without a use, the application is still the same. -/
theorem declaredApp?_without (hl : l.Checked (before ++ m :: after) order)
    (h : orderModules (before ++ m.without used :: after) = .ok order') :
    declaredApp? order' = .ok l.app := by
  have hsame : (before ++ m.without used :: after).flatMap (fun n => n.app.toList) =
      (before ++ m :: after).flatMap fun n => n.app.toList := by
    simp only [List.flatMap_append, List.flatMap_cons]
    rfl
  have happ := (ModuleOrder.perm_of_orderModules h).flatMap_right fun n => n.app.toList
  have happ' := (ModuleOrder.perm_of_orderModules hl.ordered).flatMap_right fun n => n.app.toList
  refine declaredApp?_eq_ok_iff.2 (eq_toList_of_perm ?_)
  rw [← declaredApp?_eq_ok_iff.1 hl.app]
  exact (hsame ▸ happ).trans happ'.symm

/-- Without a use that it does not need, a module still links. -/
theorem linkModules_without_eq_ok (hl : l.Checked (before ++ m :: after) order)
    (hne : used ≠ m.name) (hunused : m.refersTo l.symbols used = false)
    (h : orderModules (before ++ m.without used :: after) = .ok order') :
    ∃ l', linkModules (before ++ m.without used :: after) = .ok l' ∧
      l.symbols.Rearranged l'.symbols ∧ l'.app = l.app := by
  obtain ⟨t, ht, hr⟩ := exists_rearranged_without hl h
  have happ := declaredApp?_without hl h
  have hvisible := (checkVisibility_without hl hne h hr).2 hunused
  have hvalid := validateReferences_eq_ok_iff_valid.2
    (hr.valid (validateReferences_eq_ok_iff_valid.1 hl.valid))
  let warnings := unusedImports order' t ++ cycleWarnings t.declarations.entities
  exact ⟨⟨order'.map (·.name), t, l.app, warnings⟩,
    linkModules_eq_ok_iff.2 ⟨order', h, rfl, ht, happ, hvisible, hvalid, rfl⟩, hr, rfl⟩

/-- Without a use that it needs, a module no longer sees what it refers to. -/
theorem linkModules_without_eq_error (hl : l.Checked (before ++ m :: after) order)
    (hne : used ≠ m.name) (hneeded : m.refersTo l.symbols used = true)
    (h : orderModules (before ++ m.without used :: after) = .ok order') :
    ∃ findings, linkModules (before ++ m.without used :: after) =
      .error (.link ⟨.visibility, findings⟩) := by
  obtain ⟨t, ht, hr⟩ := exists_rearranged_without hl h
  have hinvisible : checkVisibility order' t ≠ .ok () := by
    intro hv
    rw [(checkVisibility_without hl hne h hr).1 hv] at hneeded
    exact Bool.false_ne_true hneeded
  obtain ⟨findings, hv⟩ := checkVisibility_eq_error_of_ne_ok hinvisible
  refine ⟨findings, ?_⟩
  rw [linkModules_eq_of_symbols h ht (declaredApp?_without hl h), hv]
  rfl

/-! ## Main result -/

/-- Without a use that is not needed, its warnings are gone and the other ones are there. -/
theorem unusedImports_without (hw : l.WarnsUnused m used) {t' : SymbolTable}
    (hr : l.symbols.Rearranged t') :
    (unusedImports (before ++ m :: after) l.symbols).Perm
      (unusedImports (before ++ m.without used :: after) t' ++
        List.replicate (m.uses.count used) (unusedImportWarning m used)) := by
  obtain ⟨hu, hne, hunused⟩ := Linked.warnsUnused_iff.1 hw
  -- the uses of the module, parted into those of the other one and the rest
  have hparts : (m.unusedUses l.symbols).Perm
      ((m.without used).unusedUses l.symbols ++ List.replicate (m.uses.count used) used) := by
    have hsplit := (List.filter_append_perm (· != used) (m.unusedUses l.symbols)).symm
    have hrest : (m.unusedUses l.symbols).filter (· != used) =
        (m.without used).unusedUses l.symbols := by
      unfold Module.unusedUses Module.without
      rw [List.filter_filter, List.filter_filter]
      exact List.filter_congr fun other _ => Bool.and_comm _ _
    have hcopies : (m.unusedUses l.symbols).filter (fun other => !(other != used)) =
        List.replicate (m.uses.count used) used := by
      simp only [bne, Bool.not_not]
      rw [List.filter_beq]
      unfold Module.unusedUses
      rw [List.count_filter (by simp [hne, hunused])]
    rwa [hrest, hcopies] at hsplit
  have hm := hparts.map (unusedImportWarning m)
  rw [List.map_append, List.map_replicate] at hm
  simp only [unusedImports_eq, List.flatMap_append, List.flatMap_cons, hr.unusedUses]
  refine ((hm.append_right _).append_left _).trans ?_
  simp only [List.append_assoc]
  refine List.Perm.append_left _ (List.Perm.append_left _ ?_)
  exact List.perm_append_comm

/-- A module can do without a use exactly if linking warns about it. Then the declarations, their
owners and the application stay the same, and of the warnings about unused modules only this one is
gone. Without a use that linking does not warn about, some reference is no longer visible. Where no
used module has a quote in its name, the warnings themselves tell which uses these are. -/
theorem linkModules_without (h : linkModules (before ++ m :: after) = .ok l) (hu : used ∈ m.uses)
    (hne : used ≠ m.name) :
    (l.WarnsUnused m used → ∃ l', linkModules (before ++ m.without used :: after) = .ok l' ∧
        (∀ k, (l'.declarations.named k).Perm (l.declarations.named k)) ∧
        l'.declarations.llmConfig = l.declarations.llmConfig ∧
        l'.declarations.policies = l.declarations.policies ∧
        l'.declarations.tenancy = l.declarations.tenancy ∧ l'.app = l.app ∧
        (∀ k n, l'.symbols.owner? k n = l.symbols.owner? k n) ∧
        l.unusedImportWarnings.Perm (l'.unusedImportWarnings ++
          List.replicate (m.uses.count used) (unusedImportWarning m used))) ∧
      (¬ l.WarnsUnused m used → ∃ findings, linkModules (before ++ m.without used :: after) =
        .error (.link ⟨.visibility, findings⟩)) ∧
      ((∀ n ∈ before ++ m :: after, ∀ other ∈ n.uses, '\'' ∉ other.toList) →
        (l.WarnsUnused m used ↔ unusedImportWarning m used ∈ l.unusedImportWarnings)) := by
  obtain ⟨order, hl⟩ := linkModules_eq_ok_iff.1 h
  have hd := (ModuleOrder.orderModules_eq_ok_iff.1 hl.ordered).1
  obtain ⟨order', ho⟩ : ∃ order', orderModules (before ++ m.without used :: after) = .ok order' :=
    orderModules_without hl.ordered
  refine ⟨fun hw => ?_, fun hw => ?_, fun hquotes =>
    (Linked.mem_warnings_iff_of_no_quotes hl hd hquotes (by simp) hu).symm⟩
  · obtain ⟨l', hl', hr, happ⟩ :=
      linkModules_without_eq_ok hl hne (Linked.warnsUnused_iff.1 hw).2.2 ho
    obtain ⟨hconfig, hpolicies, htenancy⟩ := hr.singletons
    refine ⟨l', hl', hr.named, hconfig, hpolicies, htenancy, happ, hr.owner?, ?_⟩
    have hwarnings := Linked.unusedImportWarnings_perm hl
    obtain ⟨order', hchecked⟩ := linkModules_eq_ok_iff.1 hl'
    have hwarnings' := Linked.unusedImportWarnings_perm hchecked
    exact (hwarnings.trans (unusedImports_without hw hr)).trans (hwarnings'.symm.append_right _)
  · refine linkModules_without_eq_error hl hne ?_ ho
    rw [← Bool.not_eq_false]
    exact fun hunused => hw (Linked.warnsUnused_iff.2 ⟨hu, hne, hunused⟩)

end

/-- A module that declares notes, which nothing refers to. -/
def notesModule : Module :=
  let note : Entity := { location := ⟨"notes.dsl", 1, 1, none⟩, name := "Note" }
  { name := "notes", file := "notes.dsl", declarations := .ofList [⟨.entity, note⟩] }

/-- The module of orders, with a use that it does not need. -/
def annotatedOrders : Module := { ordersModule with uses := ["notes", "customers"] }

theorem linkModules_without_notes :
    ∃ l, linkModules ([notesModule, customersModule] ++ annotatedOrders :: []) = .ok l ∧
      (l.WarnsUnused annotatedOrders "notes" ∧ ∃ l',
        linkModules ([notesModule, customersModule] ++ annotatedOrders.without "notes" :: []) =
          .ok l' ∧
        l.unusedImportWarnings.Perm (l'.unusedImportWarnings ++
          List.replicate 1 (unusedImportWarning annotatedOrders "notes"))) ∧
      ¬ l.WarnsUnused annotatedOrders "customers" ∧ ∃ findings,
        linkModules ([notesModule, customersModule] ++ annotatedOrders.without "customers" :: []) =
          .error (.link ⟨.visibility, findings⟩) := by
  obtain ⟨l, h, hfound⟩ := Except.exists_eq_ok_of_any
    (x := linkModules ([notesModule, customersModule] ++ annotatedOrders :: []))
    (p := fun l => !annotatedOrders.refersTo l.symbols "notes" &&
      annotatedOrders.refersTo l.symbols "customers") rfl
  simp only [Bool.and_eq_true, Bool.not_eq_true'] at hfound
  have hnotes : l.WarnsUnused annotatedOrders "notes" :=
    Linked.warnsUnused_iff.2 ⟨by decide, by decide, hfound.1⟩
  have hcustomers : ¬ l.WarnsUnused annotatedOrders "customers" := fun hw =>
    nomatch hfound.2.symm.trans (Linked.warnsUnused_iff.1 hw).2.2
  have hused : "notes" ∈ annotatedOrders.uses := by decide
  have hneeded : "customers" ∈ annotatedOrders.uses := by decide
  obtain ⟨l', hl', -, -, -, -, -, -, hwarnings⟩ :=
    (linkModules_without h hused (by decide)).1 hnotes
  exact ⟨_, h, ⟨hnotes, l', hl', hwarnings⟩, hcustomers,
    (linkModules_without h hneeded (by decide)).2.1 hcustomers⟩

end Blueprint
