import Blueprint.Proofs.Symbols
import Mathlib.Data.List.Infix

/-!
# Collisions

Modules have a symbol table exactly if no two declarations share kind and name and no singleton is
declared by two modules. The table then lists the declarations of all modules, one after the other,
and names for each of them the module that declares it. Otherwise there is one finding for each
claim that repeats an earlier one, in the order of the claims (`SymbolTable.of?_exact`).

1. The claims that collide are those with an earlier claim to their subject (`collisionsFrom_nil`):
   it does no harm that only the first claim to a subject is kept for comparison (`SameFirsts`).
2. Where all subjects are different, the owner of a name is the one module that claims it.
-/

namespace Blueprint

/-! ## Collisions -/

/-- Each claim with those in front of it. -/
def withEarlier (claims : List Claim) : List (List Claim × Claim) := claims.inits.zip claims

theorem withEarlier_cons (c : Claim) (claims : List Claim) :
    withEarlier (c :: claims) = ([], c) :: (withEarlier claims).map fun p => (c :: p.1, p.2) := by
  unfold withEarlier
  rw [List.inits_cons, List.zip_cons_cons, List.zip_map_left]
  rfl

/-- The first claim to the same subject. -/
def firstClaim? (claims : List Claim) (c : Claim) : Option Claim :=
  claims.find? (·.subject == c.subject)

/-- Of both lists, the first claims to every subject are the same. -/
def SameFirsts (seen before : List Claim) : Prop := ∀ c, firstClaim? seen c = firstClaim? before c

/-- A claim that repeats an earlier one need not be kept. -/
theorem SameFirsts.drop {seen before : List Claim} {c first : Claim} (h : SameFirsts seen before)
    (hc : firstClaim? seen c = some first) : SameFirsts seen (before ++ [c]) := by
  intro c'
  have hbefore := h c'
  unfold firstClaim? at hbefore hc ⊢
  rw [List.find?_append, ← hbefore]
  by_cases he : c.subject = c'.subject
  · rw [← he, hc]
    rfl
  · simp [he]

theorem SameFirsts.keep {seen before : List Claim} (h : SameFirsts seen before) (c : Claim) :
    SameFirsts (seen ++ [c]) (before ++ [c]) := by
  intro c'
  have hbefore := h c'
  unfold firstClaim? at hbefore ⊢
  rw [List.find?_append, List.find?_append, hbefore]

theorem collisionsFrom_eq {seen before : List Claim} (h : SameFirsts seen before)
    (claims : List Claim) :
    collisionsFrom seen claims = (withEarlier claims).filterMap fun p =>
      (firstClaim? (before ++ p.1) p.2).map fun first => (first, p.2) := by
  induction claims generalizing seen before with
  | nil => rfl
  | cons c rest ih =>
    have hmap : ∀ p : List Claim × Claim, before ++ (c :: p.1) = (before ++ [c]) ++ p.1 := by simp
    rw [withEarlier_cons, List.filterMap_cons, List.filterMap_map, List.append_nil, ← h c]
    simp only [Function.comp_def, hmap]
    unfold collisionsFrom
    cases hs : firstClaim? seen c with
    | some first =>
      have hrest := ih (h.drop hs)
      unfold firstClaim? at hs
      simp only [hs, Option.map_some, hrest]
    | none =>
      have hrest := ih (h.keep c)
      unfold firstClaim? at hs
      simp only [hs, Option.map_none, hrest]

/-- The claims that collide are those with an earlier claim to their subject. -/
theorem collisionsFrom_nil (claims : List Claim) :
    collisionsFrom [] claims = (withEarlier claims).filterMap fun p =>
      (firstClaim? p.1 p.2).map fun first => (first, p.2) :=
  collisionsFrom_eq (fun _ => rfl) claims

/-! ## Declarations -/

namespace Declarations

theorem mem_namesOf_iff {d : Declarations} {k : DeclKind} {n : String} :
    n ∈ d.namesOf k ↔ ∃ x ∈ d.toList, x.kind = k ∧ x.name = n := by
  unfold namesOf toList ofKind
  simp only [List.mem_flatMap, List.mem_map]
  constructor
  · rintro ⟨body, hb, rfl⟩
    exact ⟨⟨k, body⟩, ⟨k, k.mem_all, body, hb, rfl⟩, rfl, rfl⟩
  · rintro ⟨_, ⟨k', -, body, hb, rfl⟩, rfl, rfl⟩
    exact ⟨body, hb, rfl⟩

end Declarations

/-- No two declarations of the list share kind and name. -/
def NamedApart (l : List Declaration) : Prop :=
  l.Pairwise fun a b => ¬ (a.kind = b.kind ∧ a.name = b.name)

theorem namedApart_iff_nodup {l : List Declaration} :
    NamedApart l ↔ (l.map fun n => Subject.named n.kind n.name).Nodup := by
  unfold NamedApart List.Nodup
  rw [List.pairwise_map]
  simp

/-- How often a name is claimed, counted in the list of all declarations. -/
theorem count_subjects_eq_count_toList (modules : List Module) (k : DeclKind) (n : String) :
    (modules.flatMap (·.declarations.subjects)).count (.named k n) =
      ((modules.flatMap (·.declarations.toList)).map fun x =>
        Subject.named x.kind x.name).count (.named k n) := by
  induction modules with
  | nil => rfl
  | cons m modules ih =>
    have hsingle : Subject.named k n ∉ m.declarations.singletons.map .single := by simp
    have hm : m.declarations.subjects.count (.named k n) =
        (m.declarations.toList.map fun x => Subject.named x.kind x.name).count (.named k n) := by
      unfold Declarations.subjects
      rw [List.count_append, List.count_eq_zero.2 hsingle, Nat.add_zero,
        Declarations.map_subject_toList]
    rw [List.flatMap_cons, List.flatMap_cons, List.map_append, List.count_append,
      List.count_append, ih, hm]

/-- How often a singleton is claimed, counted in modules. -/
theorem count_subjects_eq_length_filter (modules : List Module) (what : Singleton) :
    (modules.flatMap (·.declarations.subjects)).count (.single what) =
      (modules.filter fun m => (m.declarations.single? what).isSome).length := by
  rw [SymbolTable.count_subjects_single]
  induction modules with
  | nil => rfl
  | cons m modules ih =>
    rw [List.flatMap_cons, List.length_append, ih, List.filter_cons]
    cases m.declarations.single? what with
    | none => simp
    | some _ => simp [Nat.add_comm]

namespace SymbolTable

variable {t : SymbolTable} {modules : List Module}

/-- No subject is claimed twice exactly if declarations are named apart and every singleton is
declared by one module at most. -/
theorem nodup_subjects_iff :
    (modules.flatMap (·.declarations.subjects)).Nodup ↔
      NamedApart (modules.flatMap (·.declarations.toList)) ∧
        ∀ what, (modules.filter fun m => (m.declarations.single? what).isSome).length ≤ 1 := by
  have hnamed := count_subjects_eq_count_toList modules
  rw [namedApart_iff_nodup, List.nodup_iff_count_le_one, List.nodup_iff_count_le_one]
  simp only [← count_subjects_eq_length_filter]
  constructor
  · intro h
    refine ⟨?_, fun what => h _⟩
    rintro (⟨k, n⟩ | what)
    · exact hnamed k n ▸ h _
    · rw [List.count_eq_zero.2 (by simp)]
      exact Nat.zero_le 1
  · rintro ⟨hn, hs⟩ (⟨k, n⟩ | what)
    · exact (hnamed k n).symm ▸ hn _
    · exact hs what

/-! ## Owners -/

/-- The modules that declare a name own it. -/
theorem owner?_eq_some_iff (ht : of? modules = .ok t) {k : DeclKind} {n owner : String} :
    t.owner? k n = some owner ↔
      ∃ m ∈ modules, m.name = owner ∧ ∃ x ∈ m.declarations.toList, x.kind = k ∧ x.name = n := by
  simp only [← Declarations.mem_namesOf_iff]
  constructor
  · exact exists_of_owner? ht
  · rintro ⟨m, hm, rfl, hn⟩
    -- the module claims the name
    have hsubject : Subject.named k n ∈ m.claims.map (·.subject) := by
      rw [m.map_subject_claims, ← List.count_pos_iff, Declarations.count_named_subjects,
        List.count_pos_iff]
      exact hn
    obtain ⟨c, hc, hcs⟩ := List.mem_map.1 hsubject
    have hclaim : c ∈ modules.flatMap Module.claims := List.mem_flatMap.2 ⟨m, hm, hc⟩
    -- and there is no other claim to it
    have hnodup := nodup_subjects ht
    rw [← map_subject_claims] at hnodup
    obtain ⟨first, hfirst⟩ : ∃ first,
        (modules.flatMap Module.claims).find? (·.subject == .named k n) = some first := by
      rw [← Option.isSome_iff_exists, List.find?_isSome]
      exact ⟨c, hclaim, by simpa using hcs⟩
    have hfs : first.subject = .named k n := by simpa using List.find?_some hfirst
    obtain rfl : first = c :=
      List.inj_on_of_nodup_map hnodup (List.mem_of_find?_eq_some hfirst) hclaim (hfs.trans hcs.symm)
    rw [owner?_eq_find? ht, hfirst, Option.map_some, m.owner_of_mem_claims hc]

/-- Of values of which at most one is there, that one is found first. -/
theorem findSome?_eq_some_iff_of_length_le {α β : Type} {f : β → Option α} {l : List β}
    (h : (l.filter fun b => (f b).isSome).length ≤ 1) {a : α} :
    l.findSome? f = some a ↔ ∃ b ∈ l, f b = some a := by
  induction l with
  | nil => simp
  | cons b l ih =>
    rw [List.filter_cons] at h
    rw [List.findSome?_cons]
    cases hb : f b with
    | none =>
      rw [hb] at h
      simp [ih h, hb]
    | some a' =>
      have hnil : l.filter (fun b => (f b).isSome) = [] := by
        rw [hb, Option.isSome_some, if_pos rfl, List.length_cons] at h
        exact List.length_eq_zero_iff.1 (by omega)
      have hnone : ∀ b ∈ l, f b = none := by simpa using hnil
      constructor
      · intro e
        cases e
        exact ⟨b, List.mem_cons_self, hb⟩
      · rintro ⟨b', hb', e⟩
        rcases List.mem_cons.1 hb' with rfl | hb'
        · exact hb.symm.trans e
        · rw [hnone b' hb'] at e
          cases e

/-- The singletons of the table are those that modules declare. -/
theorem single?_eq_some_iff (ht : of? modules = .ok t) (what : Singleton) {body : what.Body} :
    t.declarations.single? what = some body ↔
      ∃ m ∈ modules, m.declarations.single? what = some body := by
  have h := findSome?_eq_some_iff_of_length_le (a := body)
    ((nodup_subjects_iff.1 (nodup_subjects ht)).2 what)
  rw [← h, declarations_of_of? ht]
  cases what <;> rfl

/-! ## Main result -/

/-- Modules have a symbol table exactly if no two of their declarations share kind and name and no
singleton is declared by two of them. It holds the declarations of each kind module by module, the
singletons that are declared, and the module of every name that is declared and of no other. If
there is none, the findings are those about the claims whose subject an earlier claim has. -/
theorem of?_exact (modules : List Module) :
    ((∃ t, of? modules = .ok t) ↔
        NamedApart (modules.flatMap (·.declarations.toList)) ∧
          (modules.filter (·.declarations.llmConfig.isSome)).length ≤ 1 ∧
          (modules.filter (·.declarations.policies.isSome)).length ≤ 1 ∧
          (modules.filter (·.declarations.tenancy.isSome)).length ≤ 1) ∧
      (∀ t, of? modules = .ok t →
        (∀ k, t.declarations.named k = modules.flatMap (·.declarations.named k)) ∧
          (∀ c, t.declarations.llmConfig = some c ↔
            ∃ m ∈ modules, m.declarations.llmConfig = some c) ∧
          (∀ p, t.declarations.policies = some p ↔
            ∃ m ∈ modules, m.declarations.policies = some p) ∧
          (∀ y, t.declarations.tenancy = some y ↔
            ∃ m ∈ modules, m.declarations.tenancy = some y) ∧
          ∀ k n owner, t.owner? k n = some owner ↔
            ∃ m ∈ modules, m.name = owner ∧
              ∃ x ∈ m.declarations.toList, x.kind = k ∧ x.name = n) ∧
      ∀ e, of? modules = .error e →
        e.category = .duplicateSymbol ∧
          e.findings = (withEarlier (modules.flatMap Module.claims)).filterMap fun p =>
            (firstClaim? p.1 p.2).map fun first => collisionFinding (first, p.2) := by
  refine ⟨?_, fun t ht => ?_, fun e he => ?_⟩
  · rw [exists_of?_iff, nodup_subjects_iff]
    refine and_congr_right fun _ => ⟨fun h => ⟨h .llmConfig, h .policies, h .tenancy⟩, ?_⟩
    rintro ⟨hconfig, hpolicies, htenancy⟩ (_ | _ | _)
    exacts [hconfig, hpolicies, htenancy]
  · refine ⟨fun k => ?_, fun c => single?_eq_some_iff ht .llmConfig,
      fun p => single?_eq_some_iff ht .policies, fun y => single?_eq_some_iff ht .tenancy,
      fun k n owner => owner?_eq_some_iff ht⟩
    rw [declarations_of_of? ht]
    rfl
  · unfold of? at he
    dsimp only at he
    split at he
    · cases he
    · cases he
      refine ⟨rfl, ?_⟩
      show (SymbolDraft.ofModules modules).clashes = _
      rw [SymbolDraft.clashes_ofModules, collisionsFrom_nil, List.map_filterMap]
      simp only [Option.map_map]
      rfl

end SymbolTable

end Blueprint
