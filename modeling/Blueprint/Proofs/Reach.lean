import Blueprint.Module.Reach
import Blueprint.Proofs.ModuleOrder
import Mathlib.Algebra.BigOperators.Group.Finset.Basic
import Mathlib.Data.Finset.Card

/-!
# What is within reach

`reachable?` keeps the modules that a way of uses leads to from the root, and no others
(`mem_reachable?_iff`). It follows as many steps as there are modules. That is enough: a step finds
something new only if the last one has found another module, so there is a module for every step
(`lt_card_reached`).

A search that takes one name after the other off a queue ends, whatever circles there are among the
modules, and finds what `reachable?` finds in rounds.

1. Every step does away with one of the names that wait or may still come to wait
   (`ReachSearch.left_of_next`), so no search goes on for ever (`ReachSearch.wellFounded_next`).
2. What is found or waits is within reach, and what a name that was found leads to waits if it is
   not found itself (`ReachSearch.Explores`). Both hold after every step.
3. At the end nothing waits, so all is found that is within reach
   (`ReachSearch.Explores.mem_found_iff`).

With that, the modules that are kept are exactly those that a way of uses leads to
(`reachable?_exact`).
-/

namespace Blueprint

variable {modules : List Module} {root : String}

/-- The module of the first name uses the second. -/
def Uses (modules : List Module) (a b : String) : Prop := b ∈ usedNames modules a

theorem Uses.mem_names {a b : String} (h : Uses modules a b) :
    a ∈ (modules.map (·.name)).toFinset := by
  unfold Uses usedNames at h
  split at h
  · next m hm =>
    have hname := List.find?_some hm
    rw [List.mem_toFinset, ← eq_of_beq hname]
    exact List.mem_map_of_mem (List.mem_reverse.1 (List.mem_of_find?_eq_some hm))
  · cases h

theorem usedNames_eq_nil {name : String} (h : name ∉ (modules.map (·.name)).toFinset) :
    usedNames modules name = [] :=
  List.eq_nil_iff_forall_not_mem.2 fun _ hb => h (Uses.mem_names hb)

/-- Where names are distinct, a name leads to what its module uses. -/
theorem uses_iff (hd : ModuleOrder.Distinct modules) {m : Module} (hm : m ∈ modules) {b : String} :
    Uses modules m.name b ↔ b ∈ m.uses := by
  unfold Uses usedNames
  split
  · next n hn =>
    have hmem := List.mem_reverse.1 (List.mem_of_find?_eq_some hn)
    have hname := List.find?_some hn
    rw [ModuleOrder.eq_of_name_eq hd hmem hm (eq_of_beq hname)]
  · next hnone =>
    have hall := List.find?_eq_none.1 hnone m (List.mem_reverse.2 hm)
    exact absurd (beq_self_eq_true m.name) hall

/-! ## Rounds -/

theorem mem_reachWithin_succ {n : Nat} {b : String} :
    b ∈ reachWithin modules root (n + 1) ↔
      b ∈ reachWithin modules root n ∨ ∃ a ∈ reachWithin modules root n, Uses modules a b := by
  rw [reachWithin, List.mem_eraseDups, List.mem_append, List.mem_flatMap]
  rfl

/-- The names found so far that are those of modules. -/
def reached (modules : List Module) (root : String) (n : Nat) : Finset String :=
  (modules.map (·.name)).toFinset.filter (· ∈ reachWithin modules root n)

/-- Nothing is found but what is known. -/
def ReachComplete (modules : List Module) (root : String) (n : Nat) : Prop :=
  ∀ a ∈ reachWithin modules root n, ∀ b, Uses modules a b → b ∈ reachWithin modules root n

theorem ReachComplete.succ {n : Nat} (h : ReachComplete modules root n) :
    ReachComplete modules root (n + 1) := by
  have hsame : ∀ a ∈ reachWithin modules root (n + 1), a ∈ reachWithin modules root n := by
    intro a ha
    rcases mem_reachWithin_succ.1 ha with ha | ⟨c, hc, hu⟩
    · exact ha
    · exact h c hc a hu
  exact fun a ha b hu => mem_reachWithin_succ.2 (.inl (h a (hsame a ha) b hu))

/-- As long as something is missing, every step has found another module. -/
theorem lt_card_reached {n : Nat} (h : ¬ ReachComplete modules root n) :
    n < (reached modules root n).card := by
  induction n with
  | zero =>
    unfold ReachComplete at h
    push Not at h
    obtain ⟨a, ha, b, hu, -⟩ := h
    exact Finset.card_pos.2 ⟨a, Finset.mem_filter.2 ⟨hu.mem_names, ha⟩⟩
  | succ n ih =>
    have hbefore := ih fun hc => h hc.succ
    unfold ReachComplete at h
    push Not at h
    obtain ⟨a, ha, b, hu, hb⟩ := h
    -- the name that leads on was not known before
    have hnew : a ∉ reached modules root n := fun hknown =>
      hb (mem_reachWithin_succ.2 (.inr ⟨a, (Finset.mem_filter.1 hknown).2, hu⟩))
    have hmono : reached modules root n ⊆ reached modules root (n + 1) :=
      Finset.monotone_filter_right _ fun c _ hc => mem_reachWithin_succ.2 (.inl hc)
    have hmem : a ∈ reached modules root (n + 1) := Finset.mem_filter.2 ⟨hu.mem_names, ha⟩
    have := Finset.card_lt_card (Finset.ssubset_iff_of_subset hmono |>.2 ⟨a, hmem, hnew⟩)
    omega

theorem reachComplete_length (modules : List Module) (root : String) :
    ReachComplete modules root modules.length := by
  by_contra h
  have hlt := lt_card_reached h
  have hle := (Finset.card_filter_le (modules.map (·.name)).toFinset
    (· ∈ reachWithin modules root modules.length)).trans (List.toFinset_card_le _)
  rw [List.length_map] at hle
  exact absurd hlt (Nat.not_lt.2 hle)

theorem self_mem_reachWithin (n : Nat) : root ∈ reachWithin modules root n := by
  induction n with
  | zero => exact List.mem_singleton_self root
  | succ n ih => exact mem_reachWithin_succ.2 (.inl ih)

/-- A way leads to all that is found. -/
theorem exists_way_of_mem_reachWithin {n : Nat} {b : String}
    (h : b ∈ reachWithin modules root n) : Relation.ReflTransGen (Uses modules) root b := by
  induction n generalizing b with
  | zero => rw [List.mem_singleton.1 h]
  | succ n ih =>
    rcases mem_reachWithin_succ.1 h with hb | ⟨a, ha, hu⟩
    · exact ih hb
    · exact (ih ha).tail hu

/-- With a step for every module, all names are found that a way leads to. -/
theorem mem_reachWithin_length_iff {b : String} :
    b ∈ reachWithin modules root modules.length ↔
      Relation.ReflTransGen (Uses modules) root b := by
  refine ⟨exists_way_of_mem_reachWithin, fun hway => ?_⟩
  induction hway with
  | refl => exact self_mem_reachWithin _
  | tail _ hu ih => exact reachComplete_length modules root _ ih _ hu

/-! ## Modules -/

theorem reachable?_eq_some_iff {kept : List Module} :
    reachable? modules root = some kept ↔ root ∈ modules.map (·.name) ∧
      kept = modules.filter fun m => (reachWithin modules root modules.length).contains m.name := by
  unfold reachable?
  by_cases h : root ∈ modules.map (·.name)
  · rw [if_pos (by simpa using h)]
    simp [h, eq_comm]
  · rw [if_neg (by simpa using h)]
    simp [h]

/-- The modules within reach are those that a way of uses leads to. -/
theorem mem_reachable?_iff {kept : List Module} (h : reachable? modules root = some kept)
    {m : Module} :
    m ∈ kept ↔ m ∈ modules ∧ Relation.ReflTransGen (Uses modules) root m.name := by
  obtain ⟨-, rfl⟩ := reachable?_eq_some_iff.1 h
  rw [List.mem_filter, List.contains_iff_mem, mem_reachWithin_length_iff]

/-! ## Steps of a search -/

/-- A search for the names that a name leads to. -/
structure ReachSearch where
  /-- The names that have been looked at. -/
  found : List String
  /-- The names that wait to be looked at. -/
  waiting : List String

namespace ReachSearch

variable {s t : ReachSearch}

/-- The search at its beginning. -/
def start (root : String) : ReachSearch := ⟨[], [root]⟩

/-- Looks at the first name that waits. Unless that was done before, the names that its module uses
wait behind the others. -/
def next? (modules : List Module) (s : ReachSearch) : Option ReachSearch :=
  match s.waiting with
  | [] => none
  | name :: rest =>
    if name ∈ s.found then some ⟨s.found, rest⟩
    else some ⟨name :: s.found, rest ++ usedNames modules name⟩

/-- One step leads from the first search to the second. -/
def Next (modules : List Module) (s t : ReachSearch) : Prop := s.next? modules = some t

/-- All that a step can do. -/
theorem next_cases (h : Next modules s t) : ∃ name rest, s.waiting = name :: rest ∧
    ((name ∈ s.found ∧ t = ⟨s.found, rest⟩) ∨
      (name ∉ s.found ∧ t = ⟨name :: s.found, rest ++ usedNames modules name⟩)) := by
  unfold Next next? at h
  split at h
  · cases h
  · next name rest hwaiting =>
    refine ⟨name, rest, hwaiting, ?_⟩
    split at h
    · next hname => exact .inl ⟨hname, (Option.some.inj h).symm⟩
    · next hname => exact .inr ⟨hname, (Option.some.inj h).symm⟩

/-- The names that wait, and those that the modules use which have not been looked at. -/
def left (modules : List Module) (s : ReachSearch) : Nat :=
  s.waiting.length +
    ∑ n ∈ (modules.map (·.name)).toFinset \ s.found.toFinset, (usedNames modules n).length

/-- A step does away with one name. -/
theorem left_of_next (h : Next modules s t) : t.left modules + 1 = s.left modules := by
  obtain ⟨name, rest, hwaiting, ⟨-, rfl⟩ | ⟨hname, rfl⟩⟩ := next_cases h
  · unfold left
    rw [hwaiting, List.length_cons, Nat.add_right_comm]
  · unfold left
    rw [hwaiting, List.length_cons, List.length_append, List.toFinset_cons, Finset.sdiff_insert]
    by_cases hmem : name ∈ (modules.map (·.name)).toFinset
    · have hsum := Finset.add_sum_erase _ (fun n => (usedNames modules n).length)
        (Finset.mem_sdiff.2 ⟨hmem, fun hfound => hname (List.mem_toFinset.1 hfound)⟩)
      omega
    · rw [Finset.sum_erase _ (by rw [usedNames_eq_nil hmem]; rfl), usedNames_eq_nil hmem]
      simp only [List.length_nil]
      omega

/-- No search goes on for ever. -/
theorem wellFounded_next (modules : List Module) :
    WellFounded fun t s : ReachSearch => Next modules s t :=
  Subrelation.wf (fun h => by
    show left modules _ < left modules _
    have := left_of_next h
    omega) (measure (left modules)).wf

/-- Every search comes to an end, with nothing that waits. -/
theorem exists_end (modules : List Module) (s : ReachSearch) :
    ∃ found, Relation.ReflTransGen (Next modules) s ⟨found, []⟩ := by
  induction s using (wellFounded_next modules).induction with
  | _ s ih =>
    cases h : s.next? modules with
    | none =>
      obtain ⟨found, _ | ⟨name, rest⟩⟩ := s
      · exact ⟨found, .refl⟩
      · by_cases hname : name ∈ found <;> simp [next?, hname] at h
    | some t =>
      obtain ⟨found, hend⟩ := ih t h
      exact ⟨found, .head h hend⟩

/-! ## What is found -/

/-- What is found or waits is within reach, and what the names that were found lead to is found or
waits. -/
structure Explores (modules : List Module) (root : String) (s : ReachSearch) : Prop where
  root_mem : root ∈ s.found ++ s.waiting
  reached : ∀ n ∈ s.found ++ s.waiting, Relation.ReflTransGen (Uses modules) root n
  closed : ∀ a ∈ s.found, ∀ b, Uses modules a b → b ∈ s.found ++ s.waiting
  nodup : s.found.Nodup

theorem explores_start : Explores modules root (start root) where
  root_mem := List.mem_singleton_self root
  reached n hn := by rw [List.mem_singleton.1 hn]
  closed _ ha := by cases ha
  nodup := List.nodup_nil

theorem Explores.next (h : Explores modules root s) (hnext : Next modules s t) :
    Explores modules root t := by
  obtain ⟨found, waiting⟩ := s
  obtain ⟨name, rest, rfl, ⟨hname, rfl⟩ | ⟨hname, rfl⟩⟩ := next_cases hnext
  · -- the name is found already, so nothing is lost with it
    have hsame : ∀ n, n ∈ found ++ name :: rest ↔ n ∈ found ++ rest := by
      intro n
      simp only [List.mem_append, List.mem_cons]
      constructor
      · rintro (hn | rfl | hn)
        · exact .inl hn
        · exact .inl hname
        · exact .inr hn
      · rintro (hn | hn)
        · exact .inl hn
        · exact .inr (.inr hn)
    exact ⟨(hsame root).1 h.root_mem, fun n hn => h.reached n ((hsame n).2 hn),
      fun a ha b hb => (hsame b).1 (h.closed a ha b hb), h.nodup⟩
  · have hkeep : ∀ n ∈ found ++ name :: rest,
        n ∈ (name :: found) ++ (rest ++ usedNames modules name) := by
      intro n hn
      simp only [List.mem_append, List.mem_cons] at hn ⊢
      tauto
    refine ⟨hkeep root h.root_mem, fun n hn => ?_, fun a ha b hb => ?_,
      List.nodup_cons.2 ⟨hname, h.nodup⟩⟩
    · have hway := h.reached name (by simp)
      simp only [List.cons_append, List.mem_append, List.mem_cons] at hn
      rcases hn with rfl | hn | hn | hn
      · exact hway
      · exact h.reached n (List.mem_append_left _ hn)
      · exact h.reached n (List.mem_append_right _ (List.mem_cons_of_mem name hn))
      · exact hway.tail hn
    · rcases List.mem_cons.1 ha with rfl | ha
      · exact List.mem_append_right _ (List.mem_append_right _ hb)
      · exact hkeep b (h.closed a ha b hb)

theorem Explores.run (h : Explores modules root s)
    (hrun : Relation.ReflTransGen (Next modules) s t) : Explores modules root t := by
  induction hrun with
  | refl => exact h
  | tail _ hnext ih => exact ih.next hnext

/-- When nothing waits any more, the names that were found are those within reach. -/
theorem Explores.mem_found_iff {found : List String} (h : Explores modules root ⟨found, []⟩)
    {n : String} : n ∈ found ↔ Relation.ReflTransGen (Uses modules) root n := by
  obtain ⟨hroot, hreached, hclosed, -⟩ := h
  simp only [List.append_nil] at hroot hreached hclosed
  refine ⟨hreached n, fun hway => ?_⟩
  induction hway with
  | refl => exact hroot
  | tail _ hu ih => exact hclosed _ ih _ hu

end ReachSearch

/-! ## Modules within reach -/

/-- Both modules are there, and the first uses the second. -/
def UsesModule (modules : List Module) (m n : Module) : Prop :=
  m ∈ modules ∧ n ∈ modules ∧ n.name ∈ m.uses

/-- A way of uses leads from the module of the name to the other. It may have no steps. -/
def WithinReach (modules : List Module) (root : String) (m : Module) : Prop :=
  ∃ r ∈ modules, r.name = root ∧ Relation.ReflTransGen (UsesModule modules) r m

theorem withinReach_iff (hd : ModuleOrder.Distinct modules) {m : Module} (hm : m ∈ modules) :
    WithinReach modules root m ↔ Relation.ReflTransGen (Uses modules) root m.name := by
  constructor
  · rintro ⟨r, hr, rfl, hway⟩
    exact hway.lift Module.name fun a b hab => (uses_iff hd hab.1).2 hab.2.2
  · intro hway
    generalize hname : m.name = b at hway
    induction hway generalizing m with
    | refl => exact ⟨m, hm, hname, .refl⟩
    | @tail a b _ hu ih =>
      -- only a module leads on
      obtain ⟨n, hn, rfl⟩ := List.mem_map.1 (List.mem_toFinset.1 hu.mem_names)
      obtain ⟨r, hr, hroot, hway⟩ := ih hn rfl
      subst hname
      exact ⟨r, hr, hroot, hway.tail ⟨hn, hm, (uses_iff hd hn).1 hu⟩⟩

theorem reachable?_eq_none_iff :
    reachable? modules root = none ↔ root ∉ modules.map (·.name) := by
  rw [Option.eq_none_iff_forall_ne_some]
  simp only [ne_eq, reachable?_eq_some_iff, not_and]
  exact ⟨fun h hroot => h _ hroot rfl, fun h _ hroot => absurd hroot h⟩

open Classical in
/-- Of modules with names of their own, some are kept exactly if one has the name of the root. They
stand as they were given, each once, and are all modules that a way of uses leads to and no others,
so that whatever one of them uses and misses was missing before. A search that follows the uses one
by one ends after finitely many steps, among circles of modules as elsewhere, and has then found the
same modules. -/
theorem reachable?_exact (hd : ModuleOrder.Distinct modules) (root : String) :
    (reachable? modules root = none ↔ root ∉ modules.map (·.name)) ∧
    (∀ kept, reachable? modules root = some kept →
      kept = modules.filter (fun m => WithinReach modules root m) ∧ ModuleOrder.Distinct kept ∧
      ∀ m ∈ kept, ∀ used ∈ m.uses, used ∉ kept.map (·.name) → used ∉ modules.map (·.name)) ∧
    (WellFounded fun t s : ReachSearch => s.Next modules t) ∧
    ∃ found, Relation.ReflTransGen (ReachSearch.Next modules) (.start root) ⟨found, []⟩ ∧
      found.Nodup ∧ ∀ kept, reachable? modules root = some kept →
        kept = modules.filter (fun m => m.name ∈ found) := by
  refine ⟨reachable?_eq_none_iff, fun kept hkept => ?_, ReachSearch.wellFounded_next modules, ?_⟩
  · have hmem := fun m => mem_reachable?_iff hkept (m := m)
    obtain ⟨-, rfl⟩ := reachable?_eq_some_iff.1 hkept
    refine ⟨List.filter_congr fun m hm => ?_, hd.sublist (List.filter_sublist.map _), ?_⟩
    · rw [Bool.eq_iff_iff, decide_eq_true_iff, withinReach_iff hd hm, List.contains_iff_mem,
        mem_reachWithin_length_iff]
    · intro m hm used hu hmissing hthere
      obtain ⟨hm, hway⟩ := (hmem m).1 hm
      obtain ⟨n, hn, rfl⟩ := List.mem_map.1 hthere
      exact hmissing (List.mem_map_of_mem ((hmem n).2 ⟨hn, hway.tail ((uses_iff hd hm).2 hu)⟩))
  · obtain ⟨found, hrun⟩ := ReachSearch.exists_end modules (.start root)
    have hend := ReachSearch.explores_start.run hrun
    refine ⟨found, hrun, hend.nodup, fun kept hkept => ?_⟩
    obtain ⟨-, rfl⟩ := reachable?_eq_some_iff.1 hkept
    refine List.filter_congr fun m _ => ?_
    rw [Bool.eq_iff_iff, decide_eq_true_iff, hend.mem_found_iff, List.contains_iff_mem,
      mem_reachWithin_length_iff]

open Classical in
/-- Modules that use each other, one of which uses itself and one that is not there; a third uses
them. -/
theorem reachable?_exact_circle :
    let core : Module := ⟨"core", "core.dsl", ["app"], [], none, .ofList []⟩
    let draft : Module := ⟨"draft", "draft.dsl", ["core"], [], none, .ofList []⟩
    let app : Module := ⟨"app", "app.dsl", ["app", "rates", "core"], [], none, .ofList []⟩
    ModuleOrder.Distinct [core, draft, app] ∧
    reachable? [core, draft, app] "app" = some [core, app] ∧
    WithinReach [core, draft, app] "app" core ∧ ¬ WithinReach [core, draft, app] "app" draft ∧
    ∃ found,
      Relation.ReflTransGen (ReachSearch.Next [core, draft, app]) (.start "app") ⟨found, []⟩ ∧
      "rates" ∉ [core, draft, app].map (·.name) ∧
      [core, app] = [core, draft, app].filter fun m => m.name ∈ found := by
  intro core draft app
  have hd : ModuleOrder.Distinct [core, draft, app] := by
    show (["core", "draft", "app"] : List String).Nodup
    decide
  have hkept : reachable? [core, draft, app] "app" = some [core, app] := rfl
  obtain ⟨-, hexact, -, found, hrun, -, hfound⟩ := reachable?_exact hd "app"
  obtain ⟨hreach, -, hmissing⟩ := hexact _ hkept
  have hmem : ∀ m ∈ [core, draft, app],
      m ∈ [core, app] ↔ WithinReach [core, draft, app] "app" m := by
    intro m hm
    rw [hreach, List.mem_filter, decide_eq_true_iff]
    exact and_iff_right hm
  refine ⟨hd, hkept, (hmem core (by simp)).1 (by simp), fun hdraft => ?_, found, hrun,
    hmissing app (by simp) "rates" (by decide) (by decide), hfound _ hkept⟩
  have hname := List.mem_map_of_mem (f := Module.name) ((hmem draft (by simp)).2 hdraft)
  revert hname
  decide

end Blueprint
