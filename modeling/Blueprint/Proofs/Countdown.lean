import Blueprint.Module.Order
import Mathlib.Data.List.FinRange
import Mathlib.Data.List.Nodup

/-!
# Counting down

While modules are taken off the queue, a counter holds how many used modules a module still waits
for. Instead of counting, one can look at each step for the modules whose used ones are all taken,
as `take` does. Where names are distinct and used modules are there, both come to the same.

1. Those taken or waiting are the modules whose dependencies are all taken (`Progress`), so at the
   end nothing is left that could still be taken.
2. A counter is the number of used modules that were not taken yet (`Countdown.Counts`). A module is
   released when that number gets to zero, which is when the last one it uses is taken.
3. So both runs take the same modules from the same queue, and the counters that are not zero at the
   end are those of the modules that are left (`takeAll_eq`).
-/

namespace Blueprint

namespace Module

/-- Whether the module uses the other, which is not itself. -/
def dependsOn (m : Module) (other : String) : Bool := other != m.name && m.uses.contains other

/-- Whether all modules that the module depends on are among the given names. -/
def isReady (m : Module) (taken : List String) : Bool :=
  m.uses.all fun used => used == m.name || taken.contains used

end Module

namespace ModuleOrder

/-- The modules that wait for `last` alone, once the others in `taken` are there. -/
def released (modules : List Module) (taken : List String) (last : String) : List Module :=
  modules.filter fun m => m.dependsOn last && m.isReady taken

/-- Takes up to `bound` modules off the queue, with what they release behind it. -/
def take (modules : List Module) : Nat → List Module → List Module → List Module
  | 0, taken, _ => taken
  | _ + 1, taken, [] => taken
  | bound + 1, taken, m :: queue =>
    let next := taken ++ [m]
    take modules bound next (queue ++ released modules (next.map (·.name)) m.name)

/-- The modules that can be ordered, in order. -/
def ordered (modules : List Module) : List Module :=
  take modules modules.length [] (modules.filter fun m => m.isReady [])

/-- The modules that are not in the order. -/
def stuck (modules order : List Module) : List Module :=
  modules.filter fun m => !order.any (·.name == m.name)

/-! ## What modules depend on -/

/-- No two modules share a name. -/
def Distinct (modules : List Module) : Prop := (modules.map (·.name)).Nodup

/-- Every used name is that of a module. -/
def Closed (modules : List Module) : Prop :=
  ∀ m ∈ modules, ∀ used ∈ m.uses, used ∈ modules.map (·.name)

theorem dependsOn_iff {m : Module} {other : String} :
    m.dependsOn other = true ↔ other ≠ m.name ∧ other ∈ m.uses := by
  unfold Module.dependsOn
  simp

theorem isReady_iff {m : Module} {taken : List String} :
    m.isReady taken = true ↔ ∀ used, m.dependsOn used = true → used ∈ taken := by
  unfold Module.isReady
  rw [List.all_eq_true]
  constructor
  · intro h used hd
    obtain ⟨hne, hu⟩ := dependsOn_iff.1 hd
    simpa [hne] using h used hu
  · intro h used hu
    by_cases hne : used = m.name
    · simp [hne]
    · simpa [hne] using h used (dependsOn_iff.2 ⟨hne, hu⟩)

/-- What is ready once one more name is taken was ready before, or depends on that name. -/
theorem isReady_concat_iff {m : Module} {taken : List String} {last : String} :
    m.isReady (taken ++ [last]) = true ↔
      m.isReady taken = true ∨ m.dependsOn last = true ∧ m.isReady (taken ++ [last]) = true := by
  constructor
  · intro h
    by_cases hd : m.dependsOn last = true
    · exact .inr ⟨hd, h⟩
    · refine .inl (isReady_iff.2 fun used hu => ?_)
      rcases List.mem_append.1 (isReady_iff.1 h used hu) with hused | hused
      · exact hused
      · exact absurd (List.mem_singleton.1 hused ▸ hu) hd
  · rintro (h | ⟨-, h⟩)
    · exact isReady_iff.2 fun used hu => List.mem_append_left _ (isReady_iff.1 h used hu)
    · exact h

theorem mem_released {modules : List Module} {taken : List String} {last : String} {m : Module} :
    m ∈ released modules taken last ↔
      m ∈ modules ∧ m.dependsOn last = true ∧ m.isReady taken = true := by
  unfold released
  rw [List.mem_filter, Bool.and_eq_true]

theorem eq_of_name_eq {modules : List Module} (hd : Distinct modules) {m n : Module}
    (hm : m ∈ modules) (hn : n ∈ modules) (h : m.name = n.name) : m = n :=
  List.inj_on_of_nodup_map hd hm hn h

/-! ## Taking modules off the queue -/

/-- The modules among `taken` stand behind all they depend on. -/
def Ordered (taken : List Module) : Prop :=
  ∀ before m after, taken = before ++ m :: after →
    ∀ used, m.dependsOn used = true → used ∈ before.map (·.name)

/-- What holds while modules are taken: those taken or waiting are the ones that are ready. -/
structure Progress (modules taken queue : List Module) : Prop where
  nodup : (taken ++ queue).Nodup
  mem_iff : ∀ m, m ∈ taken ++ queue ↔ m ∈ modules ∧ m.isReady (taken.map (·.name)) = true
  ordered : Ordered taken

theorem Ordered.concat {taken : List Module} {m : Module} (h : Ordered taken)
    (hm : m.isReady (taken.map (·.name)) = true) : Ordered (taken ++ [m]) := by
  intro before n after e used hd
  rcases List.eq_nil_or_concat after with rfl | ⟨after, x, rfl⟩
  · obtain ⟨rfl, e⟩ := List.append_inj' e rfl
    obtain rfl : m = n := by simpa using e
    exact isReady_iff.1 hm used hd
  · have e' : taken ++ [m] = (before ++ n :: after) ++ [x] := by simpa using e
    exact h before n after (List.append_inj' e' rfl).1 used hd

theorem progress_start {modules : List Module} (hd : Distinct modules) :
    Progress modules [] (modules.filter fun m => m.isReady []) where
  nodup := (List.Nodup.of_map _ hd).filter _
  mem_iff m := by simp
  ordered := by
    intro before m after e
    simp at e

/-- Taking the first module off the queue keeps the progress. -/
theorem Progress.step {modules taken queue : List Module} {m : Module} (hd : Distinct modules)
    (h : Progress modules taken (m :: queue)) :
    Progress modules (taken ++ [m])
      (queue ++ released modules ((taken ++ [m]).map (·.name)) m.name) := by
  obtain ⟨hm, hr⟩ := (h.mem_iff m).1 (by simp)
  have hnt : m ∉ taken := fun ht => (List.nodup_append.1 h.nodup).2.2 m ht m (by simp) rfl
  have hname : m.name ∉ taken.map (·.name) := by
    intro ht
    obtain ⟨n, hn, e⟩ := List.mem_map.1 ht
    have hn' : n ∈ modules := ((h.mem_iff n).1 (by simp [hn])).1
    exact hnt (eq_of_name_eq hd hn' hm e ▸ hn)
  -- what is released was not ready before, so it is neither taken nor waiting
  have hfresh : ∀ x ∈ released modules ((taken ++ [m]).map (·.name)) m.name,
      x ∉ taken ++ m :: queue := by
    intro x hx hmem
    obtain ⟨_, hdep, _⟩ := mem_released.1 hx
    exact hname (isReady_iff.1 ((h.mem_iff x).1 hmem).2 _ hdep)
  have e : taken ++ [m] ++ (queue ++ released modules ((taken ++ [m]).map (·.name)) m.name) =
      (taken ++ m :: queue) ++ released modules ((taken ++ [m]).map (·.name)) m.name := by simp
  refine ⟨?_, fun x => ?_, h.ordered.concat hr⟩
  · rw [e, List.nodup_append]
    refine ⟨h.nodup, (List.Nodup.of_map _ hd).filter _, ?_⟩
    rintro a ha b hb rfl
    exact hfresh a hb ha
  · rw [e, List.mem_append, h.mem_iff x, mem_released, ← and_or_left, List.map_append]
    exact and_congr_right fun _ => isReady_concat_iff.symm

theorem Progress.length_le {modules taken queue : List Module}
    (h : Progress modules taken queue) : taken.length + queue.length ≤ modules.length := by
  rw [← List.length_append]
  exact (List.subperm_of_subset h.nodup fun m hm => ((h.mem_iff m).1 hm).1).length_le

/-- With a bound for all modules that are left, taking ends with an empty queue. -/
theorem Progress.take {modules : List Module} (hd : Distinct modules) {bound : Nat}
    {taken queue : List Module} (h : Progress modules taken queue)
    (hb : modules.length ≤ taken.length + bound) :
    Progress modules (take modules bound taken queue) [] := by
  induction bound generalizing taken queue with
  | zero =>
    have hq : queue.length = 0 := by have := h.length_le; omega
    rw [List.length_eq_zero_iff.1 hq] at h
    exact h
  | succ bound ih =>
    cases queue with
    | nil => exact h
    | cons m queue =>
      refine ih (h.step hd) ?_
      rw [List.length_append, List.length_singleton]
      omega

theorem progress_ordered {modules : List Module} (hd : Distinct modules) :
    Progress modules (ordered modules) [] :=
  (progress_start hd).take hd (by simp)

/-! ## Dependencies by their places -/

section

variable {modules : List Module} {i d : Fin modules.length}

theorem place?_eq_some_iff (hd : Distinct modules) {n : String} :
    place? modules n = some i ↔ (modules.get i).name = n := by
  unfold place?
  rw [List.findFinIdx?_eq_some_iff]
  constructor
  · exact fun h => eq_of_beq h.1
  · rintro rfl
    refine ⟨beq_self_eq_true _, fun j hj hname => ?_⟩
    have hi : i.1 < (modules.map (·.name)).length := by simp
    have hj' : j.1 < (modules.map (·.name)).length := by simp
    have hnames : (modules.map (·.name))[j.1] = (modules.map (·.name))[i.1] := by
      rw [List.getElem_map, List.getElem_map]
      exact eq_of_beq hname
    exact absurd hj (Fin.ext ((List.Nodup.getElem_inj_iff hd).1 hnames) ▸ lt_irrefl j)

theorem exists_place (hc : Closed modules) {m : Module} (hm : m ∈ modules) {used : String}
    (hused : used ∈ m.uses) : ∃ d : Fin modules.length, (modules.get d).name = used := by
  obtain ⟨n, hn, rfl⟩ := List.mem_map.1 (hc m hm used hused)
  obtain ⟨d, hd, rfl⟩ := List.mem_iff_getElem.1 hn
  exact ⟨⟨d, hd⟩, rfl⟩

theorem mem_dependenciesFrom {seen : List (Fin modules.length)} {uses : List String} :
    d ∈ dependenciesFrom modules i seen uses ↔
      d ∈ seen ∨ (d ≠ i ∧ ∃ used ∈ uses, place? modules used = some d) := by
  induction uses generalizing seen with
  | nil => simp [dependenciesFrom]
  | cons used rest ih =>
    rw [dependenciesFrom]
    split
    · next hnone => simp [ih, hnone]
    · next x hx =>
      split
      · simp only [ih, List.exists_mem_cons_iff, hx, Option.some.injEq]
        grind
      · simp only [ih, List.exists_mem_cons_iff, hx, Option.some.injEq, List.mem_append,
          List.mem_singleton]
        grind

theorem nodup_dependenciesFrom {seen : List (Fin modules.length)} {uses : List String}
    (h : seen.Nodup) : (dependenciesFrom modules i seen uses).Nodup := by
  induction uses generalizing seen with
  | nil => exact h
  | cons used rest ih =>
    rw [dependenciesFrom]
    split
    · exact ih h
    · split
      · exact ih h
      · next hnew =>
        exact ih (List.nodup_append.2 ⟨h, List.nodup_singleton _, by grind⟩)

theorem nodup_dependencies (i : Fin modules.length) : (dependencies modules i).Nodup :=
  nodup_dependenciesFrom List.nodup_nil

theorem mem_dependencies_iff (hd : Distinct modules) :
    d ∈ dependencies modules i ↔ (modules.get i).dependsOn (modules.get d).name = true := by
  unfold dependencies
  simp only [mem_dependenciesFrom, List.not_mem_nil, false_or, place?_eq_some_iff hd,
    exists_eq_right', dependsOn_iff]
  refine and_congr_left fun _ => not_congr ?_
  rw [← place?_eq_some_iff hd, (place?_eq_some_iff hd).2 rfl, Option.some.injEq, eq_comm]

theorem mem_dependents_iff : i ∈ dependents modules d ↔ d ∈ dependencies modules i := by
  unfold dependents
  rw [List.mem_filter, and_iff_right (List.mem_finRange i), decide_eq_true_iff]

theorem nodup_dependents (d : Fin modules.length) : (dependents modules d).Nodup :=
  (List.nodup_finRange _).filter _

theorem map_get_filter_finRange {p : Module → Bool} {q : Fin modules.length → Bool}
    (h : ∀ i, q i = p (modules.get i)) :
    ((List.finRange modules.length).filter q).map modules.get = modules.filter p := by
  have hpq : q = p ∘ modules.get := funext h
  rw [hpq, ← List.filter_map, List.map_get_finRange]

/-! ## Counters -/

/-- How many used modules of a module were not taken yet. -/
def missing (modules : List Module) (taken : List (Fin modules.length)) (i : Fin modules.length) :
    Nat :=
  (dependencies modules i).countP fun d => !taken.contains d

theorem missing_nil : missing modules [] i = (dependencies modules i).length := by
  unfold missing
  rw [List.countP_eq_length]
  exact fun d _ => rfl

theorem missing_eq_zero_iff (hd : Distinct modules) (hc : Closed modules)
    {taken : List (Fin modules.length)} :
    missing modules taken i = 0 ↔
      (modules.get i).isReady ((taken.map modules.get).map (·.name)) = true := by
  unfold missing
  rw [List.countP_eq_zero, isReady_iff]
  simp only [Bool.not_eq_true', Bool.not_eq_false, List.contains_iff_mem, mem_dependencies_iff hd,
    List.map_map, List.mem_map]
  constructor
  · intro h used hused
    obtain ⟨d, rfl⟩ := exists_place hc (List.getElem_mem i.2) (dependsOn_iff.1 hused).2
    exact ⟨d, h d hused, rfl⟩
  · intro h d hdep
    obtain ⟨d', hd', hname⟩ := h _ hdep
    have hplace := (place?_eq_some_iff hd (i := d')).2 hname
    rw [(place?_eq_some_iff hd).2 rfl] at hplace
    exact Option.some.inj hplace ▸ hd'

theorem countP_not_contains_concat {α : Type} [DecidableEq α] {l taken : List α} {a : α}
    (h : a ∉ taken) : l.countP (fun b => !taken.contains b) =
      l.countP (fun b => !(taken ++ [a]).contains b) + l.count a := by
  induction l with
  | nil => rfl
  | cons b l ih =>
    rw [List.countP_cons, List.countP_cons, List.count_cons, ih]
    by_cases hb : b = a
    · subst hb
      simp [h]
      omega
    · simp [hb]
      omega

/-- Once one more module is taken, those that depend on it miss one less, and the others as many as
before. -/
theorem missing_concat {taken : List (Fin modules.length)} (h : d ∉ taken) :
    missing modules taken i =
      missing modules (taken ++ [d]) i + if d ∈ dependencies modules i then 1 else 0 := by
  unfold missing
  rw [countP_not_contains_concat h, (nodup_dependencies i).count]

namespace Countdown

/-- The counters are right: each is the number of used modules that were not taken yet. -/
def Counts (c : Countdown modules.length) : Prop := ∀ i, c.waits i = missing modules c.taken i

variable {n : Nat}

theorem foldl_release {c : Countdown n} {l : List (Fin n)} (hl : l.Nodup) :
    l.foldl release c =
      { taken := c.taken
        queue := c.queue ++ l.filter fun j => c.waits j - 1 = 0
        waits := fun j => if j ∈ l then c.waits j - 1 else c.waits j } := by
  induction l generalizing c with
  | nil => simp
  | cons i l ih =>
    obtain ⟨hi, hl⟩ := List.nodup_cons.1 hl
    -- the others do not notice that the first one was released
    have hother : ∀ j ∈ l, (c.release i).waits j = c.waits j := by
      intro j hj
      exact if_neg fun hji : j = i => hi (hji ▸ hj)
    rw [List.foldl_cons, ih hl, Countdown.mk.injEq]
    refine ⟨rfl, ?_, funext fun j => ?_⟩
    · rw [List.filter_congr fun j hj => by rw [hother j hj], List.filter_cons]
      simp only [release, decide_eq_true_iff]
      split <;> simp
    · by_cases hj : j ∈ l
      · rw [if_pos hj, if_pos (List.mem_cons_of_mem _ hj), hother j hj]
      · rw [if_neg hj]
        simp only [release, List.mem_cons, hj, or_false]
        split
        · next hji => rw [hji]
        · rfl

variable {c : Countdown modules.length}

theorem taken_next {queue : List (Fin modules.length)} :
    (c.next modules d queue).taken = c.taken ++ [d] := by
  unfold next
  rw [foldl_release (nodup_dependents d)]

/-- No counter is counted down below zero: a module that depends on one that was not taken yet is
waiting for it. -/
theorem Counts.waits_pos (h : c.Counts) (hnew : d ∉ c.taken) (hi : i ∈ dependents modules d) :
    0 < c.waits i := by
  rw [h i, missing_concat hnew, if_pos (mem_dependents_iff.1 hi)]
  exact Nat.succ_pos _

/-- Taking a module keeps the counters right. -/
theorem Counts.next (queue : List (Fin modules.length)) (h : c.Counts) (hnew : d ∉ c.taken) :
    (c.next modules d queue).Counts := by
  intro i
  rw [taken_next]
  unfold Countdown.next
  rw [foldl_release (nodup_dependents d)]
  dsimp only
  rw [h i, missing_concat hnew]
  simp only [mem_dependents_iff]
  split <;> omega

/-- What lines up are the modules that were waiting for the last one only. -/
theorem Counts.queue_next (queue : List (Fin modules.length)) (hd : Distinct modules)
    (hc : Closed modules) (h : c.Counts) (hnew : d ∉ c.taken) :
    (c.next modules d queue).queue.map modules.get =
      queue.map modules.get ++ released modules
        (((c.taken ++ [d]).map modules.get).map (·.name)) (modules.get d).name := by
  have hreleased : ((dependents modules d).filter fun j => c.waits j - 1 = 0).map modules.get =
      released modules (((c.taken ++ [d]).map modules.get).map (·.name)) (modules.get d).name := by
    unfold dependents released
    rw [List.filter_filter]
    refine map_get_filter_finRange fun i => ?_
    rw [Bool.eq_iff_iff, Bool.and_eq_true, Bool.and_eq_true, decide_eq_true_iff,
      decide_eq_true_iff, ← missing_eq_zero_iff hd hc, ← mem_dependencies_iff hd, and_comm, h i,
      missing_concat hnew]
    refine and_congr_right fun hdep => ?_
    rw [if_pos hdep, Nat.add_sub_cancel]
  unfold Countdown.next
  rw [foldl_release (nodup_dependents d), List.map_append]
  exact congrArg (queue.map modules.get ++ ·) hreleased

/-- Counting down takes the modules that are taken by looking at what is ready. The induction is on
the bound; that those taken and waiting are different modules carries it. -/
theorem Counts.run (bound : Nat) (hd : Distinct modules) (hc : Closed modules) (h : c.Counts)
    (hp : Progress modules (c.taken.map modules.get) (c.queue.map modules.get))
    (hb : modules.length ≤ c.taken.length + bound) :
    let last := Countdown.run modules bound c
    last.Counts ∧ last.queue = [] ∧
      last.taken.map modules.get =
        take modules bound (c.taken.map modules.get) (c.queue.map modules.get) := by
  induction bound generalizing c with
  | zero =>
    have hlength := hp.length_le
    rw [List.length_map, List.length_map] at hlength
    have hqueue : c.queue.length = 0 := by omega
    exact ⟨h, List.length_eq_zero_iff.1 hqueue, rfl⟩
  | succ bound ih =>
    rw [Countdown.run]
    cases hq : c.queue with
    | nil => exact ⟨h, hq, rfl⟩
    | cons d queue =>
      rw [hq, List.map_cons] at hp
      have hnew : d ∉ c.taken := fun hmem =>
        (List.nodup_append.1 hp.nodup).2.2 _ (List.mem_map_of_mem hmem) _ List.mem_cons_self rfl
      have hstep := hp.step hd
      have hqueue := h.queue_next queue hd hc hnew
      rw [List.map_append, List.map_singleton] at hqueue
      dsimp only
      rw [List.map_cons, take]
      have hnext := ih (h.next queue hnew)
      rw [taken_next, hqueue, List.map_append, List.map_singleton] at hnext
      exact hnext hstep (by rw [List.length_append, List.length_singleton]; omega)

theorem counts_start : (start modules).Counts := fun _ => missing_nil.symm

theorem queue_start (hd : Distinct modules) (hc : Closed modules) :
    (start modules).queue.map modules.get = modules.filter fun m => m.isReady [] := by
  refine map_get_filter_finRange fun i => ?_
  rw [Bool.eq_iff_iff, decide_eq_true_iff, ← missing_nil, missing_eq_zero_iff hd hc]
  rfl

end Countdown

/-! ## What is taken and what is left -/

theorem any_name_ordered (hd : Distinct modules) {m : Module} (hm : m ∈ modules) :
    (ordered modules).any (·.name == m.name) = true ↔ m ∈ ordered modules := by
  rw [List.any_eq_true]
  constructor
  · rintro ⟨n, hn, hname⟩
    have hn' : n ∈ modules := (((progress_ordered hd).mem_iff n).1 (by simp [hn])).1
    exact eq_of_name_eq hd hn' hm (eq_of_beq hname) ▸ hn
  · exact fun hm' => ⟨m, hm', beq_self_eq_true _⟩

theorem mem_stuck_iff (hd : Distinct modules) {m : Module} :
    m ∈ stuck modules (ordered modules) ↔ m ∈ modules ∧ m ∉ ordered modules := by
  unfold stuck
  rw [List.mem_filter]
  refine and_congr_right fun hm => ?_
  rw [Bool.not_eq_true', ← Bool.not_eq_true, any_name_ordered hd hm]

theorem length_ordered_lt_iff (hd : Distinct modules) :
    (ordered modules).length < modules.length ↔ stuck modules (ordered modules) ≠ [] := by
  have hp := progress_ordered hd
  have hnodup : (ordered modules).Nodup := by simpa using hp.nodup
  have hsub : ordered modules ⊆ modules := fun m hm => ((hp.mem_iff m).1 (by simp [hm])).1
  constructor
  · intro hlt hnil
    have hall : modules ⊆ ordered modules := by
      intro m hm
      by_contra hleft
      exact List.not_mem_nil (hnil ▸ (mem_stuck_iff hd).2 ⟨hm, hleft⟩)
    exact absurd hlt (Nat.not_lt.2 (List.subperm_of_subset (List.Nodup.of_map _ hd) hall).length_le)
  · intro hne
    by_contra hle
    have hperm := (List.subperm_of_subset hnodup hsub).perm_of_length_le (Nat.not_lt.1 hle)
    obtain ⟨m, hm⟩ := List.exists_mem_of_ne_nil _ hne
    obtain ⟨hm, hleft⟩ := (mem_stuck_iff hd).1 hm
    exact hleft (hperm.mem_iff.2 hm)

/-- The first module that has the name of one that is left is the first one that is left. -/
theorem find?_name_stuck (hd : Distinct modules) :
    modules.find? (fun m => ((stuck modules (ordered modules)).map (·.name)).contains m.name) =
      (stuck modules (ordered modules)).head? := by
  rw [← List.head?_filter]
  conv_rhs => unfold stuck
  refine congrArg List.head? (List.filter_congr fun m hm => ?_)
  rw [Bool.eq_iff_iff, List.contains_iff_mem, List.mem_map]
  have hleft : m ∈ stuck modules (ordered modules) ↔
      (!(ordered modules).any (·.name == m.name)) = true := by
    unfold stuck
    rw [List.mem_filter, and_iff_right hm]
  rw [← hleft]
  constructor
  · rintro ⟨n, hn, hname⟩
    exact eq_of_name_eq hd ((mem_stuck_iff hd).1 hn).1 hm hname ▸ hn
  · exact fun hm' => ⟨m, hm', rfl⟩

/-- Counting down to the end takes the modules that can be ordered, or names those that cannot. -/
theorem takeAll_eq (hd : Distinct modules) (hc : Closed modules) :
    takeAll modules =
      let left := stuck modules (ordered modules)
      if left = [] then .ok (ordered modules)
      else .error ⟨.circularDependency,
        [⟨left.head?.map Module.start, .circularModules (left.map (·.name))⟩]⟩ := by
  have hstart : Progress modules ((Countdown.start modules).taken.map modules.get)
      ((Countdown.start modules).queue.map modules.get) := by
    rw [Countdown.queue_start hd hc]
    exact progress_start hd
  obtain ⟨hcounts, -, htaken⟩ :=
    Countdown.counts_start.run modules.length hd hc hstart (Nat.le_add_left _ _)
  rw [Countdown.queue_start hd hc] at htaken
  change _ = ordered modules at htaken
  -- a counter is above zero where a used module is left, so the module is left as well
  have hleft : (Countdown.run modules modules.length (.start modules)).stuck.map modules.get =
      stuck modules (ordered modules) := by
    refine map_get_filter_finRange fun i => ?_
    have hi : modules.get i ∈ modules := List.getElem_mem i.2
    have hready := (progress_ordered hd).mem_iff (modules.get i)
    rw [List.append_nil, and_iff_right hi, ← htaken, ← missing_eq_zero_iff hd hc, htaken] at hready
    rw [Bool.eq_iff_iff, decide_eq_true_iff, Bool.not_eq_true', ← Bool.not_eq_true,
      any_name_ordered hd hi, hready, hcounts i, Nat.pos_iff_ne_zero]
  have hnames : (Countdown.run modules modules.length (.start modules)).stuck.map
      (fun i => (modules.get i).name) = (stuck modules (ordered modules)).map (·.name) := by
    rw [← hleft, List.map_map]
    rfl
  have hlength := congrArg List.length htaken
  rw [List.length_map] at hlength
  unfold takeAll
  dsimp only
  rw [hnames, find?_name_stuck hd, htaken, hlength]
  by_cases h : stuck modules (ordered modules) = []
  · rw [if_neg fun hlt => (length_ordered_lt_iff hd).1 hlt h, if_pos h]
  · rw [if_pos ((length_ordered_lt_iff hd).2 h), if_neg h]

end

end ModuleOrder

end Blueprint
