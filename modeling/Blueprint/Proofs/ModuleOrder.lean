import Blueprint.Proofs.Countdown
import Mathlib.Data.Fintype.Pigeonhole
import Mathlib.Data.List.Forall2
import Mathlib.Data.List.Nodup
import Mathlib.Logic.Relation
import Mathlib.Order.Basic

/-!
# The order of modules is exact

`orderModules` finds an order exactly if there is one, and what it reports otherwise is exact too:

1. A taken module has its dependencies before it, so no way from it leads into a circle.
2. A module that is left depends on another one that is left, and as there are finitely many, a way
   from it ends up in a circle (`reachesCircle_of_forall`).

Of modules, the order depends on nothing but names and uses, whatever else they hold
(`forall₂_ordered`, `Keeps.orderModules_map`).
-/

namespace Blueprint

namespace ModuleOrder

/-! ## The graph of dependencies -/

/-- A module of the first name depends on the second, which is not its own. -/
def Edge (modules : List Module) (a b : String) : Prop :=
  ∃ m ∈ modules, m.name = a ∧ m.dependsOn b = true

/-- The name leads back to itself. As no module depends on itself, the way has two steps or more. -/
def OnCircle (modules : List Module) (a : String) : Prop := Relation.TransGen (Edge modules) a a

/-- Following dependencies from the name leads, in any number of steps, to a circle. -/
def ReachesCircle (modules : List Module) (a : String) : Prop :=
  ∃ b, Relation.ReflTransGen (Edge modules) a b ∧ OnCircle modules b

/-- No modules use each other in a circle. -/
def Acyclic (modules : List Module) : Prop := ∀ a, ¬ OnCircle modules a

/-- With fewer dependencies there are no other circles. -/
theorem Acyclic.mono {modules others : List Module} (h : Acyclic modules)
    (hedge : ∀ a b, Edge others a b → Edge modules a b) : Acyclic others :=
  fun a hcircle => h a (Relation.TransGen.mono hedge a a hcircle)

/-! ## Circles -/

/-- A step from a taken name leads to a taken name further in front. -/
theorem Progress.edge {modules taken : List Module} (hd : Distinct modules)
    (h : Progress modules taken []) {a b : String} (he : Edge modules a b)
    (ha : a ∈ taken.map (·.name)) :
    b ∈ taken.map (·.name) ∧ (taken.map (·.name)).idxOf b < (taken.map (·.name)).idxOf a := by
  obtain ⟨n, hn, rfl, hdep⟩ := he
  have hsub : ∀ m ∈ taken, m ∈ modules := fun m hm => ((h.mem_iff m).1 (by simp [hm])).1
  obtain ⟨n', hn', e⟩ := List.mem_map.1 ha
  obtain rfl : n' = n := eq_of_name_eq hd (hsub n' hn') hn e
  obtain ⟨before, after, rfl⟩ := List.append_of_mem hn'
  have hb := h.ordered before n' after rfl b hdep
  have hnot : n'.name ∉ before.map (·.name) := by
    intro hmem
    obtain ⟨x, hx, e⟩ := List.mem_map.1 hmem
    obtain rfl := eq_of_name_eq hd (hsub x (by simp [hx])) hn e
    have hnd := h.nodup
    rw [List.append_nil, List.nodup_append] at hnd
    exact hnd.2.2 x hx x List.mem_cons_self rfl
  rw [List.map_append, List.idxOf_append_of_mem hb, List.idxOf_append_of_notMem hnot]
  have := List.idxOf_lt_length_of_mem hb
  exact ⟨by simp [hb], by omega⟩

/-- Dependencies of taken modules go backwards, so no way from one of them leads into a circle. -/
theorem Progress.not_reachesCircle {modules taken : List Module} (hd : Distinct modules)
    (h : Progress modules taken []) {m : Module} (hm : m ∈ taken) :
    ¬ ReachesCircle modules m.name := by
  have htrans : ∀ a b, Relation.TransGen (Edge modules) a b → a ∈ taken.map (·.name) →
      b ∈ taken.map (·.name) ∧
        (taken.map (·.name)).idxOf b < (taken.map (·.name)).idxOf a := by
    intro a b hab ha
    induction hab with
    | single he => exact h.edge hd he ha
    | tail _ he ih =>
      obtain ⟨hb, hlt⟩ := ih
      obtain ⟨hc, hlt'⟩ := h.edge hd he hb
      exact ⟨hc, hlt'.trans hlt⟩
  rintro ⟨b, hreach, hcircle⟩
  have hb : b ∈ taken.map (·.name) := by
    rcases Relation.reflTransGen_iff_eq_or_transGen.1 hreach with rfl | hab
    · exact List.mem_map_of_mem hm
    · exact (htrans _ _ hab (List.mem_map_of_mem hm)).1
  exact lt_irrefl _ (htrans _ _ hcircle hb).2

/-- A module that is left depends on another one that is left. -/
theorem Progress.exists_edge {modules taken : List Module} (hc : Closed modules)
    (h : Progress modules taken []) {m : Module} (hm : m ∈ modules)
    (hleft : m ∉ taken) : ∃ n ∈ modules, n ∉ taken ∧ Edge modules m.name n.name := by
  have hready : ¬ m.isReady (taken.map (·.name)) = true := fun hr =>
    hleft (by simpa using (h.mem_iff m).2 ⟨hm, hr⟩)
  rw [isReady_iff] at hready
  push Not at hready
  obtain ⟨used, hdep, hnot⟩ := hready
  obtain ⟨n, hn, rfl⟩ := List.mem_map.1 (hc m hm used (dependsOn_iff.1 hdep).2)
  exact ⟨n, hn, fun hn' => hnot (List.mem_map_of_mem hn'), m, hm, rfl, hdep⟩

/-- Of finitely many names that each lead to another one of them, every one reaches a circle. -/
theorem reachesCircle_of_forall {modules : List Module} (left : List String)
    (h : ∀ a ∈ left, ∃ b ∈ left, Edge modules a b) {a : String} (ha : a ∈ left) :
    ReachesCircle modules a := by
  choose! next hmem hedge using h
  let way : Nat → { x // x ∈ left } := fun n =>
    n.rec ⟨a, ha⟩ fun _ x => ⟨next x, hmem x x.2⟩
  have hstep : ∀ n, Edge modules (way n).1 (way (n + 1)).1 :=
    fun n => hedge (way n).1 (way n).2
  have hway : ∀ i j, i < j → Relation.TransGen (Edge modules) (way i).1 (way j).1 :=
    fun i j hij => Nat.rel_of_forall_rel_succ_of_lt (Relation.TransGen (Edge modules))
      (fun n => .single (hstep n)) hij
  obtain ⟨i, j, hne, e⟩ := Finite.exists_ne_map_eq_of_infinite way
  have hreach : ∀ n, Relation.ReflTransGen (Edge modules) a (way n).1 := by
    intro n
    rcases Nat.eq_zero_or_pos n with rfl | hn
    · exact .refl
    · exact (hway 0 n hn).to_reflTransGen
  rcases Nat.lt_or_gt_of_ne hne with hij | hji
  · refine ⟨(way i).1, hreach i, ?_⟩
    have := hway i j hij
    rwa [← e] at this
  · refine ⟨(way j).1, hreach j, ?_⟩
    have := hway j i hji
    rwa [e] at this

/-- The modules that are left are those from which a way leads into a circle. -/
theorem mem_stuck_iff_reachesCircle {modules : List Module} (hd : Distinct modules)
    (hc : Closed modules) {m : Module} :
    m ∈ stuck modules (ordered modules) ↔ m ∈ modules ∧ ReachesCircle modules m.name := by
  have h := progress_ordered hd
  rw [mem_stuck_iff hd]
  refine and_congr_right fun hm => ⟨fun hleft => ?_, fun hr hm' => h.not_reachesCircle hd hm' hr⟩
  refine reachesCircle_of_forall ((stuck modules (ordered modules)).map (·.name)) ?_ ?_
  · intro a ha
    obtain ⟨n, hn, rfl⟩ := List.mem_map.1 ha
    obtain ⟨hn, hnl⟩ := (mem_stuck_iff hd).1 hn
    obtain ⟨k, hk, hkl, he⟩ := h.exists_edge hc hn hnl
    exact ⟨k.name, List.mem_map_of_mem ((mem_stuck_iff hd).2 ⟨hk, hkl⟩), he⟩
  · exact List.mem_map_of_mem ((mem_stuck_iff hd).2 ⟨hm, hleft⟩)

theorem stuck_eq_nil_iff {modules : List Module} (hd : Distinct modules) (hc : Closed modules) :
    stuck modules (ordered modules) = [] ↔ Acyclic modules := by
  rw [List.eq_nil_iff_forall_not_mem]
  constructor
  · intro h a ha
    obtain ⟨b, ⟨m, hm, rfl, -⟩, -⟩ := Relation.TransGen.head'_iff.1 ha
    exact h m ((mem_stuck_iff_reachesCircle hd hc).2 ⟨hm, m.name, .refl, ha⟩)
  · intro h m hm
    obtain ⟨-, b, -, hb⟩ := (mem_stuck_iff_reachesCircle hd hc).1 hm
    exact h b hb

/-! ## The answer -/

theorem repeatedFrom_eq_nil_iff {seen modules : List Module} :
    repeatedFrom seen modules = [] ↔
      (∀ m ∈ modules, ∀ s ∈ seen, s.name ≠ m.name) ∧ Distinct modules := by
  unfold Distinct
  induction modules generalizing seen with
  | nil => simp [repeatedFrom]
  | cons m rest ih =>
    cases h : seen.find? (·.name == m.name) with
    | some first =>
      have hs := List.find?_some h
      have hm := List.mem_of_find?_eq_some h
      simp only [repeatedFrom, h]
      refine iff_of_false (by simp) fun ⟨hc, _⟩ => ?_
      exact hc m List.mem_cons_self first hm (by simpa using hs)
    | none =>
      have hs : ∀ s ∈ seen, s.name ≠ m.name := by simpa using h
      simp only [repeatedFrom, h, ih, List.map_cons, List.nodup_cons, List.mem_append,
        List.mem_cons, forall_eq_or_imp, List.mem_map]
      grind

theorem repeatedFindings_eq_nil_iff {modules : List Module} :
    repeatedFindings modules = [] ↔ Distinct modules := by
  unfold repeatedFindings
  rw [List.map_eq_nil_iff, repeatedFrom_eq_nil_iff]
  simp

theorem undefinedFindings_eq_nil_iff {modules : List Module} :
    undefinedFindings modules = [] ↔ Closed modules := by
  unfold undefinedFindings Closed
  simp

theorem orderModules_of_not_distinct {modules : List Module} (hd : ¬ Distinct modules) :
    orderModules modules = .error ⟨.duplicateSymbol, repeatedFindings modules⟩ := by
  rw [← repeatedFindings_eq_nil_iff, ← List.isEmpty_iff] at hd
  unfold orderModules
  rw [if_pos (by simpa using hd)]

theorem orderModules_of_not_closed {modules : List Module} (hd : Distinct modules)
    (hc : ¬ Closed modules) :
    orderModules modules = .error ⟨.missingDependency, undefinedFindings modules⟩ := by
  rw [← undefinedFindings_eq_nil_iff, ← List.isEmpty_iff] at hc
  unfold orderModules
  rw [repeatedFindings_eq_nil_iff.2 hd, if_neg (by simp), if_pos (by simpa using hc)]

theorem orderModules_of_distinct_of_closed {modules : List Module} (hd : Distinct modules)
    (hc : Closed modules) :
    orderModules modules =
      let left := stuck modules (ordered modules)
      if left = [] then .ok (ordered modules)
      else .error ⟨.circularDependency,
        [⟨left.head?.map Module.start, .circularModules (left.map (·.name))⟩]⟩ := by
  unfold orderModules
  rw [repeatedFindings_eq_nil_iff.2 hd, undefinedFindings_eq_nil_iff.2 hc, if_neg (by simp),
    if_neg (by simp), takeAll_eq hd hc]

theorem orderModules_eq_ok_iff {modules order : List Module} :
    orderModules modules = .ok order ↔
      Distinct modules ∧ Closed modules ∧ Acyclic modules ∧ order = ordered modules := by
  by_cases hd : Distinct modules
  · by_cases hc : Closed modules
    · rw [orderModules_of_distinct_of_closed hd hc, ← stuck_eq_nil_iff hd hc]
      by_cases h : stuck modules (ordered modules) = [] <;> simp [h, hd, hc, eq_comm]
    · simp [orderModules_of_not_closed hd hc, hc]
  · simp [orderModules_of_not_distinct hd, hd]

/-- Names that are given twice are reported first, then modules that are not there, then circles. -/
theorem category_of_orderModules {modules : List Module} {e : LinkError}
    (he : orderModules modules = .error e) :
    (¬ Distinct modules ∧ e.category = .duplicateSymbol) ∨
      (Distinct modules ∧ ¬ Closed modules ∧ e.category = .missingDependency) ∨
        (Distinct modules ∧ Closed modules ∧ e.category = .circularDependency) := by
  by_cases hd : Distinct modules
  · by_cases hc : Closed modules
    · rw [orderModules_of_distinct_of_closed hd hc] at he
      dsimp only at he
      split at he
      · cases he
      · cases he
        exact .inr (.inr ⟨hd, hc, rfl⟩)
    · cases (orderModules_of_not_closed hd hc).symm.trans he
      exact .inr (.inl ⟨hd, hc, rfl⟩)
  · cases (orderModules_of_not_distinct hd).symm.trans he
    exact .inl ⟨hd, rfl⟩

/-- Of modules that lack an order for the same reason, the same is reported. -/
theorem category_eq_of_iff {modules others : List Module} {e e' : LinkError}
    (hd : Distinct others ↔ Distinct modules) (hc : Closed others ↔ Closed modules)
    (he : orderModules modules = .error e) (he' : orderModules others = .error e') :
    e'.category = e.category := by
  have hcategory := category_of_orderModules he'
  rw [hd, hc] at hcategory
  rcases category_of_orderModules he with ⟨hd, e⟩ | ⟨hd, hc, e⟩ | ⟨hd, hc, e⟩ <;>
    simpa [hd, *] using hcategory

/-- If every module can be ordered, the order holds the modules and no others. -/
theorem perm_ordered {modules : List Module} (hd : Distinct modules) (hc : Closed modules)
    (ha : Acyclic modules) : (ordered modules).Perm modules := by
  have h := progress_ordered hd
  have hnd := h.nodup
  rw [List.append_nil] at hnd
  rw [List.perm_ext_iff_of_nodup hnd (List.Nodup.of_map _ hd)]
  intro m
  refine ⟨fun hm => ((h.mem_iff m).1 (by simp [hm])).1, fun hm => ?_⟩
  by_contra hleft
  have := (mem_stuck_iff hd).2 ⟨hm, hleft⟩
  rw [(stuck_eq_nil_iff hd hc).2 ha] at this
  exact List.not_mem_nil this

theorem perm_of_orderModules {modules order : List Module}
    (h : orderModules modules = .ok order) : order.Perm modules := by
  obtain ⟨hd, hc, ha, rfl⟩ := orderModules_eq_ok_iff.1 h
  exact perm_ordered hd hc ha

/-! ## What the order depends on -/

/-- Both modules have one name and use the same modules, be it in another order or repeatedly. -/
structure UsesAlike (m n : Module) : Prop where
  name_eq : n.name = m.name
  mem_uses_iff : ∀ used, used ∈ n.uses ↔ used ∈ m.uses

theorem UsesAlike.dependsOn_eq {m n : Module} (h : UsesAlike m n) (other : String) :
    n.dependsOn other = m.dependsOn other := by
  rw [Bool.eq_iff_iff, dependsOn_iff, dependsOn_iff, h.name_eq, h.mem_uses_iff]

theorem UsesAlike.isReady_eq {m n : Module} (h : UsesAlike m n) (taken : List String) :
    n.isReady taken = m.isReady taken := by
  rw [Bool.eq_iff_iff, isReady_iff, isReady_iff]
  simp only [h.dependsOn_eq]

section

variable {R : Module → Module → Prop} (hR : ∀ m n, R m n → UsesAlike m n)
  {modules others : List Module} (h : List.Forall₂ R modules others)

include hR h

theorem map_name_eq : others.map (·.name) = modules.map (·.name) := by
  induction h with
  | nil => rfl
  | cons hm _ ih => rw [List.map_cons, List.map_cons, ih, (hR _ _ hm).name_eq]

theorem any_name_eq (n : String) : others.any (·.name == n) = modules.any (·.name == n) := by
  have hany : ∀ l : List Module, l.any (·.name == n) = (l.map (·.name)).any (· == n) :=
    fun l => by rw [List.any_map]; rfl
  rw [hany, map_name_eq hR h, ← hany]

theorem distinct_iff : Distinct others ↔ Distinct modules := by
  unfold Distinct
  rw [map_name_eq hR h]

theorem closed_iff : Closed others ↔ Closed modules := by
  unfold Closed
  rw [map_name_eq hR h]
  generalize modules.map (·.name) = names
  induction h with
  | nil => simp
  | cons hm _ ih => simp only [List.forall_mem_cons, ih, (hR _ _ hm).mem_uses_iff]

theorem acyclic_iff : Acyclic others ↔ Acyclic modules := by
  have hedge : Edge others = Edge modules := by
    funext a b
    unfold Edge
    induction h with
    | nil => rfl
    | cons hm _ ih =>
      simp only [List.mem_cons, exists_eq_or_imp, (hR _ _ hm).name_eq, (hR _ _ hm).dependsOn_eq, ih]
  unfold Acyclic OnCircle
  rw [hedge]

omit hR in
theorem forall₂_filter {p q : Module → Bool} (hpq : ∀ m n, R m n → q n = p m) :
    List.Forall₂ R (modules.filter p) (others.filter q) :=
  List.rel_filter (fun m n hmn => iff_of_eq (congrArg (· = true) (hpq m n hmn).symm)) h

theorem forall₂_take {bound : Nat} {taken taken' queue queue' : List Module}
    (ht : List.Forall₂ R taken taken') (hq : List.Forall₂ R queue queue') :
    List.Forall₂ R (take modules bound taken queue) (take others bound taken' queue') := by
  induction bound generalizing taken taken' queue queue' with
  | zero => exact ht
  | succ bound ih =>
    cases hq with
    | nil => exact ht
    | @cons m m' queue queue' hm hq =>
      have hnext : List.Forall₂ R (taken ++ [m]) (taken' ++ [m']) :=
        List.rel_append ht (.cons hm .nil)
      refine ih hnext (List.rel_append hq (forall₂_filter h fun x y hxy => ?_))
      rw [(hR _ _ hxy).dependsOn_eq, (hR _ _ hxy).isReady_eq, (hR _ _ hm).name_eq,
        map_name_eq hR hnext]

theorem forall₂_ordered : List.Forall₂ R (ordered modules) (ordered others) := by
  unfold ordered
  rw [← h.length_eq]
  exact forall₂_take hR h .nil (forall₂_filter h fun m n hmn => (hR _ _ hmn).isReady_eq [])

theorem forall₂_stuck :
    List.Forall₂ R (stuck modules (ordered modules)) (stuck others (ordered others)) := by
  refine forall₂_filter h fun m n hmn => ?_
  rw [any_name_eq hR (forall₂_ordered hR h), (hR _ _ hmn).name_eq]

end

/-- Modules keep their names, files and uses. -/
structure Keeps (f : Module → Module) : Prop where
  name : ∀ m, (f m).name = m.name
  file : ∀ m, (f m).file = m.file
  uses : ∀ m, (f m).uses = m.uses

namespace Keeps

variable {f : Module → Module} (h : Keeps f)

include h

theorem start_eq (m : Module) : (f m).start = m.start := by
  unfold Module.start
  rw [h.name, h.file]

theorem repeatedFrom_map (seen modules : List Module) :
    repeatedFrom (seen.map f) (modules.map f) = (repeatedFrom seen modules).map (Prod.map f f) := by
  induction modules generalizing seen with
  | nil => rfl
  | cons m rest ih =>
    have hfind : (seen.map f).find? (·.name == (f m).name) =
        (seen.find? (·.name == m.name)).map f := by
      rw [List.find?_map]
      simp only [Function.comp_def, h.name]
    rw [List.map_cons, repeatedFrom, repeatedFrom, hfind]
    cases seen.find? (·.name == m.name) with
    | some first =>
      dsimp only [Option.map_some]
      rw [ih, List.map_cons, Prod.map_apply]
    | none =>
      have hnext : seen.map f ++ [f m] = (seen ++ [m]).map f := by simp
      dsimp only [Option.map_none]
      rw [hnext, ih]

theorem repeatedFindings_map (modules : List Module) :
    repeatedFindings (modules.map f) = repeatedFindings modules := by
  have hrepeated := h.repeatedFrom_map [] modules
  unfold repeatedFindings
  rw [List.map_nil] at hrepeated
  rw [hrepeated, List.map_map]
  refine List.map_congr_left fun p _ => ?_
  simp only [Function.comp_apply, Prod.map_fst, Prod.map_snd, h.start_eq, h.name, h.file]

theorem undefinedFindings_map (modules : List Module) :
    undefinedFindings (modules.map f) = undefinedFindings modules := by
  unfold undefinedFindings
  simp only [List.flatMap_map, List.any_map, Function.comp_def, h.start_eq, h.name, h.uses]

/-- The order depends on nothing else of modules, nor does what is wrong with it. -/
theorem orderModules_map (modules : List Module) :
    orderModules (modules.map f) = (orderModules modules).map (List.map f) := by
  have hgraph : ∀ l l' : List Module, List.Forall₂ (fun m n => f m = n) l l' ↔ l.map f = l' :=
    fun l l' => by rw [← List.forall₂_map_left_iff, List.forall₂_eq_eq_eq]
  have halike : ∀ m n, f m = n → UsesAlike m n := by
    rintro m _ rfl
    exact ⟨h.name m, fun used => by rw [h.uses]⟩
  have hmap := (hgraph modules _).2 rfl
  have hordered := (hgraph _ _).1 (forall₂_ordered halike hmap)
  have hstuck := (hgraph _ _).1 (forall₂_stuck halike hmap)
  have hplace : (stuck (modules.map f) (ordered (modules.map f))).head?.map Module.start =
      (stuck modules (ordered modules)).head?.map Module.start := by
    rw [← hstuck, List.head?_map, Option.map_map]
    exact congrArg (Option.map · _) (funext h.start_eq)
  have hnames := map_name_eq halike (forall₂_stuck halike hmap)
  have hdistinct := distinct_iff halike hmap
  have hclosed := closed_iff halike hmap
  by_cases hd : Distinct modules
  · by_cases hc : Closed modules
    · rw [orderModules_of_distinct_of_closed hd hc,
        orderModules_of_distinct_of_closed (hdistinct.2 hd) (hclosed.2 hc)]
      dsimp only
      rw [hplace, hnames, ← hstuck, ← hordered]
      simp only [List.map_eq_nil_iff]
      split_ifs <;> rfl
    · rw [orderModules_of_not_closed hd hc,
        orderModules_of_not_closed (hdistinct.2 hd) (mt hclosed.1 hc), h.undefinedFindings_map]
      rfl
  · rw [orderModules_of_not_distinct hd, orderModules_of_not_distinct (mt hdistinct.1 hd),
      h.repeatedFindings_map]
    rfl

end Keeps

/-! ## Repeated uses -/

/-- The second module is the first, but it may name what it uses in another order or repeatedly. -/
def SameUses (m n : Module) : Prop :=
  n = { m with uses := n.uses } ∧ ∀ used, used ∈ n.uses ↔ used ∈ m.uses

theorem SameUses.usesAlike (m n : Module) (h : SameUses m n) : UsesAlike m n where
  name_eq := by rw [h.1]
  mem_uses_iff := h.2

section

variable {modules others : List Module} (h : List.Forall₂ SameUses modules others)

include h

theorem exists_order_iff_of_sameUses :
    (∃ order, orderModules others = .ok order) ↔ ∃ order, orderModules modules = .ok order := by
  simp only [orderModules_eq_ok_iff, distinct_iff SameUses.usesAlike h,
    closed_iff SameUses.usesAlike h, acyclic_iff SameUses.usesAlike h, exists_and_left, exists_eq]

/-- Repeated and reordered uses lead to the same order. -/
theorem orderModules_ok_of_sameUses {order : List Module} (ho : orderModules modules = .ok order) :
    ∃ order', orderModules others = .ok order' ∧ List.Forall₂ SameUses order order' := by
  obtain ⟨-, -, -, rfl⟩ := orderModules_eq_ok_iff.1 ho
  obtain ⟨order', ho'⟩ := (exists_order_iff_of_sameUses h).2 ⟨_, ho⟩
  obtain ⟨-, -, -, rfl⟩ := orderModules_eq_ok_iff.1 ho'
  exact ⟨_, ho', forall₂_ordered SameUses.usesAlike h⟩

/-- Repeated and reordered uses lead to an error of the same category. -/
theorem orderModules_error_of_sameUses {e : LinkError} (he : orderModules modules = .error e) :
    ∃ e', orderModules others = .error e' ∧ e'.category = e.category := by
  cases he' : orderModules others with
  | ok order' =>
    obtain ⟨order, ho⟩ := (exists_order_iff_of_sameUses h).1 ⟨order', he'⟩
    exact nomatch he.symm.trans ho
  | error e' =>
    exact ⟨e', rfl, category_eq_of_iff (distinct_iff SameUses.usesAlike h)
      (closed_iff SameUses.usesAlike h) he he'⟩

end

/-! ## Main result -/

open Classical in
/-- There is an order exactly if names are distinct, used modules are there and no modules use each
other in a circle. Then it holds the given modules, each strictly behind those it depends on. If
only circles are in the way, one finding names the modules that lead into one, as they were given.
How often a module names what it uses is of no matter. -/
theorem orderModules_exact (modules : List Module) :
    ((∃ order, orderModules modules = .ok order) ↔
        Distinct modules ∧ Closed modules ∧ Acyclic modules) ∧
      (∀ order, orderModules modules = .ok order → order.Perm modules ∧ Ordered order) ∧
      (Distinct modules → Closed modules → ¬ Acyclic modules →
        ∃ place, orderModules modules = .error ⟨.circularDependency, [⟨place, .circularModules
          ((modules.filter fun m => ReachesCircle modules m.name).map (·.name))⟩]⟩) ∧
      ∀ others, List.Forall₂ SameUses modules others →
        (∀ order, orderModules modules = .ok order →
          ∃ order', orderModules others = .ok order' ∧ List.Forall₂ SameUses order order') ∧
        ∀ e, orderModules modules = .error e →
          ∃ e', orderModules others = .error e' ∧ e'.category = e.category := by
  refine ⟨?_, ?_, ?_, fun others h =>
    ⟨fun order => orderModules_ok_of_sameUses h, fun e => orderModules_error_of_sameUses h⟩⟩
  · simp only [orderModules_eq_ok_iff]
    constructor
    · rintro ⟨order, hd, hc, ha, -⟩
      exact ⟨hd, hc, ha⟩
    · rintro ⟨hd, hc, ha⟩
      exact ⟨_, hd, hc, ha, rfl⟩
  · intro order ho
    obtain ⟨hd, -, -, rfl⟩ := orderModules_eq_ok_iff.1 ho
    exact ⟨perm_of_orderModules ho, (progress_ordered hd).ordered⟩
  · intro hd hc ha
    have hleft : stuck modules (ordered modules) =
        modules.filter fun m => ReachesCircle modules m.name := by
      conv_lhs => unfold stuck
      refine List.filter_congr fun m hm => ?_
      rw [Bool.eq_iff_iff, decide_eq_true_iff]
      have := mem_stuck_iff_reachesCircle hd hc (m := m)
      unfold stuck at this
      rw [List.mem_filter] at this
      exact ⟨fun hl => (this.1 ⟨hm, hl⟩).2, fun hr => (this.2 ⟨hm, hr⟩).2⟩
    have hne := mt (stuck_eq_nil_iff hd hc).1 ha
    refine ⟨(stuck modules (ordered modules)).head?.map Module.start, ?_⟩
    rw [orderModules_of_distinct_of_closed hd hc, ← hleft]
    exact if_neg hne

end ModuleOrder

end Blueprint
