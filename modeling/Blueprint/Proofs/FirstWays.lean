import Blueprint.Proofs.Circles
import Mathlib.Data.List.Basic

/-!
# First ways

Of all ways to a name that repeat nothing, a depth-first search takes the first one: at each name it
goes on by the earliest reference from which the last name can be reached without coming back to the
way so far (`FirstWay`). Names that lead nowhere near the last name make no difference, whether they
are avoided or not (`firstWay_iff_of_dead`). This is why the search may pass by what it has followed
before, and still takes the same way. To every name that can be reached at all there is a first way
(`exists_firstWay`).
-/

open Relation (ReflTransGen)

namespace Blueprint

namespace EntityCycle

variable {entities : List Entity} {avoid avoid' way rest : List String} {a t x y z : String}

/-! ## Ways that avoid names -/

/-- A way from the first name to the second comes by none of those to avoid, ends included. -/
def Leads (entities : List Entity) (avoid : List String) (a z : String) : Prop :=
  a ∉ avoid ∧ ReflTransGen (fun x y => Edge entities x y ∧ y ∉ avoid) a z

theorem leads_self (h : a ∉ avoid) : Leads entities avoid a a := ⟨h, .refl⟩

theorem Leads.head (ha : a ∉ avoid) (he : Edge entities a t) (h : Leads entities avoid t z) :
    Leads entities avoid a z := ⟨ha, h.2.head ⟨he, h.1⟩⟩

theorem Leads.tail (h : Leads entities avoid a y) (he : Edge entities y z) (hz : z ∉ avoid) :
    Leads entities avoid a z := ⟨h.1, h.2.tail ⟨he, hz⟩⟩

theorem Leads.mono (h : Leads entities avoid' a z) (hsub : avoid ⊆ avoid') :
    Leads entities avoid a z :=
  ⟨fun ha => h.1 (hsub ha),
    ReflTransGen.mono (fun _ _ hxy => ⟨hxy.1, fun hy => hxy.2 (hsub hy)⟩) _ _ h.2⟩

theorem Leads.trans (h : Leads entities avoid a y) (h' : Leads entities avoid y z) :
    Leads entities avoid a z := ⟨h.1, h.2.trans h'.2⟩

theorem Leads.end_not_mem (h : Leads entities avoid a z) : z ∉ avoid := by
  rcases h.2.cases_tail with rfl | ⟨y, -, hyz⟩
  · exact h.1
  · exact hyz.2

theorem leads_nil_iff : Leads entities [] a z ↔ ReflTransGen (Edge entities) a z := by
  unfold Leads
  simp

/-- A way need not come back to the name where it starts. -/
theorem leads_iff_eq_or_edge (hx : x ∉ avoid) : Leads entities avoid x z ↔
    z = x ∨ ∃ t, Edge entities x t ∧ Leads entities (avoid ++ [x]) t z := by
  constructor
  · rintro ⟨-, h⟩
    induction h with
    | refl => exact .inl rfl
    | @tail y z _ hyz ih =>
      by_cases hzx : z = x
      · exact .inl hzx
      · have hz : z ∉ avoid ++ [x] := by simp [hyz.2, hzx]
        rcases ih with rfl | ⟨t, ht, hty⟩
        · exact .inr ⟨z, hyz.1, leads_self hz⟩
        · exact .inr ⟨t, ht, hty.tail hyz.1 hz⟩
  · rintro (rfl | ⟨t, ht, htz⟩)
    · exact leads_self hx
    · exact .head hx ht (htz.mono (List.subset_append_left _ _))

/-- It makes no difference whether names that do not lead to the end are avoided. -/
theorem leads_iff_of_dead (hsub : avoid ⊆ avoid')
    (hdead : ∀ w ∈ avoid', w ∉ avoid → ¬ Leads entities avoid w z) :
    Leads entities avoid' a z ↔ Leads entities avoid a z := by
  refine ⟨fun h => h.mono hsub, ?_⟩
  rintro ⟨ha, h⟩
  have halive : ∀ w, Leads entities avoid w z → w ∉ avoid' := fun w hw hw' =>
    hdead w hw' hw.1 hw
  induction h using ReflTransGen.head_induction_on with
  | refl => exact leads_self (halive z (leads_self ha))
  | @head a t hat htz ih =>
    have ht : Leads entities avoid t z := ⟨hat.2, htz⟩
    exact .head (halive a (ht.head ha hat.1)) hat.1 (ih hat.2)

/-! ## First ways -/

/-- The list is the first way to the name at its end. -/
inductive FirstWay (entities : List Entity) : List String → List String → String → Prop
  | here {avoid : List String} {z : String} : z ∉ avoid → FirstWay entities avoid [z] z
  | step {avoid before after rest : List String} {x y z : String} : x ∉ avoid →
      targets entities x = before ++ y :: after →
      (∀ t ∈ before, ¬ Leads entities (avoid ++ [x]) t z) →
      FirstWay entities (avoid ++ [x]) (y :: rest) z → FirstWay entities avoid (x :: y :: rest) z

theorem firstWay_cons_iff : FirstWay entities avoid (x :: way) z ↔ x ∉ avoid ∧
    (way = [] ∧ z = x ∨ ∃ before y after rest, way = y :: rest ∧
      targets entities x = before ++ y :: after ∧
      (∀ t ∈ before, ¬ Leads entities (avoid ++ [x]) t z) ∧
      FirstWay entities (avoid ++ [x]) (y :: rest) z) := by
  constructor
  · intro h
    cases h with
    | here hz => exact ⟨hz, .inl ⟨rfl, rfl⟩⟩
    | step hx hsplit hbefore hrest =>
      exact ⟨hx, .inr ⟨_, _, _, _, rfl, hsplit, hbefore, hrest⟩⟩
  · rintro ⟨hx, ⟨rfl, rfl⟩ | ⟨before, y, after, rest, rfl, hsplit, hbefore, hrest⟩⟩
    · exact .here hx
    · exact .step hx hsplit hbefore hrest

theorem FirstWay.head_not_mem (h : FirstWay entities avoid (x :: rest) z) : x ∉ avoid :=
  (firstWay_cons_iff.1 h).1

theorem FirstWay.not_mem (h : FirstWay entities avoid way z) : ∀ w ∈ way, w ∉ avoid := by
  induction h with
  | here hz => simpa using hz
  | step hx _ _ _ ih =>
    intro w hw
    rcases List.mem_cons.1 hw with rfl | hw
    · exact hx
    · exact fun h => ih w hw (List.mem_append_left _ h)

theorem FirstWay.nodup (h : FirstWay entities avoid way z) : way.Nodup := by
  induction h with
  | here => exact List.nodup_singleton _
  | step _ _ _ hrest ih =>
    exact List.nodup_cons.2 ⟨fun hx => hrest.not_mem _ hx (by simp), ih⟩

theorem FirstWay.getLast? (h : FirstWay entities avoid way z) : way.getLast? = some z := by
  induction h with
  | here => rfl
  | step _ _ _ _ ih => rw [List.getLast?_cons_cons, ih]

variable (hd : Distinct entities)

include hd

theorem FirstWay.isChain (h : FirstWay entities avoid way z) :
    List.IsChain (Edge entities) way := by
  induction h with
  | here => exact List.isChain_singleton _
  | step _ hsplit _ _ ih =>
    have he := (mem_targets_iff hd).1 (hsplit ▸ List.mem_append_right _ List.mem_cons_self)
    exact List.isChain_cons_cons.2 ⟨he, ih⟩

theorem FirstWay.leads (h : FirstWay entities avoid (x :: rest) z) :
    Leads entities avoid x z := by
  generalize hway : x :: rest = way at h
  induction h generalizing x rest with
  | here hz =>
    obtain ⟨rfl, -⟩ := List.cons.inj hway
    exact leads_self hz
  | step hx hsplit _ _ ih =>
    obtain ⟨rfl, -⟩ := List.cons.inj hway
    have he := (mem_targets_iff hd).1 (hsplit ▸ List.mem_append_right _ List.mem_cons_self)
    exact .head hx he ((ih rfl).mono (List.subset_append_left _ _))

/-- Where the end can be reached, there is a first way to it. -/
theorem exists_firstWay (h : Leads entities avoid x z) :
    ∃ rest, FirstWay entities avoid (x :: rest) z := by
  classical
  -- each step leaves one entity fewer to go to
  induction hn : ((entities.map (·.name)).filter (· ∉ avoid)).length using Nat.strong_induction_on
    generalizing avoid x with
  | _ n ih =>
    rcases (leads_iff_eq_or_edge h.1).1 h with rfl | ⟨t, ht, htz⟩
    · exact ⟨[], .here h.1⟩
    · have hfind : ((targets entities x).find?
          fun t => Leads entities (avoid ++ [x]) t z).isSome = true := by
        rw [List.find?_isSome]
        exact ⟨t, (mem_targets_iff hd).2 ht, by simpa using htz⟩
      obtain ⟨y, hy⟩ := Option.isSome_iff_exists.1 hfind
      obtain ⟨hyz, before, after, hsplit, hbefore⟩ := List.find?_eq_some_iff_append.1 hy
      have hless : ((entities.map (·.name)).filter (· ∉ avoid ++ [x])).length < n := by
        have hfilter : (entities.map (·.name)).filter (· ∉ avoid ++ [x]) =
            ((entities.map (·.name)).filter (· ∉ avoid)).filter (· ≠ x) := by
          rw [List.filter_filter]
          refine List.filter_congr fun w _ => ?_
          simp [and_comm]
        rw [hfilter, ← hn, List.length_filter_lt_length_iff_exists]
        exact ⟨x, List.mem_filter.2 ⟨ht.mem_names, by simpa using h.1⟩, by simp⟩
      obtain ⟨rest, hrest⟩ := ih _ hless (by simpa using hyz) rfl
      exact ⟨y :: rest, .step h.1 hsplit (fun t ht => by simpa using hbefore t ht) hrest⟩

/-- Avoiding names that do not lead to the end changes no first way. -/
theorem firstWay_iff_of_dead (hsub : avoid ⊆ avoid')
    (hdead : ∀ w ∈ avoid', w ∉ avoid → ¬ Leads entities avoid w z) :
    FirstWay entities avoid' way z ↔ FirstWay entities avoid way z := by
  induction way generalizing avoid avoid' with
  | nil => exact ⟨nofun, nofun⟩
  | cons x way ih =>
    have hsub' : avoid ++ [x] ⊆ avoid' ++ [x] :=
      List.append_subset_of_subset_of_subset (List.subset_append_of_subset_left _ hsub)
        (List.subset_append_right _ _)
    have hdead' : ∀ w ∈ avoid' ++ [x], w ∉ avoid ++ [x] →
        ¬ Leads entities (avoid ++ [x]) w z := by
      intro w hw hnot hlead
      simp only [List.mem_append, List.mem_singleton, not_or] at hw hnot
      exact hdead w (hw.resolve_right hnot.2) hnot.1
        (hlead.mono (List.subset_append_left _ _))
    have hx : FirstWay entities avoid (x :: way) z → x ∉ avoid' := fun h hx =>
      hdead x hx h.head_not_mem (h.leads hd)
    constructor
    · intro h
      obtain ⟨hnot, h⟩ := firstWay_cons_iff.1 h
      refine firstWay_cons_iff.2 ⟨fun hx => hnot (hsub hx), ?_⟩
      rcases h with h | ⟨before, y, after, rest, rfl, hsplit, hbefore, hrest⟩
      · exact .inl h
      · exact .inr ⟨before, y, after, rest, rfl, hsplit,
          fun t ht => mt (leads_iff_of_dead hsub' hdead').2 (hbefore t ht),
          (ih hsub' hdead').1 hrest⟩
    · intro h
      refine firstWay_cons_iff.2 ⟨hx h, ?_⟩
      rcases
        (firstWay_cons_iff.1 h).2 with h | ⟨before, y, after, rest, rfl, hsplit, hbefore, hrest⟩
      · exact .inl h
      · exact .inr ⟨before, y, after, rest, rfl, hsplit,
          fun t ht => mt (leads_iff_of_dead hsub' hdead').1 (hbefore t ht),
          (ih hsub' hdead').2 hrest⟩

end EntityCycle

end Blueprint
