import Blueprint.Proofs.EntityCycles

/-!
# Circles that the search misses

The search does not find every circle. A circle is found exactly if, read from one of its names on,
it is the end of a first way (`isFound_iff`). Of three entities that all refer to each other, one of
the two circles through all three may not be, as each of its references is on another circle that
was met before (`crossed_missed`).

A circle with a reference of its own, which is on no other circle, is always found
(`isFound_of_hasOwnArc`). The order of the entities makes no difference to what is found
(`mem_entityCycles_iff_of_perm`). The order of their fields does, though not to whether a circle
with a reference of its own is found.
-/

namespace Blueprint

namespace EntityCycle

open List (IsRotated)

variable {entities others : List Entity} {a b z : String} {avoid way c d : List String}

/-- The circle is found, read from its smallest name on. -/
def IsFound (entities : List Entity) (c : List String) : Prop :=
  ∃ r ∈ entityCycles entities, c ~r r ∧ StartsSmallest r

/-- The circle has a reference that is on no other circle. -/
def HasOwnArc (entities : List Entity) (c : List String) : Prop :=
  ∃ a b, (a, b) ∈ arcs c ∧ ∀ d, IsCircle entities d → (a, b) ∈ arcs d → c ~r d

/-- Fields in another order. -/
def Rearranged (e e' : Entity) : Prop :=
  e' = { e with fields := e'.fields } ∧ e.fields.Perm e'.fields

/-! ## Which circles are found -/

theorem isFound_iff (hd : Distinct entities) (hc : IsCircle entities c) :
    IsFound entities c ↔ ∃ front d z, c ~r d ∧ FirstWay entities [] (front ++ d) z := by
  constructor
  · rintro ⟨r, hr, hrot, -⟩
    obtain ⟨way, z, hway, t, ht, -, rfl⟩ := (mem_entityCycles_iff hd).1 hr
    refine ⟨way.takeWhile (· != t), way.dropWhile (· != t), z, ?_, ?_⟩
    · exact hrot.trans (isRotated_rotate _).symm
    · rwa [List.takeWhile_append_dropWhile]
  · rintro ⟨front, d, z, hrot, hway⟩
    have hcircle := hc.of_isRotated hrot
    refine ⟨rotate d, ?_, hrot.trans (isRotated_rotate d), startsSmallest_rotate d⟩
    cases d with
    | nil => exact absurd hcircle.two_le (by simp)
    | cons a d =>
      have hlast : (a :: d).getLast? = some z := by
        rw [← hway.getLast?, List.getLast?_append_of_ne_nil _ (List.cons_ne_nil a d)]
      have hedge := hcircle.edge z a (mem_arcs_of_getLast? hlast)
      have hnot : a ∉ front := fun ha =>
        (List.nodup_append.1 hway.nodup).2.2 a ha a List.mem_cons_self rfl
      have hdrop : (front ++ a :: d).dropWhile (· != a) = a :: d := by
        rw [List.dropWhile_append_of_pos, List.dropWhile_cons_of_neg (by simp)]
        intro x hx
        have hne : x ≠ a := fun e => hnot (e ▸ hx)
        simpa using hne
      exact (mem_entityCycles_iff hd).2 ⟨front ++ a :: d, z, hway, a, by simp, hedge, by rw [hdrop]⟩

theorem isFound_of_hasOwnArc (hd : Distinct entities) (hc : IsCircle entities c)
    (hown : HasOwnArc entities c) : IsFound entities c := by
  obtain ⟨a, b, hab, honly⟩ := hown
  obtain ⟨r, hr, habr⟩ :=
    exists_mem_entityCycles_of_leads hd (hc.edge a b hab) (hc.reaches hab)
  obtain ⟨hcircle, hsmallest⟩ := isCircle_of_mem_entityCycles hd hr
  exact ⟨r, hr, honly r hcircle habr, hsmallest⟩

/-- A circle that is found and starts with its smallest name is listed just so. -/
theorem IsFound.mem (hd : Distinct entities) (h : IsFound entities c) (hs : StartsSmallest c) :
    c ∈ entityCycles entities := by
  obtain ⟨r, hr, hrot, hs'⟩ := h
  have hnodup := (isCircle_of_mem_entityCycles hd hr).1.nodup
  rwa [eq_of_isRotated_of_startsSmallest (hrot.nodup_iff.2 hnodup) hrot hs hs']

/-! ## The order of entities -/

theorem distinct_iff_of_perm (h : entities.Perm others) : Distinct others ↔ Distinct entities :=
  (h.map Entity.name).nodup_iff.symm

theorem targets_eq_of_perm (hd : Distinct entities) (h : entities.Perm others) :
    targets others = targets entities := by
  funext a
  have hfind : others.reverse.find? (·.name == a) = entities.reverse.find? (·.name == a) := by
    ext e
    rw [find?_eq_some_iff ((distinct_iff_of_perm h).2 hd), find?_eq_some_iff hd, h.mem_iff]
  unfold targets
  rw [hfind]

theorem edge_eq_of_perm (h : entities.Perm others) : Edge others = Edge entities := by
  funext a b
  unfold Edge
  simp only [h.mem_iff]

theorem FirstWay.of_perm (hd : Distinct entities) (h : entities.Perm others)
    (hway : FirstWay entities avoid way z) : FirstWay others avoid way z := by
  induction hway with
  | here hz => exact .here hz
  | step hx hsplit hbefore _ ih =>
    refine .step hx (by rw [targets_eq_of_perm hd h, hsplit]) (fun t ht => ?_) ih
    unfold Leads
    rw [edge_eq_of_perm h]
    exact hbefore t ht

theorem mem_entityCycles_of_perm (hd : Distinct entities) (h : entities.Perm others)
    (hc : c ∈ entityCycles entities) : c ∈ entityCycles others := by
  obtain ⟨way, z, hway, t, ht, he, e⟩ := (mem_entityCycles_iff hd).1 hc
  refine (mem_entityCycles_iff ((distinct_iff_of_perm h).2 hd)).2
    ⟨way, z, hway.of_perm hd h, t, ht, ?_, e⟩
  rwa [edge_eq_of_perm h]

/-- However the entities are ordered, the same circles are found. -/
theorem mem_entityCycles_iff_of_perm (hd : Distinct entities) (h : entities.Perm others) :
    c ∈ entityCycles others ↔ c ∈ entityCycles entities :=
  ⟨mem_entityCycles_of_perm ((distinct_iff_of_perm h).2 hd) h.symm, mem_entityCycles_of_perm hd h⟩

/-! ## The order of fields -/

section

variable (h : List.Forall₂ Rearranged entities others)

include h

theorem distinct_of_rearranged (hd : Distinct entities) : Distinct others := by
  have hnames : others.map (·.name) = entities.map (·.name) := by
    induction h with
    | nil => rfl
    | cons he _ ih =>
      rw [List.map_cons, List.map_cons, ih (List.nodup_cons.1 hd).2, he.1]
  unfold Distinct
  rwa [hnames]

theorem edge_eq_of_rearranged : Edge others = Edge entities := by
  funext a b
  have hexists : (∃ e ∈ others, e.name = a ∧ ∃ f ∈ e.fields, f.RefersTo b) ↔
      ∃ e ∈ entities, e.name = a ∧ ∃ f ∈ e.fields, f.RefersTo b := by
    induction h with
    | nil => rfl
    | @cons e e' _ _ he _ ih =>
      have hname : e'.name = e.name := by rw [he.1]
      simp only [List.exists_mem_cons_iff, ih, hname, he.2.mem_iff]
  unfold Edge
  rw [hexists]

theorem isCircle_iff_of_rearranged : IsCircle others c ↔ IsCircle entities c := by
  have he := edge_eq_of_rearranged h
  exact ⟨fun hc => ⟨hc.two_le, hc.nodup, he ▸ hc.edge⟩,
    fun hc => ⟨hc.two_le, hc.nodup, he ▸ hc.edge⟩⟩

/-- However the fields are ordered, a circle with a reference of its own is found. -/
theorem mem_entityCycles_iff_of_rearranged (hd : Distinct entities)
    (hown : HasOwnArc entities c) : c ∈ entityCycles others ↔ c ∈ entityCycles entities := by
  have hd' := distinct_of_rearranged h hd
  have hown' : HasOwnArc others c := by
    obtain ⟨a, b, hab, honly⟩ := hown
    exact ⟨a, b, hab, fun d hcircle => honly d ((isCircle_iff_of_rearranged h).1 hcircle)⟩
  constructor
  · intro hc
    obtain ⟨hcircle, hs⟩ := isCircle_of_mem_entityCycles hd' hc
    have hcircle' := (isCircle_iff_of_rearranged h).1 hcircle
    exact (isFound_of_hasOwnArc hd hcircle' hown).mem hd hs
  · intro hc
    obtain ⟨hcircle, hs⟩ := isCircle_of_mem_entityCycles hd hc
    have hcircle' := (isCircle_iff_of_rearranged h).2 hcircle
    exact (isFound_of_hasOwnArc hd' hcircle' hown').mem hd' hs

end

/-! ## Main result -/

/-- A circle is found exactly if, read from one of its names on, it is the end of a first way. It is
if one of its references is on no other circle. What is found does not depend on the order of the
entities, and on the order of their fields only for circles without a reference of their own. -/
theorem entityCycles_complete_iff (hd : Distinct entities) :
    (∀ c, IsCircle entities c →
      (IsFound entities c ↔ ∃ front d z, c ~r d ∧ FirstWay entities [] (front ++ d) z)) ∧
      (∀ c, IsCircle entities c → HasOwnArc entities c → IsFound entities c) ∧
      (∀ others, entities.Perm others →
        ∀ c, c ∈ entityCycles others ↔ c ∈ entityCycles entities) ∧
      ∀ others, List.Forall₂ Rearranged entities others → ∀ c, HasOwnArc entities c →
        (c ∈ entityCycles others ↔ c ∈ entityCycles entities) :=
  ⟨fun _ => isFound_iff hd, fun _ => isFound_of_hasOwnArc hd,
    fun _ h _ => mem_entityCycles_iff_of_perm hd h,
    fun _ h _ => mem_entityCycles_iff_of_rearranged h hd⟩

/-- Two circles that share the reference of the first entity to the second. -/
def sharing : List Entity :=
  [referring "A" ["B"], referring "B" ["A", "C"], referring "C" ["A"]]

theorem entityCycles_complete_iff_sharing :
    Distinct sharing ∧ IsCircle sharing ["A", "B", "C"] ∧ HasOwnArc sharing ["A", "B", "C"] ∧
      IsFound sharing ["A", "B", "C"] ∧
      (["A", "B", "C"] ∈ entityCycles sharing.reverse ↔
        ["A", "B", "C"] ∈ entityCycles sharing) := by
  have hd : Distinct sharing := by decide
  have hcircle : IsCircle sharing ["A", "B", "C"] := (isCircle_iff hd).2 (by decide)
  have hnext : ∀ {a x : String}, Edge sharing a x → x ∈ targets sharing a :=
    (mem_targets_iff hd).2
  -- from the third entity, a circle can only go on to the first, and from there to the second
  have hown : HasOwnArc sharing ["A", "B", "C"] := by
    refine ⟨"B", "C", by decide, fun d hcircle' hbc => ?_⟩
    obtain ⟨l, hrot⟩ := exists_isRotated_of_mem_arcs hcircle'.nodup hbc (by decide)
    have hd' := hcircle'.of_isRotated hrot
    have hchain := (forall_mem_arcs_cons_iff "B" ("C" :: l)).1 hd'.edge
    have hc : targets sharing "C" = ["A"] := by decide
    have ha : targets sharing "A" = ["B"] := by decide
    simp only [List.cons_append, List.isChain_cons_cons] at hchain
    have habc : ["A", "B", "C"] ~r ["B", "C", "A"] := ⟨1, rfl⟩
    match l with
    | [] =>
      have hback := hnext (List.isChain_cons_cons.1 hchain.2).1
      rw [hc] at hback
      exact absurd hback (by decide)
    | [x] =>
      have hx := hnext (List.isChain_cons_cons.1 hchain.2).1
      rw [hc, List.mem_singleton] at hx
      subst hx
      exact habc.trans hrot.symm
    | x :: y :: l =>
      have hx := hnext (List.isChain_cons_cons.1 hchain.2).1
      rw [hc, List.mem_singleton] at hx
      subst hx
      have hy := hnext (List.isChain_cons_cons.1 (List.isChain_cons_cons.1 hchain.2).2).1
      rw [ha, List.mem_singleton] at hy
      subst hy
      exact absurd hd'.nodup (by simp)
  obtain ⟨-, hfound, hperm, -⟩ := entityCycles_complete_iff hd
  exact ⟨hd, hcircle, hown, hfound _ hcircle hown, hperm _ (List.reverse_perm _).symm _⟩

/-- Three entities that refer to each other. -/
def crossed : List Entity :=
  [referring "A" ["B", "C"], referring "B" ["C", "A"], referring "C" ["A", "B"]]

/-- The same entities, with the fields of the second one in another order. -/
def crossedInOrder : List Entity :=
  [referring "A" ["B", "C"], referring "B" ["A", "C"], referring "C" ["A", "B"]]

/-- The circle the other way round is not found, unless the fields stand in another order. -/
theorem crossed_missed :
    Distinct crossed ∧ IsCircle crossed ["A", "C", "B"] ∧ StartsSmallest ["A", "C", "B"] ∧
      ["A", "C", "B"] ∉ entityCycles crossed ∧ List.Forall₂ Rearranged crossed crossedInOrder ∧
      ["A", "C", "B"] ∈ entityCycles crossedInOrder := by
  have hd : Distinct crossed := by decide
  refine ⟨hd, (isCircle_iff hd).2 (by decide), ?_, by decide, ?_, by decide⟩
  · intro first hfirst
    obtain rfl : "A" = first := by simpa using hfirst
    decide
  · exact .cons ⟨rfl, .refl _⟩ (.cons ⟨rfl, .swap _ _ _⟩ (.cons ⟨rfl, .refl _⟩ .nil))

end EntityCycle

end Blueprint
