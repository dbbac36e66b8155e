import Blueprint.Proofs.FirstWays
import Mathlib.Data.List.Induction
import Mathlib.Data.List.Perm.Subperm

/-!
# The search for circles of references

From each entity the search follows references depth first, and reads a circle off its path whenever
a reference leads back to the path.

1. The path repeats no name and each of its names refers to the next (`IsWay`), so what is read off
   is a circle (`IsWay.isCircle`), and the bound is never used up (`IsWay.length_le`).
2. A search comes to exactly the names that can be reached without those followed before, and to
   each of them by the first way; every reference from there back to the path gives a circle
   (`Search.Explores`, `walk_explores`).
3. So a circle is found exactly if a first way runs into it and around it (`mem_entityCycles_iff`).
4. If the target of a reference leads back to its source, then the first way from the target to the
   source is closed by the reference, and the reference lies on a circle that is found
   (`exists_mem_entityCycles_of_leads`).
-/

namespace Blueprint

namespace EntityCycle

open List (IsRotated)

variable {entities : List Entity} {a b name next start t y z : String}
  {path names c : List String} {s s' s'' : Search} {bound : Nat}

/-! ## Ways -/

/-- The path leads to the name and comes by no name twice. -/
structure IsWay (entities : List Entity) (path : List String) (name : String) : Prop where
  nodup : path.Nodup
  chain : List.IsChain (Edge entities) (path ++ [name])

theorem isWay_start (name : String) : IsWay entities [] name := ⟨List.nodup_nil, by simp⟩

theorem IsWay.step (h : IsWay entities path name) (hnot : name ∉ path)
    (he : Edge entities name next) : IsWay entities (path ++ [name]) next where
  nodup := List.nodup_append.2 ⟨h.nodup, List.nodup_singleton name, by
    intro x hx y hy e
    rw [List.mem_singleton.1 hy] at e
    exact hnot (e ▸ hx)⟩
  chain := by
    rw [List.append_assoc, List.singleton_append, List.isChain_append_cons_cons]
    exact ⟨h.chain, he, by simp⟩

/-- All names of a path are names of entities, so it is no longer than there are entities. -/
theorem IsWay.length_le (h : IsWay entities path name) : path.length ≤ entities.length := by
  have hsub : path ⊆ entities.map (·.name) := by
    intro x hx
    obtain ⟨front, back, rfl⟩ := List.append_of_mem hx
    have hchain := h.chain
    rw [List.append_assoc] at hchain
    have hback : List.IsChain (Edge entities) (x :: (back ++ [name])) := hchain.right_of_append
    cases back with
    | nil => exact (List.isChain_cons_cons.1 hback).1.mem_names
    | cons y back => exact (List.isChain_cons_cons.1 hback).1.mem_names
  simpa using (List.subperm_of_subset h.nodup hsub).length_le

/-- Where a path comes back to one of its names, the part from there on is a circle. -/
theorem IsWay.isCircle (h : IsWay entities path name) (hmem : name ∈ path) :
    IsCircle entities (path.dropWhile (· != name)) := by
  obtain ⟨rest, hrest⟩ := exists_dropWhile_eq_cons hmem
  have hsuffix : name :: rest <:+ path := hrest ▸ List.dropWhile_suffix _
  rw [hrest]
  obtain ⟨front, rfl⟩ := hsuffix
  refine isCircle_of_isChain (List.nodup_append.1 h.nodup).2.1 ?_
  have hchain := h.chain
  rw [List.append_assoc] at hchain
  exact hchain.right_of_append

/-! ## What a search adds -/

/-- A reference of the last name leads back to the path, and the circle is read off from there. -/
def Closes (entities : List Entity) (path : List String) (z : String) (c : List String) : Prop :=
  ∃ t ∈ path, Edge entities z t ∧ c = rotate (path.dropWhile (· != t))

/-- The second search has gone on from the first, to a name behind the path. It has followed what
can be reached from there, and found the circles that the first ways close. -/
structure Search.Explores (s : Search) (entities : List Entity) (path : List String) (name : String)
    (s' : Search) : Prop where
  followed : ∀ z, z ∈ s'.followed ↔ z ∈ s.followed ∨ Leads entities s.followed name z
  cycles : ∀ c, c ∈ s'.cycles ↔ c ∈ s.cycles ∨
    (name ∈ path ∧ c = rotate (path.dropWhile (· != name))) ∨
    ∃ rest z, FirstWay entities s.followed (name :: rest) z ∧
      Closes entities (path ++ name :: rest) z c

/-- The second search has gone on from the first, to one name after another behind the path. -/
structure Search.ExploresAll (s : Search) (entities : List Entity) (path names : List String)
    (s' : Search) : Prop where
  followed : ∀ z, z ∈ s'.followed ↔ z ∈ s.followed ∨ ∃ t ∈ names, Leads entities s.followed t z
  cycles : ∀ c, c ∈ s'.cycles ↔ c ∈ s.cycles ∨
    (∃ t ∈ names, t ∈ path ∧ c = rotate (path.dropWhile (· != t))) ∨
    ∃ before y after rest z, names = before ++ y :: after ∧
      (∀ t ∈ before, ¬ Leads entities s.followed t z) ∧
      FirstWay entities s.followed (y :: rest) z ∧ Closes entities (path ++ y :: rest) z c

theorem Search.mem_cycles_found_iff (s : Search) (d : List String) :
    c ∈ (s.found d).cycles ↔ c ∈ s.cycles ∨ c = d := by
  unfold found
  by_cases h : s.cycles.contains d = true
  · rw [if_pos h]
    have hd : d ∈ s.cycles := by simpa using h
    exact ⟨.inl, fun hc => hc.elim id fun e => e ▸ hd⟩
  · rw [if_neg h, List.mem_append, List.mem_singleton]

theorem Search.followed_found (s : Search) (d : List String) :
    (s.found d).followed = s.followed := by
  unfold found
  split <;> rfl

/-- Back on its path, a search goes nowhere, and reads a circle off. -/
theorem Search.explores_found (hsub : path ⊆ s.followed) (hmem : name ∈ path) :
    s.Explores entities path name (s.found (rotate (path.dropWhile (· != name)))) where
  followed z := by
    rw [s.followed_found]
    exact ⟨.inl, fun h => h.elim id fun hl => absurd (hsub hmem) hl.1⟩
  cycles c := by
    rw [s.mem_cycles_found_iff]
    constructor
    · rintro (hc | rfl)
      · exact .inl hc
      · exact .inr (.inl ⟨hmem, rfl⟩)
    · rintro (hc | ⟨-, rfl⟩ | ⟨rest, z, hway, -⟩)
      · exact .inl hc
      · exact .inr rfl
      · exact absurd (hsub hmem) hway.head_not_mem

/-- A name that has been followed before is passed by. -/
theorem Search.explores_self (hname : name ∈ s.followed) (hnot : name ∉ path) :
    s.Explores entities path name s where
  followed z := ⟨.inl, fun h => h.elim id fun hl => absurd hname hl.1⟩
  cycles c := by
    refine ⟨.inl, ?_⟩
    rintro (hc | ⟨hmem, -⟩ | ⟨rest, z, hway, -⟩)
    · exact hc
    · exact absurd hmem hnot
    · exact absurd hname hway.head_not_mem

theorem Search.exploresAll_nil (s : Search) : s.ExploresAll entities path [] s where
  followed z := by simp
  cycles c := by simp

namespace Search.ExploresAll

theorem subset (h : s.ExploresAll entities path names s') : s.followed ⊆ s'.followed :=
  fun z hz => (h.followed z).2 (.inl hz)

/-- What is new after a search does not lead to what could not be reached by it. -/
theorem dead (h : s.ExploresAll entities path names s')
    (hz : ∀ t ∈ names, ¬ Leads entities s.followed t z) :
    ∀ w ∈ s'.followed, w ∉ s.followed → ¬ Leads entities s.followed w z := by
  intro w hw hnot hlead
  obtain ⟨t, ht, htw⟩ := ((h.followed w).1 hw).resolve_left hnot
  exact hz t ht (htw.trans hlead)

theorem leads_iff (h : s.ExploresAll entities path names s') :
    Leads entities s'.followed a z ↔
      (∀ t ∈ names, ¬ Leads entities s.followed t z) ∧ Leads entities s.followed a z := by
  constructor
  · intro hl
    have hz : ∀ t ∈ names, ¬ Leads entities s.followed t z := fun t ht htz =>
      hl.end_not_mem ((h.followed z).2 (.inr ⟨t, ht, htz⟩))
    exact ⟨hz, (leads_iff_of_dead h.subset (h.dead hz)).1 hl⟩
  · rintro ⟨hz, hl⟩
    exact (leads_iff_of_dead h.subset (h.dead hz)).2 hl

theorem firstWay_iff (hd : Distinct entities) (h : s.ExploresAll entities path names s')
    {rest : List String} :
    FirstWay entities s'.followed (a :: rest) z ↔
      (∀ t ∈ names, ¬ Leads entities s.followed t z) ∧
        FirstWay entities s.followed (a :: rest) z := by
  constructor
  · intro hway
    have hz := (h.leads_iff.1 (hway.leads hd)).1
    exact ⟨hz, (firstWay_iff_of_dead hd h.subset (h.dead hz)).1 hway⟩
  · rintro ⟨hz, hway⟩
    exact (firstWay_iff_of_dead hd h.subset (h.dead hz)).2 hway

/-- A search of several names goes on to one more. -/
theorem concat (hd : Distinct entities) (h : s.ExploresAll entities path names s')
    (h' : s'.Explores entities path y s'') : s.ExploresAll entities path (names ++ [y]) s'' where
  followed z := by
    rw [h'.followed, h.followed, h.leads_iff]
    simp only [List.mem_append, List.mem_singleton, or_and_right, exists_or, exists_eq_left]
    by_cases hz : ∃ t ∈ names, Leads entities s.followed t z
    · exact iff_of_true (.inl (.inr hz)) (.inr (.inl hz))
    · push Not at hz
      tauto
  cycles c := by
    rw [h'.cycles, h.cycles]
    simp only [h.firstWay_iff hd]
    constructor
    · rintro ((hc | ⟨t, ht, hback⟩ | ⟨before, x, after, rest, z, rfl, hway⟩) | ⟨hmem, rfl⟩ |
        ⟨rest, z, ⟨hz, hway⟩, hclose⟩)
      · exact .inl hc
      · exact .inr (.inl ⟨t, List.mem_append_left _ ht, hback⟩)
      · exact .inr (.inr ⟨before, x, after ++ [y], rest, z, by simp, hway⟩)
      · exact .inr (.inl ⟨y, by simp, hmem, rfl⟩)
      · exact .inr (.inr ⟨names, y, [], rest, z, rfl, hz, hway, hclose⟩)
    · rintro (hc | ⟨t, ht, hback⟩ | ⟨before, x, after, rest, z, hsplit, hway⟩)
      · exact .inl (.inl hc)
      · rcases List.mem_append.1 ht with ht | ht
        · exact .inl (.inr (.inl ⟨t, ht, hback⟩))
        · obtain rfl := List.mem_singleton.1 ht
          exact .inr (.inl hback)
      · -- the name that the way starts with is one of the first names or the new one
        rcases List.eq_nil_or_concat after with rfl | ⟨after, last, rfl⟩
        · obtain ⟨rfl, hy⟩ := List.append_inj' hsplit rfl
          obtain rfl : y = x := by simpa using hy
          exact .inr (.inr ⟨rest, z, ⟨hway.1, hway.2.1⟩, hway.2.2⟩)
        · rw [List.concat_eq_append, ← List.cons_append, ← List.append_assoc] at hsplit
          obtain ⟨rfl, -⟩ := List.append_inj' hsplit rfl
          exact .inl (.inr (.inr ⟨before, x, after, rest, z, rfl, hway⟩))

/-- To explore a new name is to explore all that it refers to, with the name on the path. -/
theorem explores (hd : Distinct entities) (hname : name ∉ s.followed) (hnot : name ∉ path)
    (h : Search.ExploresAll { s with followed := s.followed ++ [name] } entities (path ++ [name])
      (targets entities name) s') : s.Explores entities path name s' where
  followed z := by
    rw [h.followed, leads_iff_eq_or_edge hname]
    simp only [mem_targets_iff hd, List.mem_append, List.mem_singleton, or_assoc]
  cycles c := by
    rw [h.cycles]
    simp only [mem_targets_iff hd, List.append_assoc, List.singleton_append]
    constructor
    · rintro (hc | ⟨t, ht, hback, rfl⟩ | ⟨before, y, after, rest, z, hsplit, hbefore, hway, hclose⟩)
      · exact .inl hc
      · exact .inr (.inr ⟨[], name, .here hname, t, hback, ht, rfl⟩)
      · exact .inr (.inr ⟨y :: rest, z, .step hname hsplit hbefore hway, hclose⟩)
    · rintro (hc | ⟨hmem, -⟩ | ⟨rest, z, hway, hclose⟩)
      · exact .inl hc
      · exact absurd hmem hnot
      · rcases (firstWay_cons_iff.1 hway).2 with
          ⟨rfl, rfl⟩ | ⟨before, y, after, rest, rfl, hsplit, hbefore, hway⟩
        · obtain ⟨t, ht, he, rfl⟩ := hclose
          exact .inr (.inl ⟨t, he, ht, rfl⟩)
        · exact .inr (.inr ⟨before, y, after, rest, z, hsplit, hbefore, hway, hclose⟩)

end Search.ExploresAll

/-- A search with a bound for the entities that are not on its path leaves nothing out. -/
theorem walk_explores (hd : Distinct entities) (hway : IsWay entities path name)
    (hbound : entities.length < path.length + bound) (hsub : path ⊆ s.followed) :
    s.Explores entities path name (walk entities bound path s name) := by
  induction bound generalizing path s name with
  | zero => exact absurd hway.length_le (by omega)
  | succ bound ih =>
    unfold walk
    by_cases hpath : path.contains name = true
    · rw [if_pos hpath]
      exact Search.explores_found hsub (by simpa using hpath)
    · rw [if_neg hpath]
      have hnot : name ∉ path := by simpa using hpath
      by_cases hfollowed : s.followed.contains name = true
      · rw [if_pos hfollowed]
        exact Search.explores_self (by simpa using hfollowed) hnot
      · rw [if_neg hfollowed]
        refine Search.ExploresAll.explores hd (by simpa using hfollowed) hnot ?_
        have hedge : ∀ t ∈ targets entities name, Edge entities name t := fun t =>
          (mem_targets_iff hd).1
        generalize targets entities name = names at hedge
        induction names using List.reverseRecOn with
        | nil => exact Search.exploresAll_nil _
        | append_singleton names next ih' =>
          rw [List.foldl_concat]
          have hfront := ih' fun t ht => hedge t (List.mem_append_left _ ht)
          refine hfront.concat hd (ih (hway.step hnot (hedge next (by simp))) ?_ ?_)
          · rw [List.length_append, List.length_singleton]
            omega
          · intro x hx
            refine hfront.subset ?_
            rcases List.mem_append.1 hx with hx | hx
            · exact List.mem_append_left _ (hsub hx)
            · exact List.mem_append_right _ hx

/-! ## What is found -/

/-- A circle is found exactly if a first way runs into it and around it. -/
theorem mem_entityCycles_iff (hd : Distinct entities) :
    c ∈ entityCycles entities ↔
      ∃ way z, FirstWay entities [] way z ∧ Closes entities way z c := by
  have hfold : ∀ (es : List Entity) (cycles : List (List String)),
      c ∈ es.foldl (fun cycles e =>
        (walk entities (entities.length + 1) [] { cycles } e.name).cycles) cycles ↔
        c ∈ cycles ∨ ∃ e ∈ es, ∃ rest z,
          FirstWay entities [] (e.name :: rest) z ∧ Closes entities (e.name :: rest) z c := by
    intro es
    induction es with
    | nil => simp
    | cons e es ih =>
      intro cycles
      have hwalk : Search.Explores { cycles } entities [] e.name
          (walk entities (entities.length + 1) [] { cycles } e.name) :=
        walk_explores hd (isWay_start e.name) (by simp) (List.nil_subset _)
      rw [List.foldl_cons, ih, hwalk.cycles]
      simp [or_assoc]
  unfold entityCycles
  rw [hfold]
  constructor
  · rintro (hc | ⟨e, -, rest, z, hfound⟩)
    · cases hc
    · exact ⟨e.name :: rest, z, hfound⟩
  · rintro ⟨way, z, hway, hclose⟩
    obtain ⟨t, -, hzt, -⟩ := id hclose
    have hchain := hway.isChain hd
    -- where a way starts there is a reference, to the next name or back
    have hstart : ∃ x rest, way = x :: rest ∧ x ∈ entities.map (·.name) := by
      cases hway with
      | here => exact ⟨z, [], rfl, hzt.mem_names⟩
      | step => exact ⟨_, _, rfl, (List.isChain_cons_cons.1 hchain).1.mem_names⟩
    obtain ⟨x, rest, rfl, hx⟩ := hstart
    obtain ⟨e, he, rfl⟩ := List.mem_map.1 hx
    exact .inr ⟨e, he, rest, z, hway, hclose⟩

theorem FirstWay.isWay (hd : Distinct entities) {way : List String}
    (h : FirstWay entities [] way z) (he : Edge entities z t) : IsWay entities way t where
  nodup := h.nodup
  chain := by
    refine (h.isChain hd).append (List.isChain_singleton t) ?_
    rw [h.getLast?]
    intro x hx y hy
    obtain rfl := Option.some.inj hx
    obtain rfl := Option.some.inj hy
    exact he

theorem isCircle_of_mem_entityCycles (hd : Distinct entities) (h : c ∈ entityCycles entities) :
    IsCircle entities c ∧ StartsSmallest c := by
  obtain ⟨way, z, hway, t, ht, hzt, rfl⟩ := (mem_entityCycles_iff hd).1 h
  have hcircle := (hway.isWay hd hzt).isCircle ht
  exact ⟨hcircle.of_isRotated (isRotated_rotate _), startsSmallest_rotate _⟩

/-- If the target of a reference leads back to its source, the reference lies on a circle that is
found. -/
theorem exists_mem_entityCycles_of_leads (hd : Distinct entities) (hab : Edge entities a b)
    (hba : Relation.ReflTransGen (Edge entities) b a) :
    ∃ c ∈ entityCycles entities, (a, b) ∈ arcs c := by
  obtain ⟨rest, hway⟩ := exists_firstWay hd (leads_nil_iff.2 hba)
  have hwhole : (b :: rest).dropWhile (· != b) = b :: rest := by
    rw [List.dropWhile_cons_of_neg (by simp)]
  refine ⟨_, (mem_entityCycles_iff hd).2 ⟨_, a, hway, b, List.mem_cons_self, hab, rfl⟩, ?_⟩
  rw [hwhole, mem_arcs_iff_of_isRotated (isRotated_rotate _)]
  exact mem_arcs_of_getLast? hway.getLast?

/-! ## No circle is found twice -/

theorem Search.nodup_found (h : s.cycles.Nodup) (d : List String) : (s.found d).cycles.Nodup := by
  unfold found
  by_cases hknown : s.cycles.contains d = true
  · rwa [if_pos hknown]
  · rw [if_neg hknown]
    have hnew : d ∉ s.cycles := by simpa using hknown
    exact List.concat_eq_append ▸ List.Nodup.concat hnew h

theorem nodup_walk (h : s.cycles.Nodup) : (walk entities bound path s name).cycles.Nodup := by
  induction bound generalizing path s name with
  | zero => exact h
  | succ bound ih =>
    unfold walk
    split
    · exact Search.nodup_found h _
    · split
      · exact h
      · exact List.foldlRecOn (motive := fun s : Search => s.cycles.Nodup) _ _ h
          fun _ hs _ _ => ih hs

theorem nodup_entityCycles (entities : List Entity) : (entityCycles entities).Nodup :=
  List.foldlRecOn (motive := List.Nodup) entities _ List.nodup_nil
    fun _ hcycles _ _ => nodup_walk hcycles

/-- Two circles that are found are no rotations of one another. -/
theorem not_isRotated_of_ne (hd : Distinct entities) {d : List String}
    (hc : c ∈ entityCycles entities) (hd' : d ∈ entityCycles entities) (hne : c ≠ d) :
    ¬ c ~r d := by
  intro hrot
  obtain ⟨hcircle, hsmallest⟩ := isCircle_of_mem_entityCycles hd hc
  obtain ⟨-, hsmallest'⟩ := isCircle_of_mem_entityCycles hd hd'
  exact hne (eq_of_isRotated_of_startsSmallest hcircle.nodup hrot hsmallest hsmallest')

/-! ## Main result -/

/-- All that is found are circles, each read from its smallest name on, and no two of them are the
same or rotations of one another. A reference that lies on a circle, or on any way that comes back
to where it started, lies on a circle that is found. So nothing is found exactly if no way comes
back. -/
theorem entityCycles_cover (hd : Distinct entities) :
    (∀ c ∈ entityCycles entities, IsCircle entities c ∧ StartsSmallest c) ∧
      (entityCycles entities).Nodup ∧ (entityCycles entities).Pairwise (fun c d => ¬ c ~r d) ∧
      (∀ a b, (∃ c, IsCircle entities c ∧ (a, b) ∈ arcs c) →
        ∃ c ∈ entityCycles entities, (a, b) ∈ arcs c) ∧
      (∀ a b, Edge entities a b → Relation.ReflTransGen (Edge entities) b a →
        ∃ c ∈ entityCycles entities, (a, b) ∈ arcs c) ∧
      (entityCycles entities = [] ↔ ∀ a, ¬ Relation.TransGen (Edge entities) a a) := by
  have hcircle : ∀ c ∈ entityCycles entities, IsCircle entities c ∧ StartsSmallest c :=
    fun c => isCircle_of_mem_entityCycles hd
  have hnodup := nodup_entityCycles entities
  refine ⟨hcircle, hnodup, ?_, ?_, fun a b => exists_mem_entityCycles_of_leads hd, ?_⟩
  · exact hnodup.imp_of_mem fun hc hd' hne => not_isRotated_of_ne hd hc hd' hne
  · rintro a b ⟨c, hc, hab⟩
    exact exists_mem_entityCycles_of_leads hd (hc.edge a b hab) (hc.reaches hab)
  · rw [List.eq_nil_iff_forall_not_mem]
    constructor
    · intro hnone a ha
      obtain ⟨b, hab, hba⟩ := Relation.TransGen.head'_iff.1 ha
      obtain ⟨c, hc, -⟩ := exists_mem_entityCycles_of_leads hd hab hba
      exact hnone c hc
    · intro hacyclic c hc
      obtain ⟨a, b, hab⟩ := (hcircle c hc).1.exists_mem_arcs
      refine hacyclic a (Relation.TransGen.head' ((hcircle c hc).1.edge a b hab) ?_)
      exact (hcircle c hc).1.reaches hab

/-- An entity that refers to each of the given ones, in that order. -/
def referring (name : String) (targets : List String) : Entity :=
  { location := ⟨"shop.dsl", 1, 1, none⟩
    name
    fields := targets.map fun t =>
      { name := t, fieldType := .relation { kind := .ref, target := t } } }

/-- Customers refer to the customer who sent them and to their last order. -/
def orderEntities : List Entity :=
  [referring "Order" ["Customer"], referring "Customer" ["Customer", "Order"]]

theorem entityCycles_cover_orders :
    Distinct orderEntities ∧
      (∀ c ∈ entityCycles orderEntities, IsCircle orderEntities c ∧ StartsSmallest c) ∧
      IsCircle orderEntities ["Customer", "Order"] ∧
      ∃ c ∈ entityCycles orderEntities, ("Order", "Customer") ∈ arcs c := by
  have hd : Distinct orderEntities := by decide
  obtain ⟨hsound, -, -, hcover, -⟩ := entityCycles_cover hd
  have hcircle : IsCircle orderEntities ["Customer", "Order"] := (isCircle_iff hd).2 (by decide)
  exact ⟨hd, hsound, hcircle, hcover "Order" "Customer" ⟨_, hcircle, by decide⟩⟩

end EntityCycle

end Blueprint
