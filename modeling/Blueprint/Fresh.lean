/-!
# Fresh names

Where names must not collide, the first item of a name is kept and later ones are left out.
-/

namespace Blueprint

/-- The items whose names are not taken, neither from the start nor by an earlier item. -/
def freshlyNamed {α : Type} (name : α → String) (taken : List String) : List α → List α
  | [] => []
  | a :: rest =>
    if taken.contains (name a) then freshlyNamed name taken rest
    else a :: freshlyNamed name (name a :: taken) rest

section

variable {α : Type} {name : α → String}

theorem freshlyNamed_sublist (taken : List String) (items : List α) :
    (freshlyNamed name taken items).Sublist items := by
  fun_induction freshlyNamed name taken items with
  | case1 => exact .slnil
  | case2 taken a rest _ ih => exact ih.cons a
  | case3 taken a rest _ ih => exact ih.cons_cons a

theorem not_taken_of_mem_freshlyNamed {taken : List String} {items : List α} {a : α}
    (h : a ∈ freshlyNamed name taken items) : name a ∉ taken := by
  fun_induction freshlyNamed name taken items with
  | case1 => simp at h
  | case2 taken b rest _ ih => exact ih h
  | case3 taken b rest hb ih =>
    rcases List.mem_cons.1 h with rfl | h
    · simpa using hb
    · exact fun ht => ih h (List.mem_cons_of_mem _ ht)

/-- No two items that are kept have the same name. -/
theorem pairwise_freshlyNamed (taken : List String) (items : List α) :
    (freshlyNamed name taken items).Pairwise fun a b => name a ≠ name b := by
  fun_induction freshlyNamed name taken items with
  | case1 => exact .nil
  | case2 taken a rest _ ih => exact ih
  | case3 taken a rest _ ih =>
    refine .cons (fun b hb e => ?_) ih
    exact not_taken_of_mem_freshlyNamed hb (e ▸ List.mem_cons_self)

/-- An item is left out only if its name is taken or belongs to an item that is kept. -/
theorem taken_or_kept_of_mem {taken : List String} {items : List α} {a : α} (h : a ∈ items) :
    name a ∈ taken ∨ ∃ b ∈ freshlyNamed name taken items, name b = name a := by
  fun_induction freshlyNamed name taken items with
  | case1 => simp at h
  | case2 taken b rest hb ih =>
    rcases List.mem_cons.1 h with rfl | h
    · exact .inl (by simpa using hb)
    · exact ih h
  | case3 taken b rest _ ih =>
    rcases List.mem_cons.1 h with rfl | h
    · exact .inr ⟨a, List.mem_cons_self, rfl⟩
    · rcases ih h with ht | ⟨c, hc, e⟩
      · rcases List.mem_cons.1 ht with e | ht
        · exact .inr ⟨b, List.mem_cons_self, e.symm⟩
        · exact .inl ht
      · exact .inr ⟨c, List.mem_cons_of_mem _ hc, e⟩

/-- What is kept are the first items of their names, if these are not taken. -/
theorem mem_freshlyNamed_iff {taken : List String} {items : List α} {a : α} :
    a ∈ freshlyNamed name taken items ↔
      name a ∉ taken ∧ items.find? (name · == name a) = some a := by
  fun_induction freshlyNamed name taken items with
  | case1 => simp
  | case2 taken b rest hb ih =>
    rw [ih]
    by_cases e : name b = name a
    · have ht : name a ∈ taken := by simpa [e] using hb
      simp [ht]
    · simp [e]
  | case3 taken b rest hb ih =>
    have ht : name b ∉ taken := by simpa using hb
    rw [List.mem_cons, ih]
    by_cases e : name b = name a
    · simp only [List.find?_cons, e, beq_self_eq_true, Option.some.injEq]
      constructor
      · rintro (rfl | ⟨h, -⟩)
        · exact ⟨ht, rfl⟩
        · exact absurd List.mem_cons_self h
      · rintro ⟨-, rfl⟩
        exact .inl rfl
    · have hne : a ≠ b := fun h => e (h ▸ rfl)
      simp [hne, e, Ne.symm e]

theorem freshlyNamed_cons_of_mem {taken : List String} {a : α} (h : name a ∈ taken)
    (rest : List α) : freshlyNamed name taken (a :: rest) = freshlyNamed name taken rest := by
  have ht : taken.contains (name a) = true := by simpa using h
  rw [freshlyNamed, if_pos ht]

theorem freshlyNamed_cons_of_not_mem {taken : List String} {a : α} (h : name a ∉ taken)
    (rest : List α) :
    freshlyNamed name taken (a :: rest) = a :: freshlyNamed name (name a :: taken) rest := by
  have ht : ¬ taken.contains (name a) = true := by simpa using h
  rw [freshlyNamed, if_neg ht]

/-- Only which names are taken matters, not in which order. -/
theorem freshlyNamed_congr {taken taken' : List String} (h : ∀ n, n ∈ taken ↔ n ∈ taken')
    (items : List α) : freshlyNamed name taken items = freshlyNamed name taken' items := by
  induction items generalizing taken taken' with
  | nil => rfl
  | cons a rest ih =>
    by_cases ht : name a ∈ taken
    · rw [freshlyNamed_cons_of_mem ht, freshlyNamed_cons_of_mem ((h _).1 ht), ih h]
    · have hrest : ∀ n, n ∈ name a :: taken ↔ n ∈ name a :: taken' := by simp [h]
      rw [freshlyNamed_cons_of_not_mem ht, freshlyNamed_cons_of_not_mem (mt (h _).2 ht), ih hrest]

/-- Items behind others are kept if their names are free of what is kept of those. -/
theorem freshlyNamed_append (taken : List String) (items others : List α) :
    freshlyNamed name taken (items ++ others) =
      freshlyNamed name taken items ++
        freshlyNamed name (taken ++ (freshlyNamed name taken items).map name) others := by
  induction items generalizing taken with
  | nil => simp [freshlyNamed]
  | cons a rest ih =>
    rw [List.cons_append]
    by_cases ht : name a ∈ taken
    · rw [freshlyNamed_cons_of_mem ht, freshlyNamed_cons_of_mem ht, ih]
    · rw [freshlyNamed_cons_of_not_mem ht, freshlyNamed_cons_of_not_mem ht, ih, List.map_cons,
        List.cons_append]
      congr 2
      apply freshlyNamed_congr
      simp [or_left_comm]

theorem freshlyNamed_map {β : Type} (g : β → α) (taken : List String) (items : List β) :
    freshlyNamed name taken (items.map g) = (freshlyNamed (name ∘ g) taken items).map g := by
  induction items generalizing taken with
  | nil => rfl
  | cons b rest ih =>
    rw [List.map_cons]
    by_cases ht : name (g b) ∈ taken
    · have htg : (name ∘ g) b ∈ taken := ht
      rw [freshlyNamed_cons_of_mem ht, freshlyNamed_cons_of_mem htg, ih]
    · have htg : (name ∘ g) b ∉ taken := ht
      rw [freshlyNamed_cons_of_not_mem ht, freshlyNamed_cons_of_not_mem htg, ih, List.map_cons]
      rfl

end

end Blueprint
