/-!
# Tables

A table gives keys values. It keeps the order in which the keys were first given one; giving a key
another value changes the value and not the order. In an `OrderedMap` every key has one value.
-/

namespace Blueprint

abbrev Table (κ : Type := String) (α : Type := String) := List (κ × α)

section

variable {κ α : Type} [DecidableEq κ]

/-- The table with the value for the key. -/
def Table.insert (t : Table κ α) (key : κ) (value : α) : Table κ α :=
  if t.any (·.1 == key) then t.map fun e => if e.1 == key then (key, value) else e
  else t ++ [(key, value)]

/-- A key that is there stays where it is, and a new one comes last. -/
theorem Table.keys_insert (t : Table κ α) (key : κ) (value : α) :
    (t.insert key value).map (·.1) =
      if key ∈ t.map (·.1) then t.map (·.1) else t.map (·.1) ++ [key] := by
  have h : (t.any (·.1 == key)) = true ↔ key ∈ t.map (·.1) := by simp
  unfold Table.insert
  split
  · next hk =>
    rw [if_pos (h.1 hk), List.map_map]
    refine List.map_congr_left fun e _ => ?_
    by_cases he : e.1 = key <;> simp [he]
  · next hk => rw [if_neg (mt h.2 hk)]; simp

theorem Table.insert_of_not_mem {t : Table κ α} {key : κ} (h : key ∉ t.map (·.1)) (value : α) :
    t.insert key value = t ++ [(key, value)] := by
  have hany : ¬ (t.any (·.1 == key)) = true := by simpa using h
  unfold Table.insert
  rw [if_neg hany]

theorem Table.mem_of_mem_insert {t : Table κ α} {key : κ} {value : α} {e : κ × α}
    (h : e ∈ t.insert key value) : e = (key, value) ∨ e ∈ t := by
  unfold Table.insert at h
  grind

end

/-- A table in which every key has one value. -/
structure OrderedMap (κ α : Type) where
  entries : Table κ α := []
  nodup : (entries.map (·.1)).Nodup := by exact List.nodup_nil

namespace OrderedMap

variable {κ α : Type}

def keys (m : OrderedMap κ α) : List κ := m.entries.map (·.1)

def values (m : OrderedMap κ α) : List α := m.entries.map (·.2)

def size (m : OrderedMap κ α) : Nat := m.entries.length

variable [DecidableEq κ]

/-- The value of the key. -/
def get? (m : OrderedMap κ α) (key : κ) : Option α := (m.entries.find? (·.1 == key)).map (·.2)

def contains (m : OrderedMap κ α) (key : κ) : Bool := m.entries.any (·.1 == key)

/-- The map with the value for the key. -/
def insert (m : OrderedMap κ α) (key : κ) (value : α) : OrderedMap κ α where
  entries := m.entries.insert key value
  nodup := by
    rw [Table.keys_insert]
    split
    · exact m.nodup
    · next h =>
      refine List.nodup_append.2 ⟨m.nodup, by simp, fun a ha b hb e => ?_⟩
      exact h (List.mem_singleton.1 hb ▸ e ▸ ha)

theorem contains_iff {m : OrderedMap κ α} {key : κ} : m.contains key = true ↔ key ∈ m.keys := by
  unfold contains keys
  simp

theorem isSome_get?_iff {m : OrderedMap κ α} {key : κ} :
    (m.get? key).isSome = true ↔ key ∈ m.keys := by
  unfold get? keys
  simp

theorem mem_keys_insert {m : OrderedMap κ α} {key other : κ} {value : α} :
    other ∈ (m.insert key value).keys ↔ other = key ∨ other ∈ m.keys := by
  unfold keys insert
  rw [Table.keys_insert]
  split <;> grind

section

variable {m : OrderedMap κ α} {key : κ} (h : key ∉ m.keys) (value : α)

include h

theorem entries_insert_of_not_mem :
    (m.insert key value).entries = m.entries ++ [(key, value)] :=
  Table.insert_of_not_mem h value

theorem values_insert_of_not_mem : (m.insert key value).values = m.values ++ [value] := by
  unfold values
  rw [entries_insert_of_not_mem h, List.map_append]
  rfl

theorem get?_insert_of_not_mem (other : κ) :
    (m.insert key value).get? other = if other = key then some value else m.get? other := by
  unfold get?
  rw [entries_insert_of_not_mem h, List.find?_append]
  by_cases he : other = key
  · subst he
    have hnone : m.entries.find? (·.1 == other) = none := by
      rw [← Option.map_eq_none_iff, ← Option.not_isSome_iff_eq_none]
      exact mt isSome_get?_iff.1 h
    simp [hnone]
  · simp [he, Ne.symm he]

end

/-- The map with other values. -/
def mapValues {β : Type} (f : α → β) (m : OrderedMap κ α) : OrderedMap κ β where
  entries := m.entries.map fun e => (e.1, f e.2)
  nodup := by
    rw [List.map_map]
    exact m.nodup

section

variable {β : Type} (f : α → β) (m : OrderedMap κ α)

omit [DecidableEq κ] in
theorem keys_mapValues : (m.mapValues f).keys = m.keys := by
  unfold keys mapValues
  rw [List.map_map]
  rfl

omit [DecidableEq κ] in
theorem values_mapValues : (m.mapValues f).values = m.values.map f := by
  unfold values mapValues
  rw [List.map_map, List.map_map]
  rfl

theorem insert_mapValues (key : κ) (value : α) :
    (m.mapValues f).insert key (f value) = (m.insert key value).mapValues f := by
  have hentries : Table.insert (m.entries.map fun e => (e.1, f e.2)) key (f value) =
      (m.entries.insert key value).map fun e => (e.1, f e.2) := by
    have hany : (m.entries.map fun e => (e.1, f e.2)).any (·.1 == key) =
        m.entries.any (·.1 == key) := by
      rw [List.any_map]
      rfl
    unfold Table.insert
    rw [hany]
    split
    · rw [List.map_map, List.map_map]
      refine List.map_congr_left fun e _ => ?_
      by_cases he : e.1 = key <;> simp [he]
    · rw [List.map_append]
      rfl
  unfold insert mapValues
  simp only [hentries]

end

end OrderedMap

end Blueprint
