import Blueprint.Entity.Cycle
import Blueprint.Proofs.WellFormed.Basic
import Mathlib.Data.List.Chain
import Mathlib.Data.List.Nodup
import Mathlib.Data.List.Rotate
import Mathlib.Data.List.TakeWhile
import Mathlib.Logic.Relation

/-!
# Circles of references

A circle is a list of different names, each of which refers to the next one and the last one to the
first (`IsCircle`). What it consists of are its `arcs`, and those do not depend on where it is read
from. Of the rotations of a circle exactly one starts at the smallest name
(`eq_of_isRotated_of_startsSmallest`), and `rotate` finds it.

An arc of a circle leads from where it ends back to where it starts (`IsCircle.reaches`). The other
direction, that such a reference lies on a circle, is what the search for circles shows.
-/

namespace Blueprint

namespace EntityCycle

open List (IsRotated)

/-! ## Arcs -/

section

variable {α : Type} {a b : α} {c d : List α}

/-- Each member of a list with the next one, and the last one with the first. -/
def arcs (c : List α) : List (α × α) := c.zip (c.rotate 1)

theorem arcs_cons (a : α) (l : List α) : arcs (a :: l) = (a :: l).zip (l ++ [a]) := by
  unfold arcs
  rw [List.rotate_cons_succ, List.rotate_zero]

theorem arcs_rotate (c : List α) (n : Nat) : arcs (c.rotate n) = (arcs c).rotate n := by
  unfold arcs
  have hlength : c.length = (c.rotate 1).length := (List.length_rotate c 1).symm
  rw [List.zip_eq_zipWith, List.zip_eq_zipWith, List.zipWith_rotate_distrib _ _ _ n hlength,
    List.rotate_rotate, List.rotate_rotate, Nat.add_comm]

/-- A rotation has the same arcs. -/
theorem mem_arcs_iff_of_isRotated (h : c ~r d) : (a, b) ∈ arcs d ↔ (a, b) ∈ arcs c := by
  obtain ⟨n, rfl⟩ := h
  rw [arcs_rotate, List.mem_rotate]

theorem mem_of_mem_arcs (h : (a, b) ∈ arcs c) : a ∈ c ∧ b ∈ c := by
  obtain ⟨ha, hb⟩ := List.of_mem_zip h
  exact ⟨ha, List.mem_rotate.1 hb⟩

/-- The last member leads to the first. -/
theorem mem_arcs_of_getLast? {l : List α} (h : (a :: l).getLast? = some b) :
    (b, a) ∈ arcs (a :: l) := by
  rcases List.eq_nil_or_concat l with rfl | ⟨front, last, rfl⟩
  · obtain rfl : a = b := by simpa using h
    rw [arcs_cons]
    exact List.mem_cons_self
  · rw [List.concat_eq_append, ← List.cons_append] at h ⊢
    obtain rfl : last = b := by simpa only [List.getLast?_concat, Option.some.injEq] using h
    have hrot : [last] ++ a :: front ~r a :: front ++ [last] := List.isRotated_append
    rw [mem_arcs_iff_of_isRotated hrot, List.singleton_append, arcs_cons]
    exact List.mem_cons_self

/-- A list without repetition can be read from any of its arcs on. -/
theorem exists_isRotated_of_mem_arcs (hc : c.Nodup) (h : (a, b) ∈ arcs c) (hne : a ≠ b) :
    ∃ l, c ~r a :: b :: l := by
  obtain ⟨front, back, rfl⟩ := List.append_of_mem (mem_of_mem_arcs h).1
  have hrot : front ++ a :: back ~r a :: (back ++ front) := List.isRotated_append
  have hnot : a ∉ back ++ front := (List.nodup_cons.1 (hrot.nodup_iff.1 hc)).1
  rw [← mem_arcs_iff_of_isRotated hrot, arcs_cons] at h
  generalize back ++ front = l at hrot hnot h
  cases l with
  | nil =>
    obtain ⟨-, rfl⟩ : a = a ∧ b = a := by simpa using h
    exact absurd rfl hne
  | cons x l =>
    rw [List.cons_append, List.zip_cons_cons, List.mem_cons] at h
    rcases h with h | h
    · obtain ⟨-, rfl⟩ := Prod.mk.inj h
      exact ⟨l, hrot⟩
    · exact absurd (List.of_mem_zip h).1 hnot

/-- The arcs satisfy a relation exactly if the list, led back to its start, is a chain. -/
theorem forall_mem_arcs_cons_iff {R : α → α → Prop} (a : α) (l : List α) :
    (∀ x y, (x, y) ∈ arcs (a :: l) → R x y) ↔ List.IsChain R (a :: (l ++ [a])) := by
  have hzip : ∀ (z y : α) (l : List α),
      (∀ p ∈ (y :: l).zip (l ++ [z]), R p.1 p.2) ↔ List.IsChain R (y :: (l ++ [z])) := by
    intro z y l
    induction l generalizing y with
    | nil => simp
    | cons x l ih =>
      rw [List.cons_append, List.zip_cons_cons, List.forall_mem_cons, ih,
        List.isChain_cons_cons]
  rw [← hzip, arcs_cons, Prod.forall]

end

/-- Cut off in front of a name that it holds, a list starts with the name. -/
theorem exists_dropWhile_eq_cons {name : String} {l : List String} (h : name ∈ l) :
    ∃ rest, l.dropWhile (· != name) = name :: rest := by
  have hne : l.dropWhile (· != name) ≠ [] := by
    intro hnil
    have := List.dropWhile_eq_nil_iff.1 hnil name h
    simp at this
  have hhead : (l.dropWhile (· != name)).head hne = name := by
    simpa using List.head_dropWhile_not (· != name) hne
  refine ⟨(l.dropWhile (· != name)).tail, ?_⟩
  rw [← List.cons_head_tail hne, hhead, List.tail_cons]

/-! ## The graph -/

/-- An entity of the first name refers to the second, which is not its own. -/
def Edge (entities : List Entity) (a b : String) : Prop :=
  a ≠ b ∧ ∃ e ∈ entities, e.name = a ∧ ∃ f ∈ e.fields, f.RefersTo b

/-- No two entities share a name. -/
def Distinct (entities : List Entity) : Prop := (entities.map (·.name)).Nodup

instance (entities : List Entity) : Decidable (Distinct entities) :=
  inferInstanceAs (Decidable (entities.map (·.name)).Nodup)

/-- Two different names or more, each referring to the next one and the last one to the first. -/
structure IsCircle (entities : List Entity) (c : List String) : Prop where
  two_le : 2 ≤ c.length
  nodup : c.Nodup
  edge : ∀ a b, (a, b) ∈ arcs c → Edge entities a b

/-- No member comes before the first one in the order of names. -/
def StartsSmallest (c : List String) : Prop := ∀ first ∈ c.head?, ∀ a ∈ c, first ≤ a

variable {entities : List Entity} {a b : String} {c d : List String}

/-- A look-up finds the only entity of the name. -/
theorem find?_eq_some_iff (hd : Distinct entities) {e : Entity} :
    entities.reverse.find? (·.name == a) = some e ↔ e ∈ entities ∧ e.name = a := by
  have hreverse : NamesApart Entity.name entities.reverse := by
    unfold NamesApart
    rw [List.map_reverse]
    exact List.nodup_reverse.2 hd
  rw [hreverse.find?_eq_some_iff, List.mem_reverse]

/-- The targets of a name are where its edges lead. -/
theorem mem_targets_iff (hd : Distinct entities) : b ∈ targets entities a ↔ Edge entities a b := by
  unfold targets Edge
  cases h : entities.reverse.find? (·.name == a) with
  | some e =>
    obtain ⟨he, hname⟩ := (find?_eq_some_iff hd).1 h
    show b ∈ (e.references.map (·.2)).filter (· != e.name) ↔ _
    rw [List.mem_filter, Entity.mem_references_iff, hname]
    constructor
    · rintro ⟨hf, hne⟩
      exact ⟨fun e => by simp [e] at hne, e, he, hname, hf⟩
    · rintro ⟨hne, e', he', hname', hf⟩
      have hsame := (find?_eq_some_iff hd).2 ⟨he', hname'⟩
      rw [h, Option.some.injEq] at hsame
      exact ⟨hsame ▸ hf, by simpa using hne.symm⟩
  | none =>
    refine iff_of_false List.not_mem_nil ?_
    rintro ⟨-, e, he, hname, -⟩
    rw [(find?_eq_some_iff hd).2 ⟨he, hname⟩] at h
    cases h

theorem Edge.mem_names (h : Edge entities a b) : a ∈ entities.map (·.name) := by
  obtain ⟨-, e, he, rfl, -⟩ := h
  exact List.mem_map_of_mem he

/-! ## Circles -/

/-- Whether a list is a circle can be read off the targets. -/
theorem isCircle_iff (hd : Distinct entities) : IsCircle entities c ↔
    2 ≤ c.length ∧ c.Nodup ∧ ∀ p ∈ arcs c, p.2 ∈ targets entities p.1 := by
  simp only [mem_targets_iff hd, Prod.forall]
  exact ⟨fun h => ⟨h.two_le, h.nodup, h.edge⟩, fun h => ⟨h.1, h.2.1, h.2.2⟩⟩

theorem IsCircle.exists_mem_arcs (h : IsCircle entities c) : ∃ a b, (a, b) ∈ arcs c := by
  obtain ⟨hlength, -, -⟩ := h
  match c with
  | [] => simp at hlength
  | a :: l =>
    rw [arcs_cons]
    cases l with
    | nil => simp at hlength
    | cons b l => exact ⟨a, b, List.mem_cons_self⟩

theorem IsCircle.of_isRotated (h : IsCircle entities c) (hrot : c ~r d) : IsCircle entities d where
  two_le := hrot.perm.length_eq ▸ h.two_le
  nodup := hrot.nodup_iff.1 h.nodup
  edge a b hab := h.edge a b ((mem_arcs_iff_of_isRotated hrot).1 hab)

/-- From the end of an arc the circle leads back to its start. -/
theorem IsCircle.reaches (h : IsCircle entities c) (hab : (a, b) ∈ arcs c) :
    Relation.ReflTransGen (Edge entities) b a := by
  obtain ⟨l, hrot⟩ := exists_isRotated_of_mem_arcs h.nodup hab (h.edge a b hab).1
  have hchain := (forall_mem_arcs_cons_iff a (b :: l)).1 (h.of_isRotated hrot).edge
  rw [List.cons_append, List.isChain_cons_cons] at hchain
  refine List.relationReflTransGen_of_exists_isChain_cons (l ++ [a]) hchain.2 ?_
  simp

/-- A way that comes back to its start and repeats no name is a circle. -/
theorem isCircle_of_isChain {l : List String} (hn : (a :: l).Nodup)
    (h : List.IsChain (Edge entities) (a :: (l ++ [a]))) : IsCircle entities (a :: l) where
  two_le := by
    cases l with
    | nil => exact absurd rfl (List.isChain_cons_cons.1 h).1.1
    | cons b l => simp
  nodup := hn
  edge := (forall_mem_arcs_cons_iff a l).2 h

/-! ## The rotation that starts at the smallest name -/

theorem smallest_mem (first : String) (l : List String) : smallest first l ∈ first :: l := by
  induction l generalizing first with
  | nil => exact List.mem_cons_self
  | cons n l ih =>
    have h := ih (if n < first then n else first)
    unfold smallest
    rcases List.mem_cons.1 h with e | h
    · rw [e]
      split <;> simp
    · exact List.mem_cons_of_mem _ (List.mem_cons_of_mem _ h)

theorem smallest_le (first : String) (l : List String) :
    ∀ a ∈ first :: l, smallest first l ≤ a := by
  induction l generalizing first with
  | nil => simp [smallest]
  | cons n l ih =>
    intro a ha
    unfold smallest
    have h := ih (if n < first then n else first)
    have hmin :
        (if n < first then n else first) ≤ n ∧ (if n < first then n else first) ≤ first := by
      by_cases hlt : n < first
      · rw [if_pos hlt]
        exact ⟨String.le_refl n, String.not_lt.1 (String.lt_asymm hlt)⟩
      · rw [if_neg hlt]
        exact ⟨String.not_lt.1 hlt, String.le_refl first⟩
    have hfirst := h _ List.mem_cons_self
    rcases List.mem_cons.1 ha with rfl | ha
    · exact String.le_trans hfirst hmin.2
    · rcases List.mem_cons.1 ha with rfl | ha
      · exact String.le_trans hfirst hmin.1
      · exact h a (List.mem_cons_of_mem _ ha)

theorem rotate_cons (n : String) (l : List String) :
    rotate (n :: l) = (n :: l).dropWhile (· != smallest n l) ++
      (n :: l).takeWhile (· != smallest n l) := rfl

theorem isRotated_rotate (c : List String) : c ~r rotate c := by
  cases c with
  | nil => exact .refl _
  | cons n l =>
    rw [rotate_cons]
    have h : (n :: l).takeWhile (· != smallest n l) ++ (n :: l).dropWhile (· != smallest n l) =
        n :: l := List.takeWhile_append_dropWhile
    conv_lhs => rw [← h]
    exact List.isRotated_append

theorem startsSmallest_rotate (c : List String) : StartsSmallest (rotate c) := by
  intro first hfirst a ha
  have ha' : a ∈ c := (isRotated_rotate c).mem_iff.2 ha
  cases c with
  | nil => cases ha'
  | cons n l =>
    obtain ⟨rest, hrest⟩ := exists_dropWhile_eq_cons (smallest_mem n l)
    rw [rotate_cons, hrest] at hfirst
    obtain rfl : smallest n l = first := by simpa using hfirst
    exact smallest_le n l a ha'

/-- Only one rotation of a circle starts at the smallest name. -/
theorem eq_of_isRotated_of_startsSmallest (hc : c.Nodup) (hrot : c ~r d) (hs : StartsSmallest c)
    (hs' : StartsSmallest d) : c = d := by
  obtain ⟨n, -, rfl⟩ := List.isRotated_iff_mod.1 hrot
  rw [List.rotate_eq_drop_append_take_mod] at hs' ⊢
  have hsplit := List.take_append_drop (n % c.length) c
  generalize c.take (n % c.length) = front at hs' hsplit ⊢
  generalize c.drop (n % c.length) = back at hs' hsplit ⊢
  subst hsplit
  -- if both parts have a first member, each of them is the smallest one
  cases front with
  | nil => rw [List.nil_append, List.append_nil]
  | cons a front =>
    cases back with
    | nil => rw [List.nil_append, List.append_nil]
    | cons b back =>
      have hab : a ≤ b := hs a rfl b (by simp)
      have hba : b ≤ a := hs' b rfl a (by simp)
      obtain rfl := String.le_antisymm hab hba
      simp at hc

end EntityCycle

end Blueprint
