import Blueprint.Token.Lexer
import Mathlib.Data.List.Dedup
import Mathlib.Data.List.Infix

/-!
# The widths of enclosing blocks

The lexer keeps the widths of the blocks around a line on a stack. What stands there does not depend
on how it came about: it is the least widths that the lines behind some line have had, as far as
they are positive (`Encloses`). One line keeps it so (`Encloses.step`), and the line is refused
exactly if it is shallower than the one before it, without reaching the start of the line or one of
these widths (`Encloses.indentation_eq_none_iff`).
-/

namespace Blueprint.Lexer

/-! ## Least widths -/

/-- The least width of the lines from some line on, for every line. -/
def suffixMinima (ws : List Nat) : List Nat := ws.tails.filterMap List.min?

/-- The number of blocks that the last of the lines stands in: of the different positive widths
among the least ones. -/
def level (ws : List Nat) : Nat := ((suffixMinima ws).filter (0 < ·)).dedup.length

/-- A line of the width `w` behind lines of the widths `ws` is shallower than the last of them, and
indented, but as deep as no block. -/
def Unmatched (ws : List Nat) (w : Nat) : Prop :=
  ∃ v, ws.getLast? = some v ∧ w < v ∧ w ≠ 0 ∧ w ∉ suffixMinima ws

variable {ws indents inner : List Nat} {w x line column : Nat} {marks : List Token}

theorem mem_suffixMinima_iff : x ∈ suffixMinima ws ↔ ∃ us, us <:+ ws ∧ us.min? = some x := by
  unfold suffixMinima
  rw [List.mem_filterMap]
  simp only [List.mem_tails]

theorem min?_concat_iff {us : List Nat} :
    (us ++ [w]).min? = some x ↔ (x = w ∧ ∀ u ∈ us, w ≤ u) ∨ (us.min? = some x ∧ x ≤ w) := by
  simp only [List.min?_eq_some_iff, List.mem_append, List.mem_singleton, or_imp, forall_and,
    forall_eq]
  constructor
  · rintro ⟨hx | rfl, hus, hw⟩
    · exact .inr ⟨⟨hx, hus⟩, hw⟩
    · exact .inl ⟨rfl, hus⟩
  · rintro (⟨rfl, hus⟩ | ⟨⟨hx, hus⟩, hw⟩)
    · exact ⟨.inr rfl, hus, Nat.le_refl x⟩
    · exact ⟨.inl hx, hus, hw⟩

/-- One more line adds its own width, and takes away those that are not less. -/
theorem mem_suffixMinima_concat :
    x ∈ suffixMinima (ws ++ [w]) ↔ x = w ∨ (x ∈ suffixMinima ws ∧ x < w) := by
  simp only [mem_suffixMinima_iff, List.suffix_concat_iff]
  constructor
  · rintro ⟨_, rfl | ⟨us, rfl, hus⟩, hmin⟩
    · cases hmin
    · rcases min?_concat_iff.1 hmin with ⟨rfl, -⟩ | ⟨hmin, hle⟩
      · exact .inl rfl
      · rcases Nat.eq_or_lt_of_le hle with rfl | hlt
        · exact .inl rfl
        · exact .inr ⟨⟨us, hus, hmin⟩, hlt⟩
  · rintro (rfl | ⟨⟨us, hus, hmin⟩, hlt⟩)
    · exact ⟨[x], .inr ⟨[], rfl, List.nil_suffix⟩, List.min?_singleton⟩
    · exact ⟨us ++ [w], .inr ⟨us, rfl, hus⟩, min?_concat_iff.2 (.inr ⟨hmin, Nat.le_of_lt hlt⟩)⟩

/-! ## The stack -/

/-- The stack of enclosing blocks behind lines of the given widths. -/
structure Encloses (indents ws : List Nat) : Prop where
  /-- Inner blocks stand deeper. -/
  sorted : indents.Pairwise (· > ·)
  mem_iff : ∀ x, x ∈ indents ↔ 0 < x ∧ x ∈ suffixMinima ws
  /-- The last line stands in the innermost block. -/
  top : indents.head?.getD 0 = ws.getLast?.getD 0

theorem mem_leave_iff (hsorted : indents.Pairwise (· > ·)) :
    x ∈ (leave w indents).1 ↔ x ∈ indents ∧ x ≤ w := by
  induction indents with
  | nil => simp [leave]
  | cons v vs ih =>
    obtain ⟨hv, hvs⟩ := List.pairwise_cons.1 hsorted
    rw [leave]
    split
    · next hlt =>
      -- the block of width `v` is left
      rw [ih hvs, List.mem_cons]
      exact ⟨fun ⟨hx, hle⟩ => ⟨.inr hx, hle⟩, fun ⟨hx, hle⟩ =>
        ⟨hx.resolve_left (by rintro rfl; exact absurd hle (Nat.not_le.2 hlt)), hle⟩⟩
    · next hge =>
      refine ⟨fun hx => ⟨hx, ?_⟩, And.left⟩
      rcases List.mem_cons.1 hx with rfl | hx
      · exact Nat.not_lt.1 hge
      · exact (Nat.le_of_lt (hv x hx)).trans (Nat.not_lt.1 hge)

/-- No block stands deeper than the innermost one. -/
theorem le_top (hsorted : indents.Pairwise (· > ·)) (hx : x ∈ indents) :
    x ≤ indents.head?.getD 0 := by
  cases indents with
  | nil => cases hx
  | cons v vs =>
    rcases List.mem_cons.1 hx with rfl | hx
    · exact Nat.le_refl x
    · exact Nat.le_of_lt (List.rel_of_pairwise_cons hsorted hx)

theorem top_mem (hpos : 0 < indents.head?.getD 0) : indents.head?.getD 0 ∈ indents := by
  cases indents with
  | nil => exact absurd hpos (Nat.lt_irrefl 0)
  | cons v vs => exact List.mem_cons_self

theorem sorted_leave (hsorted : indents.Pairwise (· > ·)) :
    (leave w indents).1.Pairwise (· > ·) := by
  rw [leave_fst]
  exact hsorted.drop

namespace Encloses

theorem nil : Encloses [] [] := ⟨.nil, fun x => by simp [suffixMinima], rfl⟩

/-- A line leads to one of the blocks around it if it stands at the start of the line, or as deep as
such a block. -/
theorem top_leave_eq_iff (h : Encloses indents ws) :
    (leave w indents).1.head?.getD 0 = w ↔ w = 0 ∨ w ∈ indents := by
  have hmem := fun x => mem_leave_iff (w := w) (x := x) h.sorted
  constructor
  · intro htop
    rcases Nat.eq_zero_or_pos w with hw | hw
    · exact .inl hw
    · rw [← htop] at hw
      have hin := ((hmem _).1 (top_mem hw)).1
      rw [htop] at hin
      exact .inr hin
  · intro hw
    rcases Nat.eq_zero_or_pos ((leave w indents).1.head?.getD 0) with htop | htop
    · rcases hw with rfl | hw
      · exact htop
      · -- the block would be left over
        have hle := le_top (sorted_leave h.sorted) ((hmem w).2 ⟨hw, Nat.le_refl w⟩)
        have hpos := ((h.mem_iff w).1 hw).1
        omega
    · have hle := ((hmem _).1 (top_mem htop)).2
      rcases hw with rfl | hw
      · exact Nat.le_zero.1 hle
      · exact Nat.le_antisymm hle
          (le_top (sorted_leave h.sorted) ((hmem w).2 ⟨hw, Nat.le_refl w⟩))

/-- A line keeps the stack as it should be. -/
theorem step (h : Encloses indents ws)
    (hm : indentation indents w line column = some (marks, inner)) :
    Encloses inner (ws ++ [w]) := by
  have hlast : (ws ++ [w]).getLast?.getD 0 = w := by rw [List.getLast?_concat]; rfl
  unfold indentation at hm
  dsimp only at hm
  split at hm
  · next hdeeper =>
    cases hm
    have hlt : ∀ x ∈ indents, x < w := fun x hx => (le_top h.sorted hx).trans_lt hdeeper
    refine ⟨List.pairwise_cons.2 ⟨hlt, h.sorted⟩, fun x => ?_, hlast.symm⟩
    rw [List.mem_cons, mem_suffixMinima_concat]
    constructor
    · rintro (rfl | hx)
      · exact ⟨Nat.zero_lt_of_lt hdeeper, .inl rfl⟩
      · exact ⟨((h.mem_iff x).1 hx).1, .inr ⟨((h.mem_iff x).1 hx).2, hlt x hx⟩⟩
    · rintro ⟨hpos, rfl | ⟨hx, -⟩⟩
      · exact .inl rfl
      · exact .inr ((h.mem_iff x).2 ⟨hpos, hx⟩)
  · split at hm
    · next htop =>
      cases hm
      refine ⟨sorted_leave h.sorted, fun x => ?_, htop.trans hlast.symm⟩
      rw [mem_leave_iff h.sorted, mem_suffixMinima_concat]
      constructor
      · rintro ⟨hx, hle⟩
        refine ⟨((h.mem_iff x).1 hx).1, ?_⟩
        rcases Nat.eq_or_lt_of_le hle with rfl | hlt
        · exact .inl rfl
        · exact .inr ⟨((h.mem_iff x).1 hx).2, hlt⟩
      · rintro ⟨hpos, rfl | ⟨hx, hlt⟩⟩
        · exact ⟨(h.top_leave_eq_iff.1 htop).resolve_left (Nat.ne_of_gt hpos), Nat.le_refl x⟩
        · exact ⟨(h.mem_iff x).2 ⟨hpos, hx⟩, Nat.le_of_lt hlt⟩
    · cases hm

/-- Exactly the lines without a match are refused. -/
theorem indentation_eq_none_iff (h : Encloses indents ws) :
    indentation indents w line column = none ↔ Unmatched ws w := by
  have hnone : indentation indents w line column = none ↔
      ¬ indents.head?.getD 0 < w ∧ ¬ (w = 0 ∨ w ∈ indents) := by
    unfold indentation
    dsimp only
    rw [← h.top_leave_eq_iff]
    split
    · next hlt => exact ⟨nofun, fun hn => absurd hlt hn.1⟩
    · next hge =>
      split
      · next htop => exact ⟨nofun, fun hn => absurd htop hn.2⟩
      · next htop => exact ⟨fun _ => ⟨hge, htop⟩, fun _ => rfl⟩
  rw [hnone, not_or, h.mem_iff, not_and, Nat.not_lt]
  constructor
  · rintro ⟨hle, hne, hnot⟩
    have hmin : w ∉ suffixMinima ws := hnot (Nat.pos_of_ne_zero hne)
    have htop : w ≠ indents.head?.getD 0 := by
      intro e
      refine hmin ((h.mem_iff w).1 ?_).2
      rw [e]
      exact top_mem (e ▸ Nat.pos_of_ne_zero hne)
    have hlt : w < ws.getLast?.getD 0 := h.top ▸ Nat.lt_of_le_of_ne hle htop
    cases hlast : ws.getLast? with
    | none =>
      rw [hlast] at hlt
      exact absurd hlt (Nat.not_lt_zero w)
    | some v =>
      rw [hlast] at hlt
      exact ⟨v, hlast, hlt, hne, hmin⟩
  · rintro ⟨v, hlast, hlt, hne, hmin⟩
    refine ⟨?_, hne, fun _ => hmin⟩
    rw [h.top, hlast]
    exact Nat.le_of_lt hlt

/-- There are as many blocks as different positive widths among the least ones. -/
theorem length_eq (h : Encloses indents ws) : indents.length = level ws := by
  have hnodup : indents.Nodup := h.sorted.imp fun hgt => Nat.ne_of_gt hgt
  refine ((List.perm_ext_iff_of_nodup hnodup (List.nodup_dedup _)).2 fun x => ?_).length_eq
  rw [List.mem_dedup, List.mem_filter, h.mem_iff, decide_eq_true_eq, and_comm]

end Encloses

example : level [0, 2, 6, 2, 4] = 2 := by decide

end Blueprint.Lexer
