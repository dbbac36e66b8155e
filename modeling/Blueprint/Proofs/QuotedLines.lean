import Blueprint.Proofs.Printed.Texts
import Mathlib.Data.List.Basic

/-!
# Quoted lines

A line is quoted in cells, of which a tab takes several. `columnsFrom` tells for each cell the
column of the character that is drawn there, so the first cell of a character is the first one with
its column. That is where the carets start (`snippet?_exact`), and behind the last cell if the line
has no such column.
-/

namespace Blueprint

/-! ## The lines of a text -/

namespace Text

/-- The number of lines: each line feed ends one, and there is another one if something stands
behind the last line feed. -/
def lineCount (cs : List Char) : Nat :=
  cs.count '\n' + if cs = [] ∨ cs.getLast? = some '\n' then 0 else 1

theorem lineCount_newline (cs : List Char) : lineCount ('\n' :: cs) = lineCount cs + 1 := by
  unfold lineCount
  rw [List.count_cons_self]
  cases cs with
  | nil => rfl
  | cons c cs =>
    rw [List.getLast?_cons_cons]
    simp only [reduceCtorEq, false_or]
    omega

theorem lineCount_cons {c : Char} (hc : c ≠ '\n') {cs : List Char} (hcs : cs ≠ []) :
    lineCount (c :: cs) = lineCount cs := by
  unfold lineCount
  rw [List.count_cons_of_ne hc]
  obtain ⟨d, ds, rfl⟩ := List.exists_cons_of_ne_nil hcs
  rw [List.getLast?_cons_cons]
  simp only [reduceCtorEq, false_or]

theorem endLines_cons (l : List Char) {ls : List (List Char)} (h : ls ≠ []) :
    endLines (l :: ls) = chomp l :: endLines ls := by
  cases ls with
  | nil => exact absurd rfl h
  | cons => rfl

/-- The induction is on the text. Where a line goes on, its piece only gets longer. -/
theorem length_endLines_splitLines (cs : List Char) :
    (endLines (splitLines cs)).length = lineCount cs := by
  induction cs with
  | nil => rfl
  | cons c cs ih =>
    rw [splitLines]
    split
    · next hc =>
      subst hc
      rw [endLines_cons [] (splitLines_ne_nil cs), List.length_cons, ih, lineCount_newline]
    · next hc =>
      by_cases hcs : cs = []
      · subst hcs
        have hone : lineCount [c] = 1 := by
          simp [lineCount, hc]
        exact hone.symm
      · rw [lineCount_cons hc hcs, ← ih]
        have hjoin := intercalate_splitLines cs
        cases hs : splitLines cs with
        | nil => exact absurd hs (splitLines_ne_nil cs)
        | cons l ls =>
          cases ls with
          | nil =>
            rw [hs, List.intercalate_singleton] at hjoin
            have hl : l.isEmpty = false := List.isEmpty_eq_false_iff.2 (hjoin ▸ hcs)
            show (endLines [c :: l]).length = (endLines [l]).length
            rw [endLines, endLines, hl]
            rfl
          | cons l' ls => rfl

theorem chomp_prefix (l : List Char) : chomp l <+: l := by
  unfold chomp
  split
  · next r hr =>
    have hl : l = r.reverse ++ ['\r'] := by
      rw [← l.reverse_reverse, hr, List.reverse_cons]
    rw [hl]
    exact List.prefix_append _ _
  · exact List.prefix_rfl

theorem exists_of_mem_endLines {l : List Char} {ls : List (List Char)} (h : l ∈ endLines ls) :
    ∃ piece ∈ ls, l <+: piece := by
  fun_induction endLines ls with
  | case1 => cases h
  | case2 => cases h
  | case3 piece => exact ⟨piece, List.mem_cons_self, (List.mem_singleton.1 h) ▸ List.prefix_rfl⟩
  | case4 piece ls _ ih =>
    rcases List.mem_cons.1 h with rfl | h
    · exact ⟨piece, List.mem_cons_self, chomp_prefix piece⟩
    · obtain ⟨piece', hpiece, hl⟩ := ih h
      exact ⟨piece', List.mem_cons_of_mem _ hpiece, hl⟩

theorem not_mem_of_mem_splitLines (cs : List Char) : ∀ l ∈ splitLines cs, '\n' ∉ l := by
  induction cs with
  | nil => exact List.forall_mem_singleton.2 List.not_mem_nil
  | cons c cs ih =>
    rw [splitLines]
    split
    · exact List.forall_mem_cons.2 ⟨List.not_mem_nil, ih⟩
    · next hc =>
      split
      · next l ls hs =>
        rw [hs, List.forall_mem_cons] at ih
        exact List.forall_mem_cons.2 ⟨List.not_mem_cons_of_ne_of_not_mem (Ne.symm hc) ih.1, ih.2⟩
      · exact List.forall_mem_singleton.2
          (List.not_mem_cons_of_ne_of_not_mem (Ne.symm hc) List.not_mem_nil)

theorem not_mem_of_mem_visibleLines {source : String} {l : List Char}
    (h : l ∈ visibleLines source) : '\n' ∉ l := by
  obtain ⟨piece, hpiece, hl⟩ := exists_of_mem_endLines h
  exact fun hmem => not_mem_of_mem_splitLines _ piece hpiece (hl.subset hmem)

end Text

/-! ## Cells -/

/-- What a cell of a character shows. -/
def shown (c : Char) : Char := if c = '\t' then ' ' else c

/-- For each cell of a quoted line, the column of the character that is drawn there, if the line
starts in the given column. -/
def columnsFrom (column : Nat) : List Char → List Nat
  | [] => []
  | c :: l => List.replicate (cellWidth c) column ++ columnsFrom (column + 1) l

section

variable {column k : Nat} {c : Char} {l : List Char}

theorem cells_cons (c : Char) (l : List Char) :
    cells (c :: l) = List.replicate (cellWidth c) (shown c) ++ cells l := by
  unfold cells cellWidth shown
  rw [List.flatMap_cons]
  split <;> rfl

/-- Each cell shows the character in its column. -/
theorem exists_of_columnsFrom {i : Nat} (h : (columnsFrom column l)[i]? = some k) :
    ∃ c, column ≤ k ∧ l[k - column]? = some c ∧ (cells l)[i]? = some (shown c) := by
  induction l generalizing column i with
  | nil => cases h
  | cons c l ih =>
    rw [columnsFrom] at h
    rw [cells_cons]
    by_cases hi : i < cellWidth c
    · rw [List.getElem?_append_left (by rwa [List.length_replicate]),
        List.getElem?_replicate_of_lt hi] at h
      cases h
      refine ⟨c, Nat.le_refl _, by rw [Nat.sub_self]; rfl, ?_⟩
      rw [List.getElem?_append_left (by rwa [List.length_replicate]),
        List.getElem?_replicate_of_lt hi]
    · rw [List.getElem?_append_right (by rw [List.length_replicate]; omega),
        List.length_replicate] at h
      obtain ⟨d, hk, hd, hcell⟩ := ih h
      refine ⟨d, by omega, ?_, ?_⟩
      · rw [show k - column = (k - (column + 1)) + 1 by omega, List.getElem?_cons_succ]
        exact hd
      · rw [List.getElem?_append_right (by rw [List.length_replicate]; omega),
          List.length_replicate]
        exact hcell

/-- Each character has a cell. -/
theorem mem_columnsFrom (column : Nat) {i : Nat} (h : l[i]? = some c) :
    column + i ∈ columnsFrom column l := by
  induction l generalizing column i with
  | nil => cases h
  | cons d l ih =>
    rw [columnsFrom, List.mem_append]
    cases i with
    | zero =>
      refine .inl (List.mem_replicate.2 ⟨?_, rfl⟩)
      unfold cellWidth tabWidth
      split <;> decide
    | succ i =>
      rw [List.getElem?_cons_succ] at h
      rw [show column + (i + 1) = column + 1 + i by omega]
      exact .inr (ih (column + 1) h)

-- Sums are those of the core library, as in the definition of a quotation.
attribute [local instance (high)] Zero.ofOfNat0

/-- As many cells as the characters in front of it take stand in front of the first cell of a
character. -/
theorem idxOf_columnsFrom (column k : Nat) (l : List Char) :
    (columnsFrom column l).idxOf (column + k) = ((l.take k).map cellWidth).sum := by
  induction l generalizing column k with
  | nil => rw [List.take_nil]; rfl
  | cons c l ih =>
    have hwidth : cellWidth c = cellWidth c - 1 + 1 := by
      unfold cellWidth tabWidth
      split <;> rfl
    rw [columnsFrom]
    cases k with
    | zero =>
      rw [hwidth, List.replicate_succ, List.cons_append, Nat.add_zero, List.idxOf_cons_self]
      rfl
    | succ k =>
      have hno : column + (k + 1) ∉ List.replicate (cellWidth c) column := by
        intro hmem
        have := List.eq_of_mem_replicate hmem
        omega
      rw [List.idxOf_append_of_notMem hno, List.length_replicate,
        show column + (k + 1) = column + 1 + k by omega, ih, List.take_succ_cons, List.map_cons,
        List.sum_cons]

theorem length_cells (l : List Char) : (cells l).length = (l.map cellWidth).sum := by
  induction l with
  | nil => rfl
  | cons c l ih =>
    rw [cells_cons, List.length_append, List.length_replicate, ih, List.map_cons, List.sum_cons]

end

/-! ## Quotations -/

/-- What stands in front of a quoted line. -/
def margin (line : Nat) : List Char := (Text.padLeft 4 (toString line)).toList

/-- What parts the margin from what is quoted. -/
def bar : List Char := [' ', '|', ' ']

/-- The two lines quote the given line of a text and mark a column of it. -/
structure IsQuote (l : List Char) (line column width : Nat) (top bottom : List Char) : Prop where
  /-- The margin ends with the number of the line. -/
  number : (toString line).toList <:+ margin line
  echo : top = margin line ++ bar ++ cells l
  /-- The margin below is a blank one of the same length. -/
  marks : ∃ k, bottom = List.replicate (margin line).length ' ' ++ bar ++ List.replicate k ' ' ++
    List.replicate (max width 1) '^'
  carets : bottom.count '^' = max width 1
  /-- The first caret stands under the first cell of the character in the column. -/
  under : ∀ c, l[column - 1]? = some c →
    bottom.idxOf '^' = (margin line).length + bar.length + (columnsFrom 1 l).idxOf column ∧
      (columnsFrom 1 l)[(columnsFrom 1 l).idxOf column]? = some column ∧
      top[bottom.idxOf '^']? = some (shown c)
  behind : l.length < column → bottom.idxOf '^' = top.length

section

-- Sums are those of the core library, as in the definition of a quotation.
attribute [local instance (high)] Zero.ofOfNat0

variable {source s : String} {line column width : Nat} {l : List Char}

theorem toList_padLeft (width : Nat) (s : String) :
    (Text.padLeft width s).toList = List.replicate (width - s.length) ' ' ++ s.toList := by
  rw [Text.padLeft, String.toList_append, String.toList_ofList]

theorem newline_not_mem_margin (line : Nat) : '\n' ∉ margin line := by
  rw [margin, toList_padLeft, List.mem_append, not_or]
  refine ⟨fun h => ?_, fun h => ?_⟩
  · cases List.eq_of_mem_replicate h
  · cases (isNumeral_toString line).1.2 _ h

theorem newline_not_mem_cells (h : '\n' ∉ l) : '\n' ∉ cells l := by
  induction l with
  | nil => exact List.not_mem_nil
  | cons c l ih =>
    rw [List.mem_cons, not_or] at h
    rw [cells_cons, List.mem_append, not_or]
    refine ⟨fun hmem => ?_, ih h.2⟩
    have hshown := List.eq_of_mem_replicate hmem
    unfold shown at hshown
    split at hshown
    · cases hshown
    · exact h.1 hshown

theorem snippet?_eq (source : String) (line column width : Nat) :
    snippet? source line column width =
      if line = 0 then none
      else (Text.visibleLines source)[line - 1]?.map fun l => String.ofList
        (margin line ++ bar ++ cells l ++ '\n' :: (List.replicate (margin line).length ' ' ++ bar ++
          List.replicate ((l.take (column - 1)).map cellWidth).sum ' ' ++
            List.replicate (max width 1) '^')) := by
  unfold snippet?
  by_cases h : line = 0
  · rw [if_pos h, if_pos h]
    rfl
  · rw [if_neg h, if_neg h]
    cases (Text.visibleLines source)[line - 1]? with
    | none => rfl
    | some l =>
      refine congrArg some (String.toList_injective ?_)
      simp [margin, bar, String.length_toList]

/-- Where carets stand behind blanks. -/
theorem idxOf_caret {front : List Char} (h : '^' ∉ front) (width : Nat) :
    (front ++ List.replicate (max width 1) '^').idxOf '^' = front.length := by
  rw [List.idxOf_append_of_notMem h, show max width 1 = max width 1 - 1 + 1 by omega,
    List.replicate_succ, List.idxOf_cons_self, Nat.add_zero]

theorem isQuote_of_offset (l : List Char) (line width : Nat) {column : Nat} (hcolumn : 1 ≤ column) :
    IsQuote l line column width (margin line ++ bar ++ cells l)
      (List.replicate (margin line).length ' ' ++ bar ++
        List.replicate ((l.take (column - 1)).map cellWidth).sum ' ' ++
          List.replicate (max width 1) '^') := by
  have hfront : '^' ∉ List.replicate (margin line).length ' ' ++ bar ++
      List.replicate ((l.take (column - 1)).map cellWidth).sum ' ' := by
    rw [List.mem_append, List.mem_append, not_or, not_or]
    refine ⟨⟨fun h => ?_, by decide⟩, fun h => ?_⟩
    · cases List.eq_of_mem_replicate h
    · cases List.eq_of_mem_replicate h
  have hfirst : (columnsFrom 1 l).idxOf column = ((l.take (column - 1)).map cellWidth).sum := by
    rw [← idxOf_columnsFrom 1 (column - 1) l, Nat.add_sub_cancel' hcolumn]
  have hcaret := idxOf_caret hfront width
  rw [List.length_append, List.length_append, List.length_replicate,
    List.length_replicate] at hcaret
  refine ⟨?_, rfl, ⟨_, rfl⟩, ?_, fun c hc => ?_, fun hlong => ?_⟩
  · rw [margin, toList_padLeft]
    exact List.suffix_append _ _
  · rw [List.count_append, List.count_eq_zero.2 hfront, List.count_replicate_self, Nat.zero_add]
  · have hmem : column ∈ columnsFrom 1 l := by
      have hat := mem_columnsFrom 1 hc
      rwa [Nat.add_sub_cancel' hcolumn] at hat
    have howner : (columnsFrom 1 l)[(columnsFrom 1 l).idxOf column]? = some column :=
      List.getElem?_idxOf hmem
    obtain ⟨d, -, hd, hcell⟩ := exists_of_columnsFrom howner
    obtain rfl : d = c := Option.some.inj (hd.symm.trans hc)
    refine ⟨by rw [hcaret, hfirst], howner, ?_⟩
    rw [hcaret, ← hfirst, ← List.length_append, List.getElem?_append_right (Nat.le_add_right _ _),
      Nat.add_sub_cancel_left]
    exact hcell
  · rw [hcaret, List.take_of_length_le (by omega), ← length_cells, List.length_append,
      List.length_append]

end

/-- A line of a text is quoted exactly if the text has it. The quotation has two lines. The first
one holds the cells of the line; the second one holds the carets, the first of them under the first
cell of the character in the column, or behind the last cell if the line is not that long. -/
theorem snippet?_exact (source : String) (line width : Nat) {column : Nat} (hcolumn : 1 ≤ column) :
    (snippet? source line column width = none ↔
      line = 0 ∨ Text.lineCount source.toList < line) ∧
    ∀ s, snippet? source line column width = some s → ∃ l top bottom,
      (Text.visibleLines source)[line - 1]? = some l ∧
      Text.splitLines s.toList = [top, bottom] ∧ IsQuote l line column width top bottom := by
  have hlength : (Text.visibleLines source).length = Text.lineCount source.toList :=
    Text.length_endLines_splitLines source.toList
  rw [snippet?_eq]
  by_cases hline : line = 0
  · rw [if_pos hline]
    exact ⟨iff_of_true rfl (.inl hline), fun s h => nomatch h⟩
  rw [if_neg hline, Option.map_eq_none_iff, List.getElem?_eq_none_iff, hlength]
  refine ⟨by omega, fun s h => ?_⟩
  obtain ⟨l, hl, rfl⟩ := Option.map_eq_some_iff.1 h
  have hquote := isQuote_of_offset l line width hcolumn
  refine ⟨l, _, _, hl, ?_, hquote⟩
  have hnewline : '\n' ∉ l := Text.not_mem_of_mem_visibleLines (List.mem_of_getElem? hl)
  rw [String.toList_ofList, Text.splitLines_append, Text.splitLines_of_not_mem]
  · simp only [List.mem_append, not_or]
    refine ⟨⟨⟨fun h => ?_, by decide⟩, fun h => ?_⟩, fun h => ?_⟩
    all_goals cases List.eq_of_mem_replicate h
  · rw [List.mem_append, List.mem_append, not_or, not_or]
    exact ⟨⟨newline_not_mem_margin line, by decide⟩, newline_not_mem_cells hnewline⟩

/-- The carets under a word behind a tab. -/
theorem snippet?_exact_tab :
    let source := "entity Task:\n\ttitle: str(200) requried\r\n"
    1 ≤ 18 ∧ (∃ s, snippet? source 2 18 3 = some s) ∧ snippet? source 3 18 3 = none ∧
      ∀ s, snippet? source 2 18 3 = some s → ∃ l top bottom,
        (Text.visibleLines source)[1]? = some l ∧ l[17]? = some 'r' ∧
        Text.splitLines s.toList = [top, bottom] ∧ bottom.count '^' = 3 ∧
        top[bottom.idxOf '^']? = some 'r' := by
  intro source
  have hcolumn : 1 ≤ 18 := by decide
  obtain ⟨hnone, hsome⟩ := snippet?_exact source 2 3 hcolumn
  have hshort : Text.lineCount source.toList < 3 := by decide +kernel
  refine ⟨hcolumn, ?_, (snippet?_exact source 3 3 hcolumn).1.2 (.inr hshort), fun s h => ?_⟩
  · refine Option.ne_none_iff_exists'.1 fun h => ?_
    have hno : ¬ (2 = 0 ∨ Text.lineCount source.toList < 2) := by decide +kernel
    exact hno (hnone.1 h)
  · obtain ⟨l, top, bottom, hl, hlines, hquote⟩ := hsome s h
    have hr : l[17]? = some 'r' := by
      have hat : ((Text.visibleLines source)[1]?.bind (·[17]?)) = some 'r' := by decide +kernel
      rwa [hl] at hat
    exact ⟨l, top, bottom, hl, hr, hlines, hquote.carets, (hquote.under 'r' hr).2.2⟩

end Blueprint
