import Blueprint.Proofs.Printed.Durations

/-!
# The two spellings of a duration

A duration may be spelled compactly, as in `7d`, or as a number and the name of its unit, as in
`7 days`. The compact spelling is read with an amount of 64 bits, the other one with a count of 32
bits. So they agree on every amount but those in between (`duration_spellings`).
-/

namespace Blueprint

/-! ## Names of units -/

/-- What names a unit is a word. -/
theorem DurationUnit.isWord_of_ofWord? {w : String} {u : DurationUnit}
    (h : DurationUnit.ofWord? w = some u) : IsWord w.toList := by
  have hsuffix : ∀ s ∈ Lexeme.durationUnits, IsWord s.toList := by decide
  unfold ofWord? at h
  split at h <;> first
    | exact hsuffix _ (exists_ofSuffix?_iff.1 ⟨u, h⟩)
    | decide

/-- A number and a word behind it. -/
def SpelledOut (n w : String) (ts : List Token) : Prop :=
  ∃ ns ws, ts = ns ++ ws ∧ IsToken .number n ns ∧ WordWritten w ws

theorem isLineOf_spelledOut {n w : String} {u : DurationUnit} (hn : IsNumeral n.toList)
    (hu : DurationUnit.ofWord? w = some u) : IsLineOf (SpelledOut n w) (n ++ " " ++ w) := by
  have hnumber := Lexer.Scans.number (s := n) (.inl hn)
  have hscan := hnumber.append (Lexer.Scans.word (DurationUnit.isWord_of_ofWord? hu)).blank
    fun rest _ => .cons (by decide) (by decide) _
  have htext : (n ++ " " ++ w).toList = n.toList ++ ' ' :: w.toList := by
    rw [String.toList_append, String.toList_append, List.append_assoc]
    rfl
  obtain ⟨c, cs, hcs, hdigit⟩ := exists_digit_of_number (.inl hn)
  have hfirst : (n ++ " " ++ w).toList = c :: (cs ++ ' ' :: w.toList) := by
    rw [htext, hcs, List.cons_append]
  rw [← htext] at hscan
  refine isLineOf_of_scans ⟨c, _, hfirst, visible_of hdigit (by decide)⟩ hscan nofun ?_
  rintro us ⟨ns, ws, rfl, hns, hws⟩
  exact (hns.closesBrackets rfl).append hws.closesBrackets

/-! ## Amounts that are read, and others -/

namespace Parser

variable {α : Type} {p : Parser α} {text text' : String} {v : α}

/-- The text is a line whose tokens the parser does not read. -/
def Refuses (p : Parser α) (text : String) : Prop :=
  ∀ file inModule, ∃ us newline final, newline.kind = .newline ∧ final.kind = .endOfFile ∧
    tokenize file text = .ok (us ++ [newline, final]) ∧
    ∃ e, p ⟨file, inModule, final⟩ (us ++ [newline]) = .error e

/-- The parser reads both lines as the same value, or neither of them. -/
def ReadsAlike (p : Parser α) (text text' : String) : Prop :=
  (p.Refuses text ∧ p.Refuses text') ∨ ∃ v, p.ReadsBack text v ∧ p.ReadsBack text' v

theorem refuses_of_line {W : List Token → Prop} (h : IsLineOf W text)
    (hread : ∀ scope us newline r, W us → p scope (us ++ [newline]) ≠ .ok r) : p.Refuses text := by
  intro file inModule
  obtain ⟨us, newline, final, hus, hn, hf, htokens⟩ := h file
  refine ⟨us, newline, final, hn, hf, htokens, ?_⟩
  cases he : p ⟨file, inModule, final⟩ (us ++ [newline]) with
  | error e => exact ⟨e, rfl⟩
  | ok r => exact absurd he (hread _ us newline r hus)

/-- No line is both read and refused. -/
theorem Refuses.not_readsBack (h : p.Refuses text) : ¬ p.ReadsBack text v := by
  intro h'
  obtain ⟨us, newline, final, -, -, htokens, e, hread⟩ := h "" none
  obtain ⟨us', newline', final', -, -, htokens', hread'⟩ := h' "" none
  obtain ⟨rfl, rfl, rfl⟩ := eq_of_tokenize_line htokens htokens'
  rw [hread] at hread'
  cases hread'

variable {n w : String} {u : DurationUnit} {scope : Scope} {us : List Token}
  {r : Duration × List Token}

theorem duration_of_spelledOut (h : SpelledOut n w us) (hn : IsNumeral n.toList)
    (hu : DurationUnit.ofWord? w = some u) (hlt : Text.digitsValue n.toList < Text.countBound)
    (rest : List Token) :
    duration scope (us ++ rest) = .ok (⟨Text.digitsValue n.toList, u⟩, rest) := by
  obtain ⟨_, _, rfl, ⟨t, rfl, ht, rfl⟩, s, hs, rfl⟩ := h
  have hbound : Text.countBound < Text.amountBound := by decide
  exact duration_of_written (.spelledOut ht hn rfl hlt hs.isWord (hs.text ▸ hu))
    (Nat.lt_trans hlt hbound) rest

/-- The amount is read first, and refused if it is no count. -/
theorem duration_ne_ok_of_spelledOut (h : SpelledOut n w us) (hn : IsNumeral n.toList)
    (hle : Text.countBound ≤ Text.digitsValue n.toList) (rest : List Token) :
    duration scope (us ++ rest) ≠ .ok r := by
  obtain ⟨_, _, rfl, ⟨t, rfl, ht, rfl⟩, s, hs, rfl⟩ := h
  intro hread
  have hnot : ¬ (t.kind == .duration) = true := by
    rw [ht]
    decide
  have hword : (t.kind == .number && s.isWord) = true := by
    rw [ht, hs.isWord]
    rfl
  have hnone : Text.natural? Text.countBound t.text.toList = none :=
    hn.natural?_eq_ite.trans (if_neg (Nat.not_lt.2 hle))
  unfold duration at hread
  rw [List.singleton_append, List.cons_append, bind_eq_ok (current_apply _ _), head_cons,
    if_neg hnot, bind_eq_ok (peek_one_apply _ _), List.tail_cons, List.singleton_append, head_cons,
    if_pos hword] at hread
  obtain ⟨amount, mid, hcount, -⟩ := bind_eq_ok_iff.1 hread
  unfold count at hcount
  rw [bind_eq_ok (expect_of_eq ht), hnone] at hcount
  exact failAt_ne_ok hcount

/-- A compact duration is refused if its amount is too great. -/
theorem duration_ne_ok_of_compact {text : String} (h : IsToken .duration text us)
    (hnone : Duration.parse? text = none) (rest : List Token) :
    duration scope (us ++ rest) ≠ .ok r := by
  obtain ⟨t, rfl, ht, rfl⟩ := h
  intro hread
  unfold duration at hread
  rw [List.singleton_append, bind_eq_ok (current_apply _ _), head_cons, if_pos (beq_iff_eq.2 ht),
    bind_eq_ok (advance_apply _ _), hnone] at hread
  exact failAt_ne_ok hread

end Parser

/-! ## Where the spellings agree -/

section

variable {n w : String} {u : DurationUnit}

theorem isAmount_compact (hn : IsNumeral n.toList) (u : DurationUnit) :
    IsAmount (n ++ u.suffix) n.toList u.suffix :=
  ⟨String.toList_append, hn, u.suffix_mem_durationUnits⟩

theorem readsBack_spelledOut (hn : IsNumeral n.toList) (hu : DurationUnit.ofWord? w = some u)
    (hlt : Text.digitsValue n.toList < Text.countBound) :
    Parser.duration.ReadsBack (n ++ " " ++ w) ⟨Text.digitsValue n.toList, u⟩ :=
  Parser.readsBack_of_line (isLineOf_spelledOut hn hu) fun _ _ newline hus _ =>
    Parser.duration_of_spelledOut hus hn hu hlt [newline]

theorem refuses_spelledOut (hn : IsNumeral n.toList) (hu : DurationUnit.ofWord? w = some u)
    (hle : Text.countBound ≤ Text.digitsValue n.toList) :
    Parser.duration.Refuses (n ++ " " ++ w) :=
  Parser.refuses_of_line (isLineOf_spelledOut hn hu) fun _ _ newline _ hus =>
    Parser.duration_ne_ok_of_spelledOut hus hn hle [newline]

theorem readsBack_compact (hn : IsNumeral n.toList) (u : DurationUnit)
    (hlt : Text.digitsValue n.toList < Text.amountBound) :
    Parser.duration.ReadsBack (n ++ u.suffix) ⟨Text.digitsValue n.toList, u⟩ := by
  refine Parser.readsBack_of_line (isAmount_compact hn u).isLineOf ?_
  rintro scope us newline ⟨t, rfl, hk, ht⟩ -
  have hcompact : Duration.IsCompact ⟨Text.digitsValue n.toList, u⟩ t :=
    ⟨hk, _, _, ht ▸ (isAmount_compact hn u).toList, hn, rfl, DurationUnit.ofSuffix?_suffix u⟩
  exact Parser.duration_of_isCompact hcompact hlt [newline]

theorem refuses_compact (hn : IsNumeral n.toList) (u : DurationUnit)
    (hle : Text.amountBound ≤ Text.digitsValue n.toList) :
    Parser.duration.Refuses (n ++ u.suffix) := by
  have hnone : Duration.parse? (n ++ u.suffix) = none := by
    obtain ⟨_, -, hparse⟩ := Duration.parse?_of_isAmount (isAmount_compact hn u)
    rw [hparse, if_neg (Nat.not_lt.2 hle)]
  exact Parser.refuses_of_line (isAmount_compact hn u).isLineOf fun _ _ newline _ hus =>
    Parser.duration_ne_ok_of_compact hus hnone [newline]

/-- A number with the name of a unit, and the same number with the suffix of the unit, are lines
that are read as the same duration if the number is a count; they are both refused if it has more
than 64 bits. In between, only the compact spelling is read. -/
theorem duration_spellings (hn : IsNumeral n.toList) (hu : DurationUnit.ofWord? w = some u) :
    (Parser.duration.ReadsAlike (n ++ " " ++ w) (n ++ u.suffix) ↔
      Text.digitsValue n.toList < Text.countBound ∨
        Text.amountBound ≤ Text.digitsValue n.toList) ∧
    (Text.digitsValue n.toList < Text.countBound →
      Parser.duration.ReadsBack (n ++ " " ++ w) ⟨Text.digitsValue n.toList, u⟩) ∧
    (Text.countBound ≤ Text.digitsValue n.toList → Parser.duration.Refuses (n ++ " " ++ w)) ∧
    (Text.digitsValue n.toList < Text.amountBound →
      Parser.duration.ReadsBack (n ++ u.suffix) ⟨Text.digitsValue n.toList, u⟩) ∧
    (Text.amountBound ≤ Text.digitsValue n.toList → Parser.duration.Refuses (n ++ u.suffix)) := by
  have hbound : Text.countBound < Text.amountBound := by decide
  refine ⟨⟨?_, ?_⟩, readsBack_spelledOut hn hu, refuses_spelledOut hn hu, readsBack_compact hn u,
    refuses_compact hn u⟩
  · rintro (⟨-, hcompact⟩ | ⟨d, hspelled, -⟩)
    · refine .inr (Nat.not_lt.1 fun hlt => ?_)
      exact hcompact.not_readsBack (readsBack_compact hn u hlt)
    · refine .inl (Nat.not_le.1 fun hle => ?_)
      exact (refuses_spelledOut hn hu hle).not_readsBack hspelled
  · rintro (hlt | hle)
    · exact .inr ⟨_, readsBack_spelledOut hn hu hlt,
        readsBack_compact hn u (Nat.lt_trans hlt hbound)⟩
    · exact .inl ⟨refuses_spelledOut hn hu (Nat.le_trans (Nat.le_of_lt hbound) hle),
        refuses_compact hn u hle⟩

end

/-- Seven days are read alike, with a zero in front of the amount. -/
theorem duration_spellings_week :
    DurationUnit.ofWord? "days" = some .days ∧ Parser.duration.ReadsAlike "07 days" "07d" := by
  have hn : IsNumeral "07".toList := by decide
  exact ⟨rfl, (duration_spellings hn (w := "days") (u := .days) rfl).1.2 (.inl (by decide))⟩

/-- The least number of more than 32 bits is an amount of seconds in front of the suffix only. -/
theorem duration_spellings_differ :
    IsNumeral "4294967296".toList ∧ DurationUnit.ofWord? "seconds" = some .seconds ∧
      ¬ Parser.duration.ReadsAlike "4294967296 seconds" "4294967296s" := by
  have hn : IsNumeral "4294967296".toList := by decide
  have hspelled : Parser.duration.Refuses "4294967296 seconds" :=
    refuses_spelledOut hn (w := "seconds") (u := .seconds) rfl (by decide)
  have hcompact : Parser.duration.ReadsBack "4294967296s" ⟨4294967296, .seconds⟩ :=
    readsBack_compact hn .seconds (by decide)
  refine ⟨hn, rfl, ?_⟩
  rintro (⟨-, hno⟩ | ⟨d, hread, -⟩)
  · exact hno.not_readsBack hcompact
  · exact hspelled.not_readsBack hread

end Blueprint
