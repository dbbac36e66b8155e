import Blueprint.Proofs.Printed.Strings

/-!
# Printed constants

A constant that was read off a text is read back from its print, unless it is a string that does not
stand for itself between quotes (`literals_printed`): the print puts quotes around a string and
escapes nothing in it. A whole number is read with any number of zeros in front, and exactly if it
has 64 bits. The least one is not the negative of another: it is in reach since the sign, a token of
its own, is read together with the digits.
-/

namespace Blueprint

namespace Literal

/-- A string stands for itself between quotes. -/
def IsVerbatim : Literal → Prop
  | string s => Text.IsVerbatim s.toList
  | _ => True

/-- The number has 64 bits. -/
def InRange (n : Int) : Prop := -(Text.integerBound : Int) ≤ n ∧ n < Text.integerBound

instance : DecidablePred InRange := fun _ => instDecidableAnd

/-- Digits, with or without a minus sign, and the number they denote. -/
inductive IsSpelling : String → Int → Prop where
  | natural {s : String} (hs : IsNumeral s.toList) : IsSpelling s (Text.digitsValue s.toList)
  | negative {s : String} (hs : IsNumeral s.toList) :
    IsSpelling ("-" ++ s) (-Text.digitsValue s.toList)

/-- The tokens of such a spelling, with the text they make up. -/
inductive SpelledInteger : String → Int → List Token → Prop where
  | natural {s : String} {ts : List Token} (hs : IsNumeral s.toList) (h : IsToken .number s ts) :
    SpelledInteger s (Text.digitsValue s.toList) ts
  | negative {s : String} {ts : List Token} (hs : IsNumeral s.toList) (h : IsNegated s ts) :
    SpelledInteger ("-" ++ s) (-Text.digitsValue s.toList) ts

variable {l : Literal} {n : Int} {s text : String} {ts : List Token}

theorem SpelledInteger.written (h : SpelledInteger text n ts) : (integer n).Written ts := by
  cases h with
  | natural hs h =>
    obtain ⟨t, rfl, ht, rfl⟩ := h
    exact .natural ht hs
  | negative hs h =>
    obtain ⟨m, t, rfl, hm, ht, rfl⟩ := h
    exact .negative hm ht hs

/-- A printed number is a spelling of it. -/
theorem isSpelling_toString (n : Int) : IsSpelling (toString n) n := by
  cases n with
  | ofNat n =>
    obtain ⟨hnumeral, hvalue⟩ := isNumeral_toString n
    have h := IsSpelling.natural hnumeral
    rwa [hvalue] at h
  | negSucc n =>
    obtain ⟨hnumeral, hvalue⟩ := isNumeral_toString (n + 1)
    have h := IsSpelling.negative hnumeral
    rwa [hvalue] at h

/-! ## What can be read -/

/-- A number is read with 64 bits only. -/
theorem writable_of_ofNumber? (hs : IsNumeral s.toList ∨ IsDecimal s.toList)
    (htext : text = s ∨ text = "-" ++ s) (h : ofNumber? text = some l) : l.Writable := by
  rcases hs with hs | hs
  · rcases htext with rfl | rfl
    · rw [ofNumber?_eq_map hs, Option.map_eq_some_iff] at h
      obtain ⟨n, hn, rfl⟩ := h
      have hlt := Text.lt_of_natural? hn
      exact ⟨by omega, by omega⟩
    · rw [ofNumber?_minus_eq_map hs, Option.map_eq_some_iff] at h
      obtain ⟨n, hn, rfl⟩ := h
      have hlt := Text.lt_of_natural? hn
      have hpos : 0 < Text.integerBound := by decide
      exact ⟨by omega, by omega⟩
  · have hpoint : '.' ∈ text.toList := by
      obtain ⟨whole, part, hs, -⟩ := hs
      have hpoint : '.' ∈ s.toList := hs ▸ List.mem_append_right _ List.mem_cons_self
      rcases htext with rfl | rfl
      · exact hpoint
      · rw [String.toList_append]
        exact List.mem_append_right _ hpoint
    rw [ofNumber?_of_point hpoint] at h
    cases h
    exact ⟨s, hs, htext⟩

end Literal

namespace Parser

theorem draws_literal : Draws Token.IsGenuine literal Literal.Writable := by
  refine Draws.current.bind fun t _ => ?_
  split
  · exact Draws.advance.bind fun _ _ => .pure trivial
  · refine Draws.numberText.bind fun text htext => ?_
    obtain ⟨s, hs, htext⟩ := htext
    split
    · next hl => exact .pure (Literal.writable_of_ofNumber? hs htext hl)
    · exact .of_never failAt_ne_ok
  · refine Draws.numberText.bind fun text htext => ?_
    obtain ⟨s, hs, htext⟩ := htext
    split
    · next hl => exact .pure (Literal.writable_of_ofNumber? hs htext hl)
    · exact .of_never failAt_ne_ok
  · exact Draws.advance.bind fun _ _ => .pure trivial
  · exact Draws.advance.bind fun _ _ => .pure trivial
  · exact Draws.advance.bind fun _ _ => .pure trivial
  · exact .of_never unexpected_ne_ok

/-- A numeral is read with its sign if it has 64 bits, and else refused where it starts. -/
theorem literal_of_spelled {text : String} {n : Int} {ts : List Token}
    (h : Literal.SpelledInteger text n ts) (scope : Scope) (rest : List Token) :
    literal scope (ts ++ rest) = if Literal.InRange n then .ok (.integer n, rest)
      else .error
        { location := scope.locate (head scope ts), fault := .numberOutOfRange text } := by
  split
  · next hn => exact literal_of_written h.written hn rest
  · next hn =>
    unfold Literal.InRange at hn
    cases h with
    | natural hs h =>
      obtain ⟨t, rfl, ht, rfl⟩ := h
      have hnone : Literal.ofNumber? t.text = none := by
        rw [Literal.ofNumber?_eq_map hs, hs.natural?_eq_ite, if_neg (by omega)]
        rfl
      have hhead : (head scope ([t] ++ rest)).kind = .number := ht
      have hread := literal_eq_of_numberText (.inl hhead) (numberText_of_number ht rest)
      rwa [hnone] at hread
    | negative hs h =>
      obtain ⟨m, t, rfl, hm, ht, rfl⟩ := h
      have hnone : Literal.ofNumber? ("-" ++ t.text) = none := by
        have hpos : 0 < Text.integerBound := by decide
        rw [Literal.ofNumber?_minus_eq_map hs, hs.natural?_eq_ite, if_neg (by omega)]
        rfl
      have hhead : (head scope ([m, t] ++ rest)).kind = .minus := hm
      have hread := literal_eq_of_numberText (.inr hhead) (numberText_of_minus hm ht rest)
      rwa [hnone] at hread

end Parser

/-! ## What is printed is a line -/

namespace Literal

variable {l : Literal} {n : Int} {s text : String} {ts : List Token}

/-- A number is a line of its own, with or without a minus sign. -/
theorem isLineOf_number (hs : IsNumeral s.toList ∨ IsDecimal s.toList) :
    IsLineOf (IsToken .number s) s ∧ IsLineOf (IsNegated s) ("-" ++ s) := by
  constructor
  · obtain ⟨c, cs, hcs, hc⟩ := exists_digit_of_number hs
    exact isLineOf_of_scans ⟨c, cs, hcs, visible_of hc (by decide)⟩ (.number hs) .nil
      fun _ hus => hus.closesBrackets rfl
  · refine isLineOf_of_scans ⟨'-', s.toList, String.toList_append, by decide, by decide⟩
      (.negated hs) .nil ?_
    rintro us ⟨m, t, rfl, hm, ht, -⟩
    exact .cons (by rw [hm]; rfl) (.cons (by rw [ht]; rfl) .nil)

theorem isLineOf_spelled (h : IsSpelling text n) : IsLineOf (SpelledInteger text n) text := by
  cases h with
  | natural hs => exact (isLineOf_number (.inl hs)).1.mono fun _ => .natural hs
  | negative hs => exact (isLineOf_number (.inl hs)).2.mono fun _ => .negative hs

/-- A word is a line of its own. -/
theorem isLineOf_word (hs : IsWord s.toList) : IsLineOf (WordWritten s) s := by
  refine isLineOf_of_scans ?_ (.word hs) nofun fun _ hus => hus.closesBrackets
  rw [← List.append_nil s.toList]
  exact hs.exists_first []

/-- The keyword of a constant is read as that. -/
theorem isLineOf_keyword {k : Keyword} (hs : IsWord s.toList) (hk : TokenKind.ofWord s = .keyword k)
    (hl : ∀ t : Token, t.kind = .keyword k → l.Written [t]) : IsLineOf l.Written s := by
  refine (isLineOf_word hs).mono ?_
  rintro us ⟨t, ht, rfl⟩
  exact hl t (ht.kind.trans hk)

/-- The print of a constant is a line of the tokens that write it. -/
theorem Writable.isLineOf (h : l.Writable) (hv : l.IsVerbatim) : IsLineOf l.Written l.render := by
  cases l with
  | string s =>
    refine (isLineOf_of_isVerbatim hv).mono ?_
    rintro us ⟨t, rfl, ht, rfl⟩
    exact .string ht
  | integer n => exact (isLineOf_spelled (isSpelling_toString n)).mono fun _ hus => hus.written
  | decimal text =>
    obtain ⟨s, hs, rfl | rfl⟩ := h
    · refine (isLineOf_number (.inr hs)).1.mono ?_
      rintro us ⟨t, rfl, ht, rfl⟩
      exact .decimal ht hs
    · refine (isLineOf_number (.inr hs)).2.mono ?_
      rintro us ⟨m, t, rfl, hm, ht, rfl⟩
      exact .negativeDecimal hm ht hs
  | boolean b =>
    cases b with
    | true => exact isLineOf_keyword (by decide) (by decide +kernel) fun _ => .true
    | false => exact isLineOf_keyword (by decide) (by decide +kernel) fun _ => .false
  | null => exact isLineOf_keyword (by decide) (by decide +kernel) fun _ => .null

theorem Writable.readsBack (h : l.Writable) (hv : l.IsVerbatim) :
    Parser.literal.ReadsBack l.render l :=
  Parser.readsBack_of_line (h.isLineOf hv) fun _ _ newline hus _ =>
    Parser.literal_of_written hus h [newline]

/-- No string is read back that does not stand for itself. -/
theorem isVerbatim_of_readsBack (h : Parser.literal.ReadsBack l.render l) : l.IsVerbatim := by
  cases l with
  | string s =>
    obtain ⟨us, newline, final, hn, -, htokens, hread⟩ := h "" none
    obtain ⟨-, content, -, rest, -, -, -, e⟩ :=
      exists_string_of_tokenize (toList_between_quotes s) htokens
    cases us with
    | nil =>
      cases e
      cases hn
    | cons t us =>
      cases e
      rw [List.cons_append, ← List.singleton_append,
        Parser.literal_of_written (.string rfl) trivial] at hread
      have hs := (Prod.mk.inj (Except.ok.inj hread)).1
      exact isVerbatim_of_tokenize htokens (string.inj hs)
  | _ => trivial

end Literal

/-! ## Reading back -/

/-- A constant that can be read off a text is read back from its print unless it is a string that
does not stand for itself between quotes, and then it is not. Every number of 64 bits is one that is
read back. Its spellings are lines that are read as it, and those of all other numbers are refused
where they start. -/
theorem literals_printed (l : Literal) (n : Int) (text : String) :
    (Parser.literal.CanReturn l → (Parser.literal.ReadsBack l.render l ↔ l.IsVerbatim)) ∧
    (Literal.InRange n → Parser.literal.ReadsBack (Literal.integer n).render (.integer n)) ∧
    (Literal.IsSpelling text n → IsLineOf (Literal.SpelledInteger text n) text ∧
      ∀ us, Literal.SpelledInteger text n us → ∀ scope rest, Parser.literal scope (us ++ rest) =
        if Literal.InRange n then .ok (.integer n, rest)
        else .error
          { location := scope.locate (Parser.head scope us),
            fault := .numberOutOfRange text }) := by
  refine ⟨fun hl => ⟨Literal.isVerbatim_of_readsBack, ?_⟩, fun hn => ?_, fun h => ?_⟩
  · exact (hl.drawn Parser.draws_literal).readsBack
  · exact Literal.Writable.readsBack hn trivial
  · exact ⟨Literal.isLineOf_spelled h, fun us hus => Parser.literal_of_spelled hus⟩

/-- A backslash in front of a letter, and the least number of 64 bits. -/
theorem literals_printed_least :
    let least : Int := -9223372036854775808
    (Parser.literal.CanReturn (.string "C:\\d") ∧
      Parser.literal.ReadsBack "\"C:\\d\"" (.string "C:\\d")) ∧
    (Literal.InRange least ∧
      Parser.literal.ReadsBack "-9223372036854775808" (.integer least)) ∧
    Literal.IsSpelling "-9223372036854775808" least ∧
      IsLineOf (Literal.SpelledInteger "-9223372036854775808" least) "-9223372036854775808" := by
  intro least
  have hstring : Parser.literal.CanReturn (.string "C:\\d") :=
    Parser.canReturn_of_tokenize "files.dsl" "\"C:\\\\d\"" (by decide +kernel)
  have hrange : Literal.InRange least := by decide
  have hspelled : Literal.IsSpelling "-9223372036854775808" least :=
    Literal.isSpelling_toString least
  have hverbatim : Text.IsVerbatim "C:\\d".toList :=
    .plain (by decide) (.plain (by decide) (.backslash (by decide) .nil))
  obtain ⟨hreads, hleast, hline⟩ := literals_printed (.string "C:\\d") least "-9223372036854775808"
  exact ⟨⟨hstring, (hreads hstring).2 hverbatim⟩, ⟨hrange, hleast hrange⟩, hspelled,
    (hline hspelled).1⟩

/-- A quote that was escaped ends the string in the print of it. -/
theorem literal_quote_lost : Parser.literal.CanReturn (.string "a\"b") ∧
    ¬ Parser.literal.ReadsBack (Literal.string "a\"b").render (.string "a\"b") := by
  refine ⟨Parser.canReturn_of_tokenize "order.dsl" "\"a\\\"b\"" (by decide +kernel), fun h => ?_⟩
  have hverbatim : Text.IsVerbatim "a\"b".toList := Literal.isVerbatim_of_readsBack h
  exact hverbatim.not_mem.1 (by decide)

end Blueprint
