import Blueprint.Proofs.Printed.ReadBack

/-!
# Printed durations and dates

A duration is printed as one token that is read as the same duration, and a date as a line of tokens
that is read as the same date (`durations_printed`). The units that may stand behind a number are
the suffixes that have a meaning (`exists_ofSuffix?_iff`); so the token of a duration fails to be
read only because its digits denote too great a number.
-/

namespace Blueprint

/-! ## Digits and a unit -/

namespace DurationUnit

/-- The lexer and the grammar know the same units. -/
theorem exists_ofSuffix?_iff {s : String} :
    (∃ u, ofSuffix? s = some u) ↔ s ∈ Lexeme.durationUnits := by
  constructor
  · rintro ⟨u, hu⟩
    unfold ofSuffix? at hu
    split at hu <;> first | decide | cases hu
  · intro hs
    have hknown : ∀ s ∈ Lexeme.durationUnits, (ofSuffix? s).isSome = true := by decide
    exact Option.isSome_iff_exists.1 (hknown s hs)

theorem suffix_mem_durationUnits (u : DurationUnit) : u.suffix ∈ Lexeme.durationUnits :=
  exists_ofSuffix?_iff.1 ⟨u, ofSuffix?_suffix u⟩

end DurationUnit

/-- The text is a numeral with a unit behind it. -/
structure IsAmount (text : String) (ds : List Char) (unit : String) : Prop where
  toList : text.toList = ds ++ unit.toList
  digits : IsNumeral ds
  unit : unit ∈ Lexeme.durationUnits

/-- A unit is made of letters, one at least. -/
theorem Lexeme.isAlpha_of_mem_durationUnits {unit : String} (h : unit ∈ durationUnits) :
    unit.toList ≠ [] ∧ ∀ c ∈ unit.toList, c.isAlpha = true := by
  have hunits : ∀ unit ∈ durationUnits,
      unit.toList ≠ [] ∧ unit.toList.all Char.isAlpha = true := by
    decide
  exact (hunits unit h).imp_right List.all_eq_true.1

/-- The digits end where the unit starts. -/
theorem IsAmount.cut {text unit : String} {ds : List Char} (h : IsAmount text ds unit)
    (rest : List Char) : (text.toList ++ rest).takeWhile Char.isDigit = ds ∧
      (text.toList ++ rest).dropWhile Char.isDigit = unit.toList ++ rest := by
  obtain ⟨hne, hletters⟩ := Lexeme.isAlpha_of_mem_durationUnits h.unit
  obtain ⟨c, cs, hunit⟩ := List.exists_cons_of_ne_nil hne
  have hdigit : ¬ c.isDigit = true := by
    have hc := hletters c (hunit ▸ List.mem_cons_self)
    rw [Text.isAlpha_iff] at hc
    rw [Text.isDigit_iff]
    omega
  rw [h.toList, List.append_assoc, List.takeWhile_append_of_pos h.digits.2,
    List.dropWhile_append_of_pos h.digits.2, hunit, List.cons_append,
    List.takeWhile_cons_of_neg hdigit, List.dropWhile_cons_of_neg hdigit]
  exact ⟨List.append_nil ds, rfl⟩

theorem IsAmount.takeWhile_eq {text unit : String} {ds : List Char} (h : IsAmount text ds unit) :
    text.toList.takeWhile Char.isDigit = ds := by
  have hcut := (h.cut []).1
  rwa [List.append_nil] at hcut

namespace Lexeme

variable {text unit : String} {c : Char} {cs ds rest : List Char} {l : Lexeme}

/-- The unit ends where the letters do. -/
theorem takeWhile_unit {p : Char → Bool} (hp : ∀ c, p c = (c.isAlphanum || c == '_'))
    (hunit : ∀ c ∈ cs, c.isAlpha = true) (hrest : EndsWord rest) :
    (cs ++ rest).takeWhile p = cs := by
  have hletter : ∀ c ∈ cs, p c = true := by
    intro c hc
    rw [hp]
    unfold Char.isAlphanum
    rw [hunit c hc]
    rfl
  have hcontinues : ∀ c, p c = true → Text.continuesWord c = true := by
    intro c hc
    rw [hp, Bool.or_eq_true, beq_iff_eq] at hc
    rcases hc with hc | rfl
    · unfold Char.isAlphanum at hc
      rw [Bool.or_eq_true] at hc
      exact hc.elim Text.continuesWord_of_isAlpha Text.continuesWord_of_isDigit
    · decide
  rw [List.takeWhile_append_of_pos hletter, hrest.takeWhile_eq hcontinues, List.append_nil]

theorem numeral_of_isAmount (h : IsAmount text ds unit) (hrest : EndsWord rest) :
    numeral (text.toList ++ rest) = .ok ⟨.duration, text, text.toList.length⟩ := by
  obtain ⟨hne, hletters⟩ := isAlpha_of_mem_durationUnits h.unit
  obtain ⟨htake, hdrop⟩ := h.cut rest
  obtain ⟨c, cs, hunit⟩ := List.exists_cons_of_ne_nil hne
  rw [hunit] at hletters hdrop
  have hc := hletters c List.mem_cons_self
  have htext : String.ofList (ds ++ (c :: cs)) = text := by
    rw [← hunit, ← h.toList, String.ofList_toList]
  unfold numeral
  rw [htake, hdrop, List.cons_append]
  split
  · next heq =>
    obtain ⟨rfl, -⟩ := List.cons.inj heq
    cases hc
  · next heq =>
    cases heq
    dsimp only
    rw [if_pos hc, ← List.cons_append, takeWhile_unit ?_ hletters hrest, htext, ← hunit,
      ← h.toList, String.ofList_toList, if_pos (List.contains_iff_mem.2 h.unit)]
    exact fun _ => rfl
  · next heq => cases heq

theorem exists_isAmount_of_numeral (hc : c.isDigit = true) (h : numeral (c :: cs) = .ok l)
    (hk : l.kind = .duration) : ∃ ds unit, IsAmount l.text ds unit := by
  have hwhole := isNumeral_takeWhile hc cs
  unfold numeral at h
  dsimp only at h
  split at h
  · split at h <;> (cases h; cases hk)
  · next c' rest hdrop =>
    split at h
    · split at h
      · next hunit =>
        cases h
        refine ⟨_, _, ?_, hwhole, List.contains_iff_mem.1 hunit⟩
        rw [String.toList_ofList, String.toList_ofList]
      · cases h
    · cases h
      cases hk
  · cases h
    cases hk

theorem exists_isAmount_of_read (h : read c cs = .ok l) (hk : l.kind = .duration) :
    ∃ ds unit, IsAmount l.text ds unit := by
  unfold read at h
  split at h
  · obtain ⟨_, -, h⟩ := Except.bind_eq_ok_iff.1 h
    cases h
    cases hk
  split at h
  · next hd => exact exists_isAmount_of_numeral hd h hk
  split at h
  · cases h
    unfold word at hk
    dsimp only at hk
    split at hk <;> cases hk
  split at h
  · next hs =>
    cases h
    unfold sign? at hs
    split at hs <;> cases hs <;> cases hk
  · cases h

end Lexeme

/-- The text of every duration among the tokens of a text is a numeral with a unit. -/
theorem exists_isAmount_of_tokenize {file text : String} {ts : List Token}
    (h : tokenize file text = .ok ts) :
    ∀ t ∈ ts, t.kind = .duration → ∃ ds unit, IsAmount t.text ds unit := by
  refine forall_of_tokenize (fun {t} ht _ hk => ?_) (fun hl => Lexeme.exists_isAmount_of_read hl) h
  rw [hk] at ht
  cases ht

theorem Lexer.Scans.duration {text unit : String} {ds : List Char} (h : IsAmount text ds unit) :
    Scans EndsWord text.toList (IsToken .duration text) := by
  have hnumeral : ∀ rest, EndsWord rest → Lexeme.numeral (text.toList ++ rest) =
      .ok ⟨.duration, text, text.toList.length⟩ := fun _ => Lexeme.numeral_of_isAmount h
  have hwithin : ∀ c ∈ text.toList, c ≠ '\n' ∧ c ≠ '\r' := by
    rw [h.toList, List.forall_mem_append]
    refine ⟨fun c hc => ?_, fun c hc => ?_⟩
    · have hdigit := h.digits.2 c hc
      constructor <;> (rintro rfl; cases hdigit)
    · have hletter := (Lexeme.isAlpha_of_mem_durationUnits h.unit).2 c hc
      constructor <;> (rintro rfl; cases hletter)
  obtain ⟨c, cs, hcs⟩ := List.exists_cons_of_ne_nil h.digits.1
  have hdigit := h.digits.2 c (hcs ▸ List.mem_cons_self)
  rw [h.toList, hcs, List.cons_append] at hnumeral hwithin ⊢
  refine of_read (visible_of hdigit (by decide)) hwithin fun rest hrest => ?_
  have hquote : c ≠ '"' := by
    rintro rfl
    cases hdigit
  unfold Lexeme.read
  rw [if_neg hquote, if_pos hdigit]
  exact hnumeral rest hrest

/-- A numeral with a unit is a line of one token. -/
theorem IsAmount.isLineOf {text unit : String} {ds : List Char} (h : IsAmount text ds unit) :
    IsLineOf (IsToken .duration text) text := by
  obtain ⟨c, cs, hcs, hdigit⟩ := exists_digit_of_number (.inl h.digits)
  have hfirst : text.toList = c :: (cs ++ unit.toList) := by
    rw [h.toList, hcs, List.cons_append]
  exact isLineOf_of_scans ⟨c, _, hfirst, visible_of hdigit (by decide)⟩ (.duration h) nofun
    fun _ hus => hus.closesBrackets rfl

/-! ## Durations -/

namespace Duration

variable {d : Duration}

theorem isAmount_render (d : Duration) :
    IsAmount d.render (toString d.amount).toList d.unit.suffix :=
  ⟨String.toList_append, (isNumeral_toString d.amount).1, d.unit.suffix_mem_durationUnits⟩

theorem isCompact_of_render {t : Token} (hk : t.kind = .duration) (ht : t.text = d.render) :
    d.IsCompact t where
  kind := hk
  text := ⟨_, _, ht ▸ d.isAmount_render.toList, d.isAmount_render.digits,
    (isNumeral_toString d.amount).2, DurationUnit.ofSuffix?_suffix d.unit⟩

/-- The print of a duration is scanned as its compact form. -/
theorem scans (d : Duration) :
    Lexer.Scans EndsWord d.render.toList (IsToken .duration d.render) :=
  .duration d.isAmount_render

theorem Writable.parse?_render (h : d.Writable) : parse? d.render = some d :=
  (isCompact_of_render (t := ⟨.duration, d.render, 0, 0⟩) rfl rfl).parse?_eq h

/-- A numeral with a unit is a duration unless it denotes too great a number. -/
theorem parse?_of_isAmount {text unit : String} {ds : List Char} (h : IsAmount text ds unit) :
    ∃ u, DurationUnit.ofSuffix? unit = some u ∧
      parse? text = if Text.digitsValue ds < Text.amountBound then some ⟨Text.digitsValue ds, u⟩
        else none := by
  obtain ⟨u, hu⟩ := DurationUnit.exists_ofSuffix?_iff.2 h.unit
  refine ⟨u, hu, ?_⟩
  rw [parse?_of_toList h.toList h.digits hu, h.digits.natural?_eq_ite]
  split <;> rfl

theorem millis_eq (d : Duration) :
    d.millis = if d.amount * d.unit.length < Text.amountBound then d.amount * d.unit.length
      else Text.amountBound - 1 := by
  unfold millis
  have hpos : 0 < Text.amountBound := by decide
  split <;> omega

theorem Written.closesBrackets {ts : List Token} (h : d.Written ts) : ClosesBrackets ts := by
  cases h with
  | compact h => exact .cons (by rw [h.kind]; rfl) .nil
  | @spelledOut n u hn _ _ _ hu =>
    have hword : u.kind.isBracket = false := by
      unfold Token.isWord at hu
      split at hu <;> first | (next hk => rw [hk]; rfl) | cases hu
    exact .cons (by rw [hn]; rfl) (.cons hword .nil)

end Duration

/-! ## Dates -/

namespace DateExpr

variable {e : DateExpr} {ts : List Token}

theorem Written.closesBrackets (h : e.Written ts) : ClosesBrackets ts := by
  cases h with
  | plain ht => exact .cons (by rw [ht]; rfl) .nil
  | @shifted anchor t sign d ts ht h =>
    obtain ⟨hs, h⟩ := h
    refine .cons (by rw [ht]; rfl) (.cons ?_ h.closesBrackets)
    rw [hs]
    cases sign <;> rfl

/-- The word of an anchor is read as its keyword. -/
theorem isWord_anchor (a : DateAnchor) :
    IsWord a.spelling.toList ∧ TokenKind.ofWord a.spelling = .keyword a.keyword := by
  cases a <;> decide +kernel

/-- The character of a sign, in front of a blank. -/
theorem scans_symbol (sign : OffsetSign) :
    Lexer.Scans (fun rest => rest.head? = some ' ') sign.symbol.toList (IsSign sign.kind) := by
  cases sign with
  | plus => exact .sign "+" (by decide) fun _ _ => rfl
  | minus =>
    refine Lexer.Scans.minus.weaken fun rest hrest => ?_
    rw [hrest]
    decide

/-- The print of a date is scanned as the tokens that write it. -/
theorem scans (e : DateExpr) : Lexer.Scans EndsWord e.render.toList e.Written := by
  obtain ⟨anchor, none | ⟨sign, d⟩⟩ := e
  · obtain ⟨hword, hkind⟩ := isWord_anchor anchor
    have htext : (DateExpr.mk anchor none).render = anchor.spelling := String.append_empty
    rw [htext]
    refine (Lexer.Scans.word hword).mono ?_
    rintro us ⟨t, ht, rfl⟩
    exact .plain (ht.kind.trans hkind)
  · obtain ⟨hword, hkind⟩ := isWord_anchor anchor
    have hshift := (scans_symbol sign).blank.append d.scans.blank fun _ _ => rfl
    have hscan := (Lexer.Scans.word hword).append hshift fun rest _ => .cons (by decide) _
    have htext : (DateExpr.mk anchor (some (sign, d))).render.toList =
        anchor.spelling.toList ++ (' ' :: sign.symbol.toList ++ ' ' :: d.render.toList) := by
      show (anchor.spelling ++ (" " ++ sign.symbol ++ " " ++ d.render)).toList = _
      simp only [String.toList_append, List.append_assoc]
      rfl
    rw [htext]
    refine hscan.mono ?_
    rintro us ⟨_, _, rfl, ⟨t, ht, rfl⟩, _, _, rfl, ⟨s, rfl, hs⟩, u, rfl, hk, hu⟩
    exact .shifted (ht.kind.trans hkind) (.mk hs (.compact (Duration.isCompact_of_render hk hu)))

theorem exists_first (e : DateExpr) :
    ∃ c cs, e.render.toList = c :: cs ∧ isBlank c = false ∧ c ≠ '#' := by
  unfold render
  rw [String.toList_append]
  exact (isWord_anchor e.anchor).1.exists_first _

theorem Writable.readsBack (h : e.Writable) : Parser.date.ReadsBack e.render e :=
  Parser.readsBack_of_line (isLineOf_of_scans e.exists_first e.scans nofun fun _ hus =>
    hus.closesBrackets) fun _ _ _ hus hn =>
      Parser.date_of_written hus h (Parser.endsValue_cons hn (by decide) [])

end DateExpr

/-! ## Reading back -/

/-- A duration of 64 bits is read back from its print, which is one token. The token of a duration
anywhere in a text is read if its digits denote a number of 64 bits, and only then, and printing and
reading it again keeps its length. This length is the exact product, or the greatest number of 64
bits if the product is greater. A date is read back from its print. -/
theorem durations_printed :
    (∀ d : Duration, d.Writable → Duration.parse? d.render = some d ∧
      IsLineOf (IsToken .duration d.render) d.render) ∧
    (∀ file text ts, tokenize file text = .ok ts → ∀ t ∈ ts, t.kind = .duration →
      (∃ unit, IsAmount t.text (t.text.toList.takeWhile Char.isDigit) unit) ∧
      ((∃ d, Duration.parse? t.text = some d) ↔
        Text.digitsValue (t.text.toList.takeWhile Char.isDigit) < Text.amountBound) ∧
      ∀ d, Duration.parse? t.text = some d →
        ∃ d', Duration.parse? d.render = some d' ∧ d'.millis = d.millis) ∧
    (∀ d : Duration, d.millis =
      if d.amount * d.unit.length < Text.amountBound then d.amount * d.unit.length
      else Text.amountBound - 1) ∧
    ∀ e : DateExpr, e.Writable → Parser.date.ReadsBack e.render e := by
  refine ⟨fun d hd => ⟨hd.parse?_render, d.isAmount_render.isLineOf⟩, ?_, Duration.millis_eq,
    fun e he => he.readsBack⟩
  intro file text ts htokens t ht hk
  obtain ⟨ds, unit, hamount⟩ := exists_isAmount_of_tokenize htokens t ht hk
  obtain ⟨u, -, hparse⟩ := Duration.parse?_of_isAmount hamount
  rw [hamount.takeWhile_eq]
  refine ⟨⟨unit, hamount⟩, ?_, fun d hd => ?_⟩
  · rw [hparse]
    split
    · next hlt => exact iff_of_true ⟨_, rfl⟩ hlt
    · next hge => exact iff_of_false (fun ⟨_, h⟩ => by cases h) hge
  · rw [hparse] at hd
    split at hd
    · next hlt =>
      cases hd
      exact ⟨_, Duration.Writable.parse?_render hlt, rfl⟩
    · cases hd

/-- The greatest amount of weeks, an amount of minutes that is too great by one, and a date. -/
theorem durations_printed_bounds :
    (Duration.parse? "18446744073709551615w" = some ⟨18446744073709551615, .weeks⟩ ∧
      Duration.millis ⟨18446744073709551615, .weeks⟩ = 18446744073709551615) ∧
    (∃ ts t, tokenize "sla.dsl" "warn: 018446744073709551616min" = .ok ts ∧ t ∈ ts ∧
      t.kind = .duration ∧ t.text = "018446744073709551616min" ∧
      ¬ ∃ d, Duration.parse? t.text = some d) ∧
    Parser.date.ReadsBack "today - 90d" ⟨.today, some (.minus, ⟨90, .days⟩)⟩ := by
  obtain ⟨hback, htoken, hmillis, hdate⟩ := durations_printed
  have hweeks : Duration.Writable ⟨18446744073709551615, .weeks⟩ := by
    unfold Duration.Writable
    decide
  have hdays : DateExpr.Writable ⟨.today, some (.minus, ⟨90, .days⟩)⟩ := by
    intro o ho
    cases ho
    unfold Duration.Writable
    decide
  have hread : ((tokenize "sla.dsl" "warn: 018446744073709551616min").toOption.any fun ts =>
      ts.any fun t => t.kind == .duration && t.text == "018446744073709551616min") = true := by
    decide +kernel
  obtain ⟨ts, hts, hread⟩ := Except.exists_eq_ok_of_any hread
  obtain ⟨t, ht, hread⟩ := List.any_eq_true.1 hread
  rw [Bool.and_eq_true, beq_iff_eq, beq_iff_eq] at hread
  obtain ⟨hkind, htext⟩ := hread
  obtain ⟨-, hparse, -⟩ := htoken _ _ ts hts t ht hkind
  rw [htext] at hparse
  refine ⟨⟨?_, (hmillis _).trans (by decide)⟩, ⟨ts, t, hts, ht, hkind, htext, ?_⟩, ?_⟩
  · have hprint : Duration.render ⟨18446744073709551615, .weeks⟩ = "18446744073709551615w" := by
      decide +kernel
    rw [← hprint]
    exact (hback _ hweeks).1
  · rw [htext, hparse]
    decide +kernel
  · have hprint : DateExpr.render ⟨.today, some (.minus, ⟨90, .days⟩)⟩ = "today - 90d" := by
      decide +kernel
    rw [← hprint]
    exact hdate _ hdays

end Blueprint
