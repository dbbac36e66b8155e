import Blueprint.Proofs.Grammar.Expressions
import Blueprint.Proofs.Written.Words

/-!
# Written values

How constants, durations, dates and comparison operators are written as tokens, and that the parser
reads them back. A whole number may be written with zeros in front, and a duration compactly, as in
`7d`, or spelled out, as in `7 days`.
-/

namespace Blueprint

/-! ## Numerals -/

/-- Digits, one at least. -/
def IsNumeral (ds : List Char) : Prop := ds ≠ [] ∧ ∀ c ∈ ds, c.isDigit = true

/-- Digits on both sides of a point. -/
def IsDecimal (ds : List Char) : Prop :=
  ∃ whole part, ds = whole ++ '.' :: part ∧ IsNumeral whole ∧ IsNumeral part

instance : DecidablePred IsNumeral := fun ds =>
  decidable_of_iff (ds ≠ [] ∧ ds.all Char.isDigit = true)
    (and_congr_right fun _ => List.all_eq_true)

namespace IsNumeral

variable {ds : List Char} {bound : Nat}

theorem natural?_eq_ite (h : IsNumeral ds) : Text.natural? bound ds =
    if Text.digitsValue ds < bound then some (Text.digitsValue ds) else none := by
  have hall : ds.all Char.isDigit = true := List.all_eq_true.2 h.2
  have hempty : ds.isEmpty = false := List.isEmpty_eq_false_iff.2 h.1
  unfold Text.natural?
  rw [hall, hempty, if_neg (by decide)]

theorem natural?_eq (h : IsNumeral ds) (hlt : Text.digitsValue ds < bound) :
    Text.natural? bound ds = some (Text.digitsValue ds) :=
  h.natural?_eq_ite.trans (if_pos hlt)

theorem not_mem_point (h : IsNumeral ds) : '.' ∉ ds := by
  intro hp
  cases h.2 '.' hp

/-- Digits start with no minus sign. -/
theorem head_ne_minus (h : IsNumeral ds) : ds.head? ≠ some '-' := by
  intro hm
  cases h.2 '-' (List.mem_of_mem_head? hm)

end IsNumeral

theorem Text.digitsValue_concat (ds : List Char) (c : Char) :
    digitsValue (ds ++ [c]) = 10 * digitsValue ds + (c.toNat - '0'.toNat) := by
  unfold digitsValue
  rw [List.foldl_append]
  rfl

/-- The decimal digits of a number are a numeral of it. -/
theorem isNumeral_toDigits (n : Nat) :
    IsNumeral (Nat.toDigits 10 n) ∧ Text.digitsValue (Nat.toDigits 10 n) = n := by
  refine ⟨⟨Nat.toDigits_ne_nil, fun c hc => ?_⟩, ?_⟩
  · exact Nat.isDigit_of_mem_toDigits (by decide) (by decide) hc
  · induction n using Nat.strongRecOn with
    | ind n ih =>
      have hdigit : ∀ d < 10, (Nat.digitChar d).toNat - '0'.toNat = d := by decide
      rw [Nat.toDigits_eq_if (by decide)]
      split
      · next hn => exact (Nat.zero_add _).trans (hdigit n hn)
      · next hn =>
        rw [Text.digitsValue_concat, ih (n / 10) (by omega),
          hdigit (n % 10) (Nat.mod_lt n (by decide))]
        omega

/-- A printed number is a numeral of it. -/
theorem isNumeral_toString (n : Nat) :
    IsNumeral (toString n).toList ∧ Text.digitsValue (toString n).toList = n := by
  show IsNumeral n.repr.toList ∧ Text.digitsValue n.repr.toList = n
  rw [Nat.toList_repr]
  exact isNumeral_toDigits n

/-- Every number has a numeral. -/
theorem exists_isNumeral (n : Nat) : ∃ ds, IsNumeral ds ∧ Text.digitsValue ds = n :=
  ⟨_, isNumeral_toDigits n⟩

/-- Only numerals are read, as what they denote. -/
theorem Text.natural?_eq_some_iff {bound n : Nat} {ds : List Char} :
    natural? bound ds = some n ↔ IsNumeral ds ∧ digitsValue ds = n ∧ n < bound := by
  constructor
  · intro h
    have hds : IsNumeral ds := by
      unfold natural? at h
      split at h
      · cases h
      · next hno =>
        rw [Bool.or_eq_true, not_or, Bool.not_eq_true, Bool.not_eq_true', Bool.not_eq_false] at hno
        exact ⟨List.isEmpty_eq_false_iff.1 hno.1, List.all_eq_true.1 hno.2⟩
    rw [hds.natural?_eq_ite, Option.ite_none_right_eq_some] at h
    obtain ⟨hlt, e⟩ := h
    cases e
    exact ⟨hds, rfl, hlt⟩
  · rintro ⟨hds, rfl, hlt⟩
    exact hds.natural?_eq hlt

theorem Text.lt_of_natural? {bound n : Nat} {ds : List Char} (h : natural? bound ds = some n) :
    n < bound := (natural?_eq_some_iff.1 h).2.2

/-! ## Constants -/

namespace Literal

inductive Written : Literal → List Token → Prop where
  | string {t : Token} (ht : t.kind = .string) : Written (.string t.text) [t]
  | natural {t : Token} (ht : t.kind = .number) (hd : IsNumeral t.text.toList) :
    Written (.integer (Text.digitsValue t.text.toList)) [t]
  | negative {m t : Token} (hm : m.kind = .minus) (ht : t.kind = .number)
    (hd : IsNumeral t.text.toList) :
    Written (.integer (-Text.digitsValue t.text.toList)) [m, t]
  | decimal {t : Token} (ht : t.kind = .number) (hd : IsDecimal t.text.toList) :
    Written (.decimal t.text) [t]
  | negativeDecimal {m t : Token} (hm : m.kind = .minus) (ht : t.kind = .number)
    (hd : IsDecimal t.text.toList) : Written (.decimal ("-" ++ t.text)) [m, t]
  | true {t : Token} (ht : t.kind = .keyword .trueLit) : Written (.boolean true) [t]
  | false {t : Token} (ht : t.kind = .keyword .falseLit) : Written (.boolean false) [t]
  | null {t : Token} (ht : t.kind = .keyword .nullLit) : Written .null [t]

/-- Integers have 64 bits, and decimals digits on both sides of their point. -/
def Writable : Literal → Prop
  | .integer n => -(Text.integerBound : Int) ≤ n ∧ n < Text.integerBound
  | .decimal text => ∃ s : String, IsDecimal s.toList ∧ (text = s ∨ text = "-" ++ s)
  | _ => True

variable {l : Literal} {ts : List Token}

theorem Writable.exists_written (h : l.Writable) : ∃ ts, l.Written ts := by
  cases l with
  | string s => exact ⟨_, .string (t := ⟨.string, s, 0, 0⟩) rfl⟩
  | integer n =>
    obtain ⟨ds, hds, hvalue⟩ := exists_isNumeral n.natAbs
    have htoken := String.toList_ofList (l := ds)
    have hnumeral := htoken.symm ▸ hds
    rcases Int.natAbs_eq n with hn | hn
    · have h := Written.natural (t := ⟨.number, String.ofList ds, 0, 0⟩) rfl hnumeral
      rw [htoken, hvalue, ← hn] at h
      exact ⟨_, h⟩
    · have h := Written.negative (m := ⟨.minus, "-", 0, 0⟩)
        (t := ⟨.number, String.ofList ds, 0, 0⟩) rfl rfl hnumeral
      rw [htoken, hvalue, ← hn] at h
      exact ⟨_, h⟩
  | decimal text =>
    obtain ⟨s, hs, rfl | rfl⟩ := h
    · exact ⟨_, .decimal (t := ⟨.number, text, 0, 0⟩) rfl hs⟩
    · exact ⟨_, .negativeDecimal (m := ⟨.minus, "-", 0, 0⟩) (t := ⟨.number, s, 0, 0⟩) rfl rfl hs⟩
  | boolean b =>
    cases b with
    | true => exact ⟨_, .true (t := ⟨.keyword .trueLit, "true", 0, 0⟩) rfl⟩
    | false => exact ⟨_, .false (t := ⟨.keyword .falseLit, "false", 0, 0⟩) rfl⟩
  | null => exact ⟨_, .null (t := ⟨.keyword .nullLit, "null", 0, 0⟩) rfl⟩

theorem ofNumber?_eq_map {text : String} (hd : IsNumeral text.toList) :
    ofNumber? text = (Text.natural? Text.integerBound text.toList).map fun n => .integer n := by
  have hpoint : text.toList.contains '.' = Bool.false := by
    rw [List.contains_eq_mem, decide_eq_false hd.not_mem_point]
  unfold ofNumber?
  rw [hpoint, if_neg Bool.false_ne_true]
  split
  · next digits hm =>
    rw [hm] at hd
    exact absurd rfl hd.head_ne_minus
  · cases Text.natural? Text.integerBound text.toList <;> rfl

theorem ofNumber?_minus_eq_map {text : String} (hd : IsNumeral text.toList) :
    ofNumber? ("-" ++ text) =
      (Text.natural? (Text.integerBound + 1) text.toList).map fun n => .integer (-n) := by
  have htext : ("-" ++ text).toList = '-' :: text.toList := String.toList_append
  have hpoint : ('-' :: text.toList).contains '.' = Bool.false := by
    rw [List.contains_eq_mem, decide_eq_false]
    rw [List.mem_cons, not_or]
    exact ⟨by decide, hd.not_mem_point⟩
  unfold ofNumber?
  rw [htext, hpoint, if_neg Bool.false_ne_true]
  split
  · next digits hm =>
    cases hm
    cases Text.natural? (Text.integerBound + 1) text.toList <;> rfl
  · next hno => exact absurd rfl (hno _)

theorem ofNumber?_of_isNumeral {text : String} (hd : IsNumeral text.toList)
    (hlt : Text.digitsValue text.toList < Text.integerBound) :
    ofNumber? text = some (.integer (Text.digitsValue text.toList)) := by
  rw [ofNumber?_eq_map hd, hd.natural?_eq hlt]
  rfl

theorem ofNumber?_of_minus {text : String} (hd : IsNumeral text.toList)
    (hle : Text.digitsValue text.toList < Text.integerBound + 1) :
    ofNumber? ("-" ++ text) = some (.integer (-Text.digitsValue text.toList)) := by
  rw [ofNumber?_minus_eq_map hd, hd.natural?_eq hle]
  rfl

theorem ofNumber?_of_point {text : String} (hp : '.' ∈ text.toList) :
    ofNumber? text = some (.decimal text) := by
  unfold ofNumber?
  rw [List.contains_eq_mem, decide_eq_true hp, if_pos rfl]

end Literal

/-- What the first token of a constant can be. -/
def TokenKind.opensLiteral : TokenKind → Bool
  | .string | .number | .minus | .keyword .trueLit | .keyword .falseLit | .keyword .nullLit => true
  | _ => false

theorem Literal.opens_of_written {l : Literal} {ts : List Token} (h : l.Written ts) :
    ∃ t us, ts = t :: us ∧ t.kind.opensLiteral = true := by
  cases h with
  | string ht | natural ht | decimal ht | true ht | false ht | null ht =>
    exact ⟨_, [], rfl, congrArg TokenKind.opensLiteral ht⟩
  | negative hm | negativeDecimal hm => exact ⟨_, _, rfl, congrArg TokenKind.opensLiteral hm⟩

theorem CanName.not_opensLiteral {s : String} (h : CanName s) :
    (TokenKind.ofWord s).opensLiteral = false := by
  obtain hid | ⟨k, hword, -, hcan⟩ := h.ofWord_cases
  · rw [hid]
    rfl
  · rw [hword]
    unfold TokenKind.opensLiteral
    split <;> first | rfl | (next hk => cases hk <;> cases hcan)

namespace Parser

section

variable {scope : Scope} {l : Literal} {m t : Token} {ts : List Token}

/-- A choice for a token that is not there. -/
theorem isAt_bind_of_ne {α : Type} {k : TokenKind} {p p' : Parser α} (h : t.kind ≠ k) :
    (isAt k >>= fun b => if b = true then p else p') scope (t :: ts) = p' scope (t :: ts) := by
  rw [bind_eq_ok (isAt_of_ne h)]
  rfl

theorem numberText_of_number (ht : t.kind = .number) (rest : List Token) :
    numberText scope (t :: rest) = .ok (t.text, rest) := by
  unfold numberText
  rw [bind_eq_ok (accept_of_ne (by rw [ht]; decide)), bind_eq_ok (expect_of_eq ht)]
  rfl

theorem numberText_of_minus (hm : m.kind = .minus) (ht : t.kind = .number) (rest : List Token) :
    numberText scope (m :: t :: rest) = .ok ("-" ++ t.text, rest) := by
  unfold numberText
  rw [bind_eq_ok (accept_of_eq hm), bind_eq_ok (expect_of_eq ht)]
  rfl

/-- A number is read as the constant that it stands for, if there is one. -/
theorem literal_eq_of_numberText {text : String} {us rest : List Token}
    (hu : (head scope us).kind = .number ∨ (head scope us).kind = .minus)
    (htext : numberText scope us = .ok (text, rest)) :
    literal scope us = match Literal.ofNumber? text with
      | some l => .ok (l, rest)
      | none => .error
          { location := scope.locate (head scope us), fault := .numberOutOfRange text } := by
  unfold literal
  rw [bind_eq_ok (current_apply _ _)]
  rcases hu with hu | hu
  · rw [hu]
    dsimp only
    rw [bind_eq_ok htext]
    cases Literal.ofNumber? text <;> rfl
  · rw [hu]
    dsimp only
    rw [bind_eq_ok htext]
    cases Literal.ofNumber? text <;> rfl

theorem literal_of_numberText {text : String} {us rest : List Token}
    (hu : (head scope us).kind = .number ∨ (head scope us).kind = .minus)
    (htext : numberText scope us = .ok (text, rest)) (hl : Literal.ofNumber? text = some l) :
    literal scope us = .ok (l, rest) := by
  rw [literal_eq_of_numberText hu htext, hl]

theorem literal_of_written (h : l.Written ts) (hl : l.Writable) (rest : List Token) :
    literal scope (ts ++ rest) = .ok (l, rest) := by
  cases h with
  | @string t ht =>
    unfold literal
    rw [bind_eq_ok (current_apply _ _), List.singleton_append, head_cons, ht]
    exact bind_eq_ok (advance_apply _ _)
  | @natural t ht hd =>
    have hlt := Int.ofNat_lt.1 hl.2
    exact literal_of_numberText (.inl ht) (numberText_of_number ht rest)
      (Literal.ofNumber?_of_isNumeral hd hlt)
  | @negative m t hm ht hd =>
    have hle : Text.digitsValue t.text.toList < Text.integerBound + 1 := by
      have := hl.1
      omega
    exact literal_of_numberText (.inr hm) (numberText_of_minus hm ht rest)
      (Literal.ofNumber?_of_minus hd hle)
  | @decimal t ht hd =>
    obtain ⟨whole, part, hd, -⟩ := hd
    refine literal_of_numberText (.inl ht) (numberText_of_number ht rest)
      (Literal.ofNumber?_of_point ?_)
    rw [hd]
    exact List.mem_append_right _ List.mem_cons_self
  | @negativeDecimal m t hm ht hd =>
    obtain ⟨whole, part, hd, -⟩ := hd
    refine literal_of_numberText (.inr hm) (numberText_of_minus hm ht rest)
      (Literal.ofNumber?_of_point ?_)
    rw [String.toList_append, hd]
    exact List.mem_append_right _ (List.mem_append_right _ List.mem_cons_self)
  | @true t ht =>
    unfold literal
    rw [bind_eq_ok (current_apply _ _), List.singleton_append, head_cons, ht]
    exact bind_eq_ok (advance_apply _ _)
  | @false t ht =>
    unfold literal
    rw [bind_eq_ok (current_apply _ _), List.singleton_append, head_cons, ht]
    exact bind_eq_ok (advance_apply _ _)
  | @null t ht =>
    unfold literal
    rw [bind_eq_ok (current_apply _ _), List.singleton_append, head_cons, ht]
    exact bind_eq_ok (advance_apply _ _)

theorem isAtNumber_of_number (ht : t.kind = .number) (rest : List Token) :
    isAtNumber scope (t :: rest) = .ok (true, t :: rest) := by
  unfold isAtNumber
  rw [bind_eq_ok (current_apply _ _), head_cons, ht]
  rfl

theorem isAtNumber_of_minus (hm : m.kind = .minus) (ht : t.kind = .number) (rest : List Token) :
    isAtNumber scope (m :: t :: rest) = .ok (true, m :: t :: rest) := by
  unfold isAtNumber
  rw [bind_eq_ok (current_apply _ _), head_cons, hm]
  dsimp only
  rw [peekIs_apply]
  change Except.ok (t.kind == .number, _) = _
  rw [ht]
  rfl

theorem isAtLiteral_of_written (h : l.Written ts) (rest : List Token) :
    isAtLiteral scope (ts ++ rest) = .ok (true, ts ++ rest) := by
  unfold isAtLiteral
  rw [bind_eq_ok (current_apply _ _)]
  cases h with
  | natural ht | decimal ht =>
    rw [List.singleton_append, head_cons, ht]
    exact isAtNumber_of_number ht rest
  | negative hm ht | negativeDecimal hm ht =>
    rw [List.cons_append, head_cons, hm]
    exact isAtNumber_of_minus hm ht rest
  | string ht | true ht | false ht | null ht =>
    rw [List.singleton_append, head_cons, ht]
    rfl

theorem isAtLiteral_of_not (ht : t.kind.opensLiteral = false) (rest : List Token) :
    isAtLiteral scope (t :: rest) = .ok (false, t :: rest) := by
  have hne : ∀ k : TokenKind, k.opensLiteral = true → t.kind ≠ k := by
    rintro k hk rfl
    rw [ht] at hk
    cases hk
  rw [isAtLiteral_eq, isAtNumber_eq]
  rw [isAt_bind_of_ne (hne _ rfl), isAtKeyword, isAt_bind_of_ne (hne _ rfl), isAtKeyword,
    isAt_bind_of_ne (hne _ rfl), isAtKeyword, isAt_bind_of_ne (hne _ rfl),
    isAt_bind_of_ne (hne _ rfl), isAt_bind_of_ne (hne _ rfl)]
  rfl

end

end Parser

/-! ## Durations -/

theorem DurationUnit.ofSuffix?_suffix (u : DurationUnit) : ofSuffix? u.suffix = some u := by
  cases u <;> rfl

namespace Duration

/-- The digits of the amount and the suffix of the unit, in one token. -/
structure IsCompact (d : Duration) (t : Token) : Prop where
  kind : t.kind = .duration
  text : ∃ (ds : List Char) (suffix : String), t.text.toList = ds ++ suffix.toList ∧
    IsNumeral ds ∧ Text.digitsValue ds = d.amount ∧ DurationUnit.ofSuffix? suffix = some d.unit

/-- Compact, or a count and the name of the unit. -/
inductive Written (d : Duration) : List Token → Prop where
  | compact {t : Token} (h : d.IsCompact t) : Written d [t]
  | spelledOut {n u : Token} (hn : n.kind = .number) (hd : IsNumeral n.text.toList)
    (hamount : Text.digitsValue n.text.toList = d.amount) (hlt : d.amount < Text.countBound)
    (hu : u.isWord = true) (hunit : DurationUnit.ofWord? u.text = some d.unit) : Written d [n, u]

/-- The amount has 64 bits. -/
def Writable (d : Duration) : Prop := d.amount < Text.amountBound

variable {d : Duration} {t : Token}

theorem exists_isCompact (d : Duration) : ∃ t, d.IsCompact t := by
  obtain ⟨ds, hds, hvalue⟩ := exists_isNumeral d.amount
  have htext := String.toList_ofList (l := ds ++ d.unit.suffix.toList)
  exact ⟨⟨.duration, _, 0, 0⟩, rfl, ds, d.unit.suffix, htext, hds, hvalue,
    DurationUnit.ofSuffix?_suffix d.unit⟩

/-- A suffix starts with a letter. -/
theorem suffix_of_ofSuffix? {suffix : String} {u : DurationUnit}
    (h : DurationUnit.ofSuffix? suffix = some u) :
    suffix.toList.isEmpty = false ∧ suffix.toList.takeWhile Char.isDigit = [] ∧
      suffix.toList.dropWhile Char.isDigit = suffix.toList := by
  unfold DurationUnit.ofSuffix? at h
  split at h <;> first | decide | cases h

/-- Digits and a suffix are a duration if the amount has 64 bits, and otherwise none. -/
theorem parse?_of_toList {text suffix : String} {ds : List Char} {u : DurationUnit}
    (htext : text.toList = ds ++ suffix.toList) (hds : IsNumeral ds)
    (hu : DurationUnit.ofSuffix? suffix = some u) :
    parse? text = (Text.natural? Text.amountBound ds).map fun amount => ⟨amount, u⟩ := by
  obtain ⟨hempty, htake, hdrop⟩ := suffix_of_ofSuffix? hu
  unfold parse?
  rw [htext, List.takeWhile_append_of_pos hds.2, List.dropWhile_append_of_pos hds.2, htake, hdrop,
    List.append_nil]
  dsimp only
  rw [hempty, if_neg Bool.false_ne_true, String.ofList_toList, hu]
  cases Text.natural? Text.amountBound ds <;> rfl

theorem IsCompact.parse?_eq (h : d.IsCompact t) (hd : d.Writable) : parse? t.text = some d := by
  obtain ⟨ds, suffix, htext, hds, hvalue, hunit⟩ := h.text
  have hlt : Text.digitsValue ds < Text.amountBound := hvalue ▸ hd
  rw [parse?_of_toList htext hds hunit, hds.natural?_eq hlt, hvalue]
  rfl

/-- The token of a duration is read only if it is compact, with an amount of 64 bits. -/
theorem isCompact_of_parse? (ht : t.kind = .duration) (h : parse? t.text = some d) :
    d.IsCompact t ∧ d.Writable := by
  unfold parse? at h
  dsimp only at h
  split at h
  · cases h
  · obtain ⟨amount, hamount, h⟩ := Option.bind_eq_some_iff.1 h
    obtain ⟨unit, hunit, h⟩ := Option.bind_eq_some_iff.1 h
    obtain ⟨hds, hvalue, hlt⟩ := Text.natural?_eq_some_iff.1 hamount
    cases h
    have htext := List.takeWhile_append_dropWhile (p := Char.isDigit) (l := t.text.toList)
    rw [← String.toList_ofList (l := t.text.toList.dropWhile Char.isDigit)] at htext
    exact ⟨⟨ht, _, _, htext.symm, hds, hvalue, hunit⟩, hlt⟩

end Duration

namespace Parser

section

variable {scope : Scope} {d : Duration} {t : Token} {ts : List Token}

theorem duration_of_isCompact (h : d.IsCompact t) (hd : d.Writable) (rest : List Token) :
    duration scope (t :: rest) = .ok (d, rest) := by
  unfold duration
  rw [bind_eq_ok (current_apply _ _), head_cons, if_pos (beq_iff_eq.2 h.kind),
    bind_eq_ok (advance_apply _ _), h.parse?_eq hd]
  rfl

theorem count_of_isNumeral (ht : t.kind = .number) (hd : IsNumeral t.text.toList)
    (hlt : Text.digitsValue t.text.toList < Text.countBound) (rest : List Token) :
    count scope (t :: rest) = .ok (Text.digitsValue t.text.toList, rest) := by
  unfold count
  rw [bind_eq_ok (expect_of_eq ht), hd.natural?_eq hlt]
  rfl

theorem duration_of_written (h : d.Written ts) (hd : d.Writable) (rest : List Token) :
    duration scope (ts ++ rest) = .ok (d, rest) := by
  cases h with
  | compact h => exact duration_of_isCompact h hd rest
  | @spelledOut n u hn hnumeral hamount hlt hu hunit =>
    have hnot : ¬ (n.kind == .duration) = true := by
      rw [hn]
      decide
    have hword : (n.kind == .number && u.isWord) = true := by
      rw [hn, hu]
      rfl
    have hcount : count scope (n :: u :: rest) = .ok (_, u :: rest) :=
      count_of_isNumeral hn hnumeral (hamount ▸ hlt) (u :: rest)
    rw [List.cons_append, List.singleton_append]
    unfold duration
    rw [bind_eq_ok (current_apply _ _), head_cons, if_neg hnot, bind_eq_ok (peek_one_apply _ _),
      List.tail_cons, head_cons, if_pos hword, bind_eq_ok hcount, bind_eq_ok (advance_apply _ _),
      head_cons, hunit, hamount]
    rfl

end

end Parser

/-! ## Dates -/

/-- The word that a date starts with. -/
def DateAnchor.keyword : DateAnchor → Keyword
  | today => .today
  | now => .now

/-- The class of the sign in front of a duration. -/
def OffsetSign.kind : OffsetSign → TokenKind
  | plus => .plus
  | minus => .minus

/-- A name that is no anchor of a date has another class. -/
theorem CanName.ofWord_ne_anchor {s : String} (hs : CanName s)
    (h : ∀ a : DateAnchor, s ≠ a.spelling) (a : DateAnchor) :
    TokenKind.ofWord s ≠ .keyword a.keyword := by
  refine hs.ofWord_ne_keyword (.inr ?_)
  have hspelling : a.keyword.spelling = a.spelling := by cases a <;> rfl
  rw [hspelling]
  exact h a

/-- A sign and a duration. -/
inductive OffsetWritten (sign : OffsetSign) (d : Duration) : List Token → Prop where
  | mk {t : Token} {ts : List Token} (ht : t.kind = sign.kind) (h : d.Written ts) :
    OffsetWritten sign d (t :: ts)

namespace DateExpr

inductive Written : DateExpr → List Token → Prop where
  | plain {anchor : DateAnchor} {t : Token} (ht : t.kind = .keyword anchor.keyword) :
    Written ⟨anchor, none⟩ [t]
  | shifted {anchor : DateAnchor} {t : Token} {sign : OffsetSign} {d : Duration} {ts : List Token}
    (ht : t.kind = .keyword anchor.keyword) (h : OffsetWritten sign d ts) :
    Written ⟨anchor, some (sign, d)⟩ (t :: ts)

def Writable (e : DateExpr) : Prop := ∀ o ∈ e.offset, o.2.Writable

variable {e : DateExpr} {ts : List Token}

theorem exists_written (e : DateExpr) : ∃ ts, e.Written ts := by
  obtain ⟨anchor, none | ⟨sign, d⟩⟩ := e
  · exact ⟨_, .plain (t := ⟨.keyword anchor.keyword, "", 0, 0⟩) rfl⟩
  · obtain ⟨t, ht⟩ := d.exists_isCompact
    exact ⟨_, .shifted (t := ⟨.keyword anchor.keyword, "", 0, 0⟩) rfl
      (.mk (t := ⟨sign.kind, "", 0, 0⟩) rfl (.compact ht))⟩

theorem Written.exists_anchor (h : e.Written ts) :
    ∃ t us, ts = t :: us ∧ t.kind = .keyword e.anchor.keyword := by
  cases h with
  | plain ht => exact ⟨_, [], rfl, ht⟩
  | shifted ht _ => exact ⟨_, _, rfl, ht⟩

end DateExpr

namespace Parser

section

variable {scope : Scope} {sign : OffsetSign} {d : Duration} {e : DateExpr} {t : Token}
  {ts rest : List Token}

/-- The next token is no sign, with which a date or a path could go on, and no point. -/
def EndsValue (scope : Scope) (rest : List Token) : Prop :=
  (head scope rest).kind ≠ .dot ∧ (head scope rest).kind ≠ .plus ∧ (head scope rest).kind ≠ .minus

theorem endsValue_cons {k : TokenKind} (ht : t.kind = k)
    (hk : k ≠ .dot ∧ k ≠ .plus ∧ k ≠ .minus) (ts : List Token) : EndsValue scope (t :: ts) := by
  unfold EndsValue
  rw [head_cons, ht]
  exact hk

theorem durationFollows_of_written (h : d.Written ts) (t : Token) (rest : List Token) :
    durationFollows scope (t :: (ts ++ rest)) = .ok (true, t :: (ts ++ rest)) := by
  unfold durationFollows
  rw [bind_eq_ok (peekIs_apply _ _ _ _)]
  cases h with
  | @compact u h =>
    change (if (u.kind == .duration) = true then _ else _ : Parser Bool) _ _ = _
    rw [if_pos (beq_iff_eq.2 h.kind)]
    rfl
  | @spelledOut n u hn _ _ _ hu =>
    change (if (n.kind == .duration) = true then _ else _ : Parser Bool) _ _ = _
    rw [hn, if_neg (by decide), bind_eq_ok (peekIs_apply _ _ _ _)]
    change (if (n.kind == .number) = true then _ else _ : Parser Bool) _ _ = _
    rw [if_pos (beq_iff_eq.2 hn)]
    change Except.ok (u.isWord, _) = _
    rw [hu]

theorem offset?_of_written (h : OffsetWritten sign d ts) (hd : d.Writable) (rest : List Token) :
    offset? scope (ts ++ rest) = .ok (some (sign, d), rest) := by
  cases h with
  | @mk t ts ht h =>
    have hread : (durationFollows >>= fun b => if b = true then advance >>= fun _ =>
        duration >>= fun d => pure (some (sign, d)) else pure none : Parser _) scope
          (t :: (ts ++ rest)) = .ok (some (sign, d), rest) := by
      rw [bind_eq_ok (durationFollows_of_written h t rest), if_pos rfl,
        bind_eq_ok (advance_apply _ _), List.tail_cons, bind_eq_ok (duration_of_written h hd rest)]
      rfl
    unfold offset?
    rw [bind_eq_ok (current_apply _ _), List.cons_append, head_cons, ht]
    cases sign <;> exact hread

theorem offset?_of_ends (h : EndsValue scope rest) : offset? scope rest = .ok (none, rest) := by
  unfold offset?
  rw [bind_eq_ok (current_apply _ _)]
  split
  · next hplus => exact absurd hplus h.2.1
  · next hminus => exact absurd hminus h.2.2
  · rfl

theorem date_of_anchor {anchor : DateAnchor} (ht : t.kind = .keyword anchor.keyword)
    {offset : Option (OffsetSign × Duration)} (ho : offset? scope ts = .ok (offset, rest)) :
    date scope (t :: ts) = .ok (⟨anchor, offset⟩, rest) := by
  have hanchor : dateAnchor? scope (t :: ts) = .ok (some anchor, ts) := by
    unfold dateAnchor?
    cases anchor with
    | today =>
      have htoday : acceptKeyword .today scope (t :: ts) = .ok (true, ts) := accept_of_eq ht
      rw [bind_eq_ok htoday]
      rfl
    | now =>
      have htoday : acceptKeyword .today scope (t :: ts) = .ok (false, t :: ts) :=
        accept_of_ne fun h => by cases h.symm.trans ht
      have hnow : acceptKeyword .now scope (t :: ts) = .ok (true, ts) := accept_of_eq ht
      rw [bind_eq_ok htoday, if_neg Bool.false_ne_true, bind_eq_ok hnow]
      rfl
  unfold date
  rw [bind_eq_ok hanchor]
  exact bind_eq_ok ho

theorem date_of_written (h : e.Written ts) (he : e.Writable) (hrest : EndsValue scope rest) :
    date scope (ts ++ rest) = .ok (e, rest) := by
  cases h with
  | plain ht => exact date_of_anchor ht (offset?_of_ends hrest)
  | shifted ht h => exact date_of_anchor ht (offset?_of_written h (he _ rfl) rest)

theorem isAtDate_of_anchor {anchor : DateAnchor} (ht : t.kind = .keyword anchor.keyword)
    (rest : List Token) : isAtDate scope (t :: rest) = .ok (true, t :: rest) := by
  unfold isAtDate
  cases anchor with
  | today =>
    have htoday : isAtKeyword .today scope (t :: rest) = .ok (true, t :: rest) := isAt_of_eq ht
    rw [bind_eq_ok htoday]
    rfl
  | now =>
    have htoday : isAtKeyword .today scope (t :: rest) = .ok (false, t :: rest) :=
      isAt_of_ne fun h => by cases h.symm.trans ht
    rw [bind_eq_ok htoday]
    exact isAt_of_eq ht

theorem isAtDate_of_not (hno : ∀ anchor : DateAnchor, t.kind ≠ .keyword anchor.keyword)
    (rest : List Token) : isAtDate scope (t :: rest) = .ok (false, t :: rest) := by
  have htoday : isAtKeyword .today scope (t :: rest) = .ok (false, t :: rest) :=
    isAt_of_ne (hno .today)
  unfold isAtDate
  rw [bind_eq_ok htoday]
  exact isAt_of_ne (hno .now)

end

end Parser

/-! ## First tokens -/

/-- The first token starts a value, and nothing else that may stand in its place. -/
def StartsValue (ts : List Token) : Prop :=
  ∃ t us, ts = t :: us ∧
    t.kind ≠ .keyword .notOp ∧ t.kind ≠ .openParen ∧ t.kind ≠ .closeBracket

theorem startsValue_cons {t : Token} {k : TokenKind} (ht : t.kind = k)
    (hk : k ≠ .keyword .notOp ∧ k ≠ .openParen ∧ k ≠ .closeBracket) (us : List Token) :
    StartsValue (t :: us) := ⟨t, us, rfl, ht ▸ hk⟩

theorem StartsValue.append {ts : List Token} (h : StartsValue ts) (us : List Token) :
    StartsValue (ts ++ us) := by
  obtain ⟨t, ts, rfl, ht⟩ := h
  exact ⟨t, ts ++ us, rfl, ht⟩

theorem CanName.startsValue {s : String} {t : Token} (hs : CanName s) (ht : t.Spells s)
    (us : List Token) : StartsValue (t :: us) :=
  startsValue_cons ht.kind ⟨hs.ofWord_ne_keyword (.inl rfl),
    hs.ofWord_ne_sign TokenKind.noConfusion fun _ => TokenKind.noConfusion,
    hs.ofWord_ne_sign TokenKind.noConfusion fun _ => TokenKind.noConfusion⟩ us

theorem FieldPath.Written.startsValue {p : FieldPath} {ts : List Token} (h : p.Written ts)
    (hp : p.Writable) : StartsValue ts := by
  obtain ⟨t, us, rfl, ht, -⟩ := h.exists_root
  exact hp.root.startsValue ht us

theorem Literal.Written.startsValue {l : Literal} {ts : List Token} (h : l.Written ts) :
    StartsValue ts := by
  obtain ⟨t, us, rfl, ht⟩ := Literal.opens_of_written h
  have hne : ∀ k : TokenKind, k.opensLiteral = Bool.false → t.kind ≠ k := by
    rintro k hk rfl
    cases ht.symm.trans hk
  exact ⟨t, us, rfl, hne _ rfl, hne _ rfl, hne _ rfl⟩

theorem DateExpr.Written.startsValue {e : DateExpr} {ts : List Token} (h : e.Written ts) :
    StartsValue ts := by
  obtain ⟨t, us, rfl, ht⟩ := h.exists_anchor
  exact startsValue_cons ht (by cases e.anchor <;> decide) us

/-! ## Comparison operators -/

namespace ComparisonOp

/-- The classes of the tokens that an operator can be written with. -/
def spellings : ComparisonOp → List (List TokenKind)
  | eq => [[.equal], [.doubleEqual]]
  | notEq => [[.notEqual]]
  | gt => [[.greater]]
  | lt => [[.less]]
  | ge => [[.greaterEqual]]
  | le => [[.lessEqual]]
  | within => [[.keyword .in]]
  | notWithin => [[.keyword .notOp, .keyword .in]]
  | is => [[.keyword .is]]
  | isNot => [[.keyword .is, .keyword .notOp]]

def Written (op : ComparisonOp) (ts : List Token) : Prop := ts.map Token.kind ∈ op.spellings

instance (op : ComparisonOp) : DecidablePred op.Written := fun ts =>
  inferInstanceAs (Decidable (ts.map Token.kind ∈ op.spellings))

variable {op : ComparisonOp} {ts : List Token}

theorem exists_written (op : ComparisonOp) : ∃ ts, op.Written ts := by
  have hspelled : ∃ ks, ks ∈ op.spellings := by
    cases op <;> exact ⟨_, List.mem_cons_self⟩
  obtain ⟨ks, hks⟩ := hspelled
  have hkinds : (ks.map fun k => (⟨k, "", 0, 0⟩ : Token)).map Token.kind = ks := by
    rw [List.map_map]
    exact List.map_id ks
  exact ⟨_, hkinds.symm ▸ hks⟩

/-- `is` is read as it stands unless `not` follows. -/
theorem ofKinds?_is {k : TokenKind} (hk : k ≠ .keyword .notOp) :
    ofKinds? (.keyword .is) k = some (is, 1) := by
  rw [ofKinds?]
  exact hk

end ComparisonOp

namespace Parser

variable {scope : Scope} {op : ComparisonOp} {t u : Token} {ts rest : List Token}

theorem comparisonOp_of_one
    (h : ComparisonOp.ofKinds? t.kind (head scope rest).kind = some (op, 1)) :
    comparisonOp scope (t :: rest) = .ok (op, rest) :=
  comparisonOp_of_kinds (show ComparisonOp.ofKinds? (head scope (t :: rest)).kind
    (head scope (t :: rest).tail).kind = some (op, 1) from h)

/-- An operator is read back. Only `is` depends on what follows. -/
theorem comparisonOp_of_written (h : op.Written ts)
    (hrest : op = .is → (head scope rest).kind ≠ .keyword .notOp) :
    comparisonOp scope (ts ++ rest) = .ok (op, rest) := by
  unfold ComparisonOp.Written at h
  cases op with
  | notWithin =>
    obtain ⟨t, us, rfl, ht, hus⟩ := List.map_eq_cons_iff.1 (List.mem_singleton.1 h)
    obtain ⟨u, rfl, hu⟩ := List.map_eq_singleton_iff.1 hus
    have hop : ComparisonOp.ofKinds? t.kind u.kind = some (.notWithin, 2) := by rw [ht, hu]; rfl
    exact comparisonOp_apply hop scope rest
  | isNot =>
    obtain ⟨t, us, rfl, ht, hus⟩ := List.map_eq_cons_iff.1 (List.mem_singleton.1 h)
    obtain ⟨u, rfl, hu⟩ := List.map_eq_singleton_iff.1 hus
    have hop : ComparisonOp.ofKinds? t.kind u.kind = some (.isNot, 2) := by rw [ht, hu]; rfl
    exact comparisonOp_apply hop scope rest
  | is =>
    obtain ⟨t, rfl, ht⟩ := List.map_eq_singleton_iff.1 (List.mem_singleton.1 h)
    exact comparisonOp_of_one (ht ▸ ComparisonOp.ofKinds?_is (hrest rfl))
  | eq =>
    rcases List.mem_pair.1 h with h | h
    · obtain ⟨t, rfl, ht⟩ := List.map_eq_singleton_iff.1 h
      exact comparisonOp_of_one (by rw [ht]; rfl)
    · obtain ⟨t, rfl, ht⟩ := List.map_eq_singleton_iff.1 h
      exact comparisonOp_of_one (by rw [ht]; rfl)
  | _ =>
    obtain ⟨t, rfl, ht⟩ := List.map_eq_singleton_iff.1 (List.mem_singleton.1 h)
    exact comparisonOp_of_one (by rw [ht]; rfl)

/-- No path and no date goes on with an operator. -/
theorem endsValue_of_op (h : op.Written ts) (scope : Scope) (rest : List Token) :
    EndsValue scope (ts ++ rest) ∧ (head scope (ts ++ rest)).kind ≠ .openParen := by
  have hfirst : ∀ ks ∈ op.spellings, ks.head?.any
      (fun k => k ≠ .dot ∧ k ≠ .plus ∧ k ≠ .minus ∧ k ≠ .openParen) = true := by
    cases op <;> decide
  have hts := hfirst _ h
  cases ts with
  | nil => cases hts
  | cons t ts =>
    obtain ⟨hdot, hplus, hminus, hparen⟩ := of_decide_eq_true hts
    exact ⟨⟨hdot, hplus, hminus⟩, hparen⟩

end Parser

end Blueprint
