import Blueprint.Parser.Block
import Blueprint.Proofs.Outcome

/-!
# What parsers do on tokens

The basic parsers, applied to what they know of the file and to the tokens in front of them. A
sequence of parsers succeeds if each one succeeds on what the last one leaves
(`bind_eq_ok_iff`); two parsers are alike if they have the same successes (`Alike`), whatever they
report when they fail.
-/

namespace Blueprint

/-- The place of a token. -/
def Scope.locate (scope : Scope) (t : Token) : Location :=
  { file := scope.file, line := t.line, column := t.column, inModule := scope.inModule }

namespace Parser

variable {α β σ : Type} {scope : Scope} {ts rest : List Token} {v : α}

/-! ## Sequences -/

theorem bind_eq_ok_iff {p : Parser α} {q : α → Parser β} {w : β} :
    (p >>= q) scope ts = .ok (w, rest) ↔
      ∃ v mid, p scope ts = .ok (v, mid) ∧ q v scope mid = .ok (w, rest) := by
  show (p scope ts >>= fun r => q r.1 scope r.2) = _ ↔ _
  rw [Except.bind_eq_ok_iff]
  constructor
  · rintro ⟨⟨v, mid⟩, hp, hq⟩
    exact ⟨v, mid, hp, hq⟩
  · rintro ⟨v, mid, hp, hq⟩
    exact ⟨⟨v, mid⟩, hp, hq⟩

theorem bind_eq_ok {p : Parser α} {q : α → Parser β} {mid : List Token}
    (h : p scope ts = .ok (v, mid)) : (p >>= q) scope ts = q v scope mid := by
  show (p scope ts >>= fun r => q r.1 scope r.2) = _
  rw [h]
  rfl

theorem map_eq_bind (f : α → β) (p : Parser α) : f <$> p = p >>= fun v => pure (f v) :=
  (bind_pure_comp f p).symm

theorem map_eq_ok_iff {p : Parser α} {f : α → β} {w : β} :
    (f <$> p) scope ts = .ok (w, rest) ↔ ∃ v, p scope ts = .ok (v, rest) ∧ f v = w := by
  rw [map_eq_bind, bind_eq_ok_iff]
  constructor
  · rintro ⟨v, mid, hp, hq⟩
    cases hq
    exact ⟨v, hp, rfl⟩
  · rintro ⟨v, hp, rfl⟩
    exact ⟨v, rest, hp, rfl⟩

/-! ## Looking, moving and failing -/

/-- The token at the front, or the one that stands at the end of the file. -/
def head (scope : Scope) (ts : List Token) : Token := ts.head?.getD scope.final

@[simp] theorem head_cons (scope : Scope) (t : Token) (ts : List Token) :
    head scope (t :: ts) = t := rfl

theorem current_apply (scope : Scope) (ts : List Token) :
    current scope ts = .ok (head scope ts, ts) := by
  show Except.ok (ts[0]?.getD scope.final, ts) = _
  rw [← List.head?_eq_getElem?]
  rfl

theorem peek_one_apply (scope : Scope) (ts : List Token) :
    peek 1 scope ts = .ok (head scope ts.tail, ts) := by
  show Except.ok (ts[1]?.getD scope.final, ts) = _
  cases ts with
  | nil => rfl
  | cons t ts => cases ts <;> rfl

theorem isAtWord_apply (scope : Scope) (ts : List Token) :
    isAtWord scope ts = .ok ((head scope ts).isWord, ts) := by
  unfold isAtWord
  rw [bind_eq_ok (current_apply scope ts)]
  rfl

theorem advance_apply (scope : Scope) (ts : List Token) :
    advance scope ts = .ok (head scope ts, ts.tail) := by
  unfold advance
  rw [bind_eq_ok (current_apply scope ts)]
  rfl

theorem peekIs_apply (n : Nat) (kind : TokenKind) (scope : Scope) (ts : List Token) :
    peekIs n kind scope ts = .ok ((ts[n]?.getD scope.final).kind == kind, ts) := rfl

theorem isAt_apply (kind : TokenKind) (scope : Scope) (ts : List Token) :
    isAt kind scope ts = .ok ((head scope ts).kind == kind, ts) := by
  unfold isAt
  rw [bind_eq_ok (current_apply scope ts)]
  rfl

theorem keyword?_apply (scope : Scope) (ts : List Token) :
    keyword? scope ts = .ok ((head scope ts).keyword?, ts) := by
  unfold keyword?
  rw [bind_eq_ok (current_apply scope ts)]
  rfl

theorem isAtKeyword_apply (k : Keyword) (scope : Scope) (ts : List Token) :
    isAtKeyword k scope ts = .ok ((head scope ts).kind == .keyword k, ts) :=
  isAt_apply (.keyword k) scope ts

theorem isAt_of_eq {kind : TokenKind} {t : Token} (h : t.kind = kind) :
    isAt kind scope (t :: ts) = .ok (true, t :: ts) := by
  rw [isAt_apply]
  show Except.ok (t.kind == kind, t :: ts) = _
  rw [beq_iff_eq.2 h]

theorem isAt_of_ne {kind : TokenKind} {t : Token} (h : t.kind ≠ kind) :
    isAt kind scope (t :: ts) = .ok (false, t :: ts) := by
  rw [isAt_apply]
  show Except.ok (t.kind == kind, t :: ts) = _
  rw [beq_eq_false_iff_ne.2 h]

theorem skip_apply (scope : Scope) (ts : List Token) :
    skip scope ts = .ok ((), skipStatement ts) := rfl

theorem remaining_apply (scope : Scope) (ts : List Token) :
    remaining scope ts = .ok (ts.length, ts) := rfl

theorem here_apply (scope : Scope) (ts : List Token) :
    here scope ts = .ok (scope.locate (head scope ts), ts) := by
  unfold here
  rw [bind_eq_ok (current_apply scope ts)]
  rfl

theorem accept_apply (kind : TokenKind) (scope : Scope) (ts : List Token) :
    accept kind scope ts =
      if (head scope ts).kind = kind then .ok (true, ts.tail) else .ok (false, ts) := by
  unfold accept
  rw [bind_eq_ok (isAt_apply kind scope ts)]
  by_cases h : (head scope ts).kind = kind
  · rw [if_pos h, if_pos (beq_iff_eq.2 h), bind_eq_ok (advance_apply scope ts)]
    rfl
  · rw [if_neg h, if_neg (by rwa [beq_iff_eq])]
    rfl

theorem accept_of_eq {kind : TokenKind} {t : Token} (h : t.kind = kind) :
    accept kind scope (t :: ts) = .ok (true, ts) := by
  rw [accept_apply]
  exact if_pos h

theorem accept_of_ne {kind : TokenKind} {t : Token} (h : t.kind ≠ kind) :
    accept kind scope (t :: ts) = .ok (false, t :: ts) := by
  rw [accept_apply]
  exact if_neg h

theorem failIn_ne_ok {l : Location} {fault : Fault} :
    (failIn l fault : Parser α) scope ts ≠ .ok (v, rest) := by
  intro h
  cases h

theorem failAt_ne_ok {t : Token} {fault : Fault} :
    (failAt t fault : Parser α) scope ts ≠ .ok (v, rest) := by
  intro h
  cases h

theorem fail_ne_ok {fault : Fault} : (fail fault : Parser α) scope ts ≠ .ok (v, rest) := by
  intro h
  unfold fail at h
  rw [bind_eq_ok (here_apply scope ts)] at h
  exact failIn_ne_ok h

theorem unexpected_ne_ok {expected : String} :
    (unexpected expected : Parser α) scope ts ≠ .ok (v, rest) := by
  intro h
  unfold unexpected at h
  rw [bind_eq_ok (current_apply scope ts)] at h
  exact fail_ne_ok h

theorem expect_eq_ok_iff {kind : TokenKind} {t : Token} :
    expect kind scope ts = .ok (t, rest) ↔
      (head scope ts).kind = kind ∧ t = head scope ts ∧ rest = ts.tail := by
  unfold expect
  rw [bind_eq_ok (isAt_apply kind scope ts)]
  by_cases h : (head scope ts).kind = kind
  · rw [if_pos (beq_iff_eq.2 h), advance_apply]
    constructor
    · intro e
      cases e
      exact ⟨h, rfl, rfl⟩
    · rintro ⟨_, rfl, rfl⟩
      rfl
  · rw [if_neg (by rwa [beq_iff_eq])]
    exact iff_of_false unexpected_ne_ok fun e => h e.1

theorem expect_of_eq {kind : TokenKind} {t : Token} (h : t.kind = kind) :
    expect kind scope (t :: ts) = .ok (t, ts) :=
  expect_eq_ok_iff.2 ⟨h, rfl, rfl⟩

/-! ## Loops -/

section

variable {step : σ → Parser (Option σ)} {s s' : σ}

theorem iterateOn_of_none (h : step s scope ts = .ok (none, rest)) :
    iterateOn step scope s ts = .ok (s, rest) := by
  rw [iterateOn, h]

theorem iterateOn_of_some (h : step s scope ts = .ok (some s', rest)) :
    iterateOn step scope s ts =
      if rest.length < ts.length then iterateOn step scope s' rest else .ok (s', rest) := by
  rw [iterateOn, h]

/-- A loop that succeeds has taken a first step. -/
theorem exists_step_of_iterateOn {out : σ × List Token} (h : iterateOn step scope s ts = .ok out) :
    ∃ next mid, step s scope ts = .ok (next, mid) := by
  rw [iterateOn] at h
  cases hs : step s scope ts with
  | error e => rw [hs] at h; cases h
  | ok out => exact ⟨out.1, out.2, rfl⟩

end

theorem skipNewlines_apply (h : scope.final.kind = .endOfFile) (ts : List Token) :
    skipNewlines scope ts = .ok ((), ts.dropWhile (·.kind == .newline)) := by
  show iterateOn _ scope () ts = _
  have hstop : ∀ us, (head scope us).kind ≠ .newline →
      (accept .newline >>= fun b => if b = true then pure (some ()) else pure none) scope us =
        .ok (none, us) := by
    intro us hus
    rw [bind_eq_ok (by rw [accept_apply, if_neg hus])]
    rfl
  induction ts with
  | nil =>
    refine iterateOn_of_none (hstop [] ?_)
    show scope.final.kind ≠ .newline
    rw [h]
    decide
  | cons t ts ih =>
    by_cases ht : t.kind = .newline
    · have hstep : (accept .newline >>= fun b => if b = true then pure (some ()) else pure none)
          scope (t :: ts) = .ok (some (), ts) := by
        rw [bind_eq_ok (by rw [accept_apply]; exact if_pos ht)]
        rfl
      rw [iterateOn_of_some hstep,
        if_pos (show ts.length < (t :: ts).length from Nat.lt_succ_self _), ih,
        List.dropWhile_cons_of_pos (by rw [ht]; rfl)]
    · rw [List.dropWhile_cons_of_neg (by rwa [beq_iff_eq])]
      exact iterateOn_of_none (hstop (t :: ts) ht)

/-! ## Parsers with the same successes -/

/-- Whatever the first parser succeeds with, the second one succeeds with. -/
class Alike (p p' : Parser α) : Prop where
  run : ∀ {scope ts v rest}, p scope ts = .ok (v, rest) → p' scope ts = .ok (v, rest)

namespace Alike

instance rfl {p : Parser α} : Alike p p := ⟨id⟩

instance bind {p p' : Parser α} {q q' : α → Parser β} [hp : Alike p p']
    [hq : ∀ v, Alike (q v) (q' v)] : Alike (p >>= q) (p' >>= q') where
  run h := by
    obtain ⟨v, mid, hv, hw⟩ := bind_eq_ok_iff.1 h
    exact bind_eq_ok_iff.2 ⟨v, mid, hp.run hv, (hq v).run hw⟩

instance ite {c : Prop} [Decidable c] {p p' q q' : Parser α} [hp : Alike p p'] [hq : Alike q q'] :
    Alike (if c then p else q) (if c then p' else q') := by
  split
  · exact hp
  · exact hq

instance failAt {t : Token} {fault : Fault} {p : Parser α} : Alike (failAt t fault) p :=
  ⟨fun h => absurd h failAt_ne_ok⟩

instance failIn {l : Location} {fault : Fault} {p : Parser α} : Alike (failIn l fault) p :=
  ⟨fun h => absurd h failIn_ne_ok⟩

instance required {c n d : String} {l l' : Location} {o : Option α} :
    Alike (required c n d l o) (required c n d l' o) := by
  cases o with
  | none => exact failIn
  | some v => exact rfl

end Alike

end Parser

end Blueprint
