import Blueprint.Expr.Grammar
import Blueprint.Proofs.Running

/-!
# Operands joined by connectives

`connected` reads in two loops, one inside the other: operands joined by `and`, and those by `or`.
How far each loop has come when an expression has been read depends on its outermost connective that
stands in no parentheses (`ReadsTo`). How the operands of a connective are read decides how they are
read together (`ReadsTo.logical`).
-/

namespace Blueprint

/-- The word that a connective is written with. -/
def Connective.keyword : Connective → Keyword
  | and => .andOp
  | or => .orOp

namespace Parser

variable {α : Type} {combine : Connective → α → α → α} {operand : Parser α} {c : Connective}
  {scope : Scope} {k k' : Option Connective} {a b left : α} {t : Token} {ts us rest : List Token}

/-! ## Nested grammars -/

/-- A parser that is not tried on `n` tokens or more. -/
def within (n : Nat) (p : Parser α) : Parser α := fun scope rest =>
  if rest.length < n then p scope rest else unexpected "nested expression" scope rest

theorem within_apply {n : Nat} {p : Parser α} (h : rest.length < n) :
    within n p scope rest = p scope rest := if_pos h

theorem nested_apply (body : Parser α → Parser α) (scope : Scope) (ts : List Token) :
    nested body scope ts = body (within ts.length (nested body)) scope ts := by
  unfold nested
  rw [nestedOn]
  rfl

/-- Fewer tokens stand behind one than with it. -/
theorem length_behind_lt {n : Nat} (h : (ts ++ t :: us).length ≤ n) : us.length < n := by
  rw [List.length_append, List.length_cons] at h
  omega

/-! ## One connective -/

/-- One round of the loop over the operands of a connective. -/
def chainStep (combine : Connective → α → α → α) (operand : Parser α) (c : Connective) (left : α) :
    Parser (Option α) := do
  match ← joined? c.keyword (combine c) with
  | some f => return some (f left (← operand))
  | none => return none

theorem joined?_of_keyword (ht : t.kind = .keyword c.keyword) (f : α → α → α) :
    joined? c.keyword f scope (t :: ts) = .ok (some f, ts) := by
  have haccept : acceptKeyword c.keyword scope (t :: ts) = .ok (true, ts) := accept_of_eq ht
  unfold joined?
  rw [bind_eq_ok haccept]
  rfl

theorem chainStep_of_operand (ht : t.kind = .keyword c.keyword)
    (h : operand scope ts = .ok (a, rest)) :
    chainStep combine operand c left scope (t :: ts) = .ok (some (combine c left a), rest) := by
  unfold chainStep
  rw [bind_eq_ok (joined?_of_keyword ht _)]
  dsimp only
  rw [bind_eq_ok h]
  rfl

theorem chainStep_of_stop (h : (head scope ts).kind ≠ .keyword c.keyword) :
    chainStep combine operand c left scope ts = .ok (none, ts) := by
  have haccept : acceptKeyword c.keyword scope ts = .ok (false, ts) := by
    unfold acceptKeyword
    rw [accept_apply, if_neg h]
  have hjoined : joined? c.keyword (combine c) scope ts = .ok (none, ts) := by
    unfold joined?
    rw [bind_eq_ok haccept]
    rfl
  unfold chainStep
  rw [bind_eq_ok hjoined]
  rfl

/-- Operands joined by one connective. -/
def chain (combine : Connective → α → α → α) (operand : Parser α) (c : Connective) : Parser α :=
  leftChain operand (joined? c.keyword (combine c))

theorem connected_eq (combine : Connective → α → α → α) (operand : Parser α) :
    connected combine operand = chain combine (chain combine operand .and) .or := rfl

theorem chain_of_operand (h : operand scope ts = .ok (a, rest)) :
    chain combine operand c scope ts =
      iterateOn (chainStep combine operand c) scope a rest := by
  unfold chain leftChain
  rw [bind_eq_ok h]
  rfl

/-- The loop goes on behind another operand. -/
theorem iterateOn_chainStep (ht : t.kind = .keyword c.keyword)
    (h : operand scope us = .ok (a, rest)) (hlength : rest.length ≤ us.length) :
    iterateOn (chainStep combine operand c) scope left (t :: us) =
      iterateOn (chainStep combine operand c) scope (combine c left a) rest := by
  rw [iterateOn_of_some (chainStep_of_operand ht h), if_pos]
  exact Nat.lt_succ_of_le hlength

/-! ## Both connectives -/

/-- How the expression in front of `rest` is read, by its outermost connective. Without one it is an
operand; with one it is what the loop of that connective has come to. -/
def ReadsTo (combine : Connective → α → α → α) (operand : Parser α) (scope : Scope) :
    Option Connective → α → List Token → List Token → Prop
  | none, a, ts, rest => operand scope ts = .ok (a, rest)
  | some .and, a, ts, rest => chain combine operand .and scope ts =
      iterateOn (chainStep combine operand .and) scope a rest
  | some .or, a, ts, rest => (head scope rest).kind ≠ .keyword .andOp →
      connected combine operand scope ts =
        iterateOn (chainStep combine (chain combine operand .and) .or) scope a rest

namespace ReadsTo

theorem chain_and (h : ReadsTo combine operand scope k a ts rest) (hk : k ≠ some .or) :
    chain combine operand .and scope ts =
      iterateOn (chainStep combine operand .and) scope a rest := by
  cases k with
  | none => exact chain_of_operand h
  | some c =>
    cases c with
    | and => exact h
    | or => exact absurd rfl hk

theorem chain_and_eq_ok (h : ReadsTo combine operand scope k a ts rest) (hk : k ≠ some .or)
    (hrest : (head scope rest).kind ≠ .keyword .andOp) :
    chain combine operand .and scope ts = .ok (a, rest) := by
  rw [h.chain_and hk]
  exact iterateOn_of_none (chainStep_of_stop hrest)

theorem connected (h : ReadsTo combine operand scope k a ts rest)
    (hrest : (head scope rest).kind ≠ .keyword .andOp) :
    Parser.connected combine operand scope ts =
      iterateOn (chainStep combine (chain combine operand .and) .or) scope a rest := by
  by_cases hk : k = some .or
  · subst hk
    exact h hrest
  · rw [connected_eq]
    exact chain_of_operand (h.chain_and_eq_ok hk hrest)

/-- In front of a sign or the end of a line, both loops are at their end. -/
theorem connected_eq_ok (h : ReadsTo combine operand scope k a ts (t :: us))
    (ht : ∀ w : Keyword, t.kind ≠ .keyword w) :
    Parser.connected combine operand scope ts = .ok (a, t :: us) := by
  rw [h.connected (ht .andOp)]
  exact iterateOn_of_none (chainStep_of_stop (ht _))

/-- Two operands with a connective between them: without parentheses, `and` joins no `or`, and no
connective stands on the right of the same one. -/
theorem logical (ha : ReadsTo combine operand scope k a ts (t :: us))
    (hb : ReadsTo combine operand scope k' b us rest) (ht : t.kind = .keyword c.keyword)
    (hlength : rest.length ≤ us.length) (hor : c = .and → k ≠ some .or ∧ k' ≠ some .or)
    (hright : k' ≠ some c) : ReadsTo combine operand scope (some c) (combine c a b) ts rest := by
  cases c with
  | and =>
    obtain ⟨hk, hk'⟩ := hor rfl
    have hnone : k' = none := by
      cases k' with
      | none => rfl
      | some c => cases c <;> contradiction
    subst hnone
    exact (ha.chain_and hk).trans (iterateOn_chainStep ht hb hlength)
  | or =>
    intro hrest
    have hstop : (head scope (t :: us)).kind ≠ .keyword .andOp := by
      rw [head_cons, ht]
      decide
    rw [ha.connected hstop]
    exact iterateOn_chainStep ht (hb.chain_and_eq_ok hright hrest) hlength

end ReadsTo

/-! ## Operands that are refused -/

variable {e : SyntaxError}

theorem bind_eq_error {β : Type} {p : Parser α} {q : α → Parser β} (h : p scope ts = .error e) :
    (p >>= q) scope ts = .error e := by
  show (p scope ts >>= fun r => q r.1 scope r.2) = _
  rw [h]
  rfl

theorem chain_of_error (h : operand scope ts = .error e) :
    chain combine operand c scope ts = .error e := bind_eq_error h

theorem iterateOn_chainStep_of_error (ht : t.kind = .keyword c.keyword)
    (h : operand scope ts = .error e) :
    iterateOn (chainStep combine operand c) scope left (t :: ts) = .error e := by
  have hstep : chainStep combine operand c left scope (t :: ts) = .error e := by
    unfold chainStep
    rw [bind_eq_ok (joined?_of_keyword ht _)]
    exact bind_eq_error h
  rw [iterateOn, hstep]

namespace ReadsTo

/-- The loop of `and` does not get past an operand that is refused. -/
theorem chain_and_of_error (h : ReadsTo combine operand scope k a ts (t :: us)) (hk : k ≠ some .or)
    (ht : t.kind = .keyword .andOp) (hus : operand scope us = .error e) :
    chain combine operand .and scope ts = .error e :=
  (h.chain_and hk).trans (iterateOn_chainStep_of_error ht hus)

/-- Nor does the loop of `or` get past operands of `and` that are. -/
theorem connected_of_error (h : ReadsTo combine operand scope k a ts (t :: us))
    (ht : t.kind = .keyword .orOp) (hus : chain combine operand .and scope us = .error e) :
    Parser.connected combine operand scope ts = .error e := by
  have hstop : (head scope (t :: us)).kind ≠ .keyword .andOp := by
    rw [head_cons, ht]
    decide
  exact (h.connected hstop).trans (iterateOn_chainStep_of_error ht hus)

end ReadsTo

end Parser

end Blueprint
