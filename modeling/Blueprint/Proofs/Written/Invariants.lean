import Blueprint.Proofs.Written.Chains
import Blueprint.Proofs.Written.Values

/-!
# Written invariants

Invariants are written like conditions, with `not` in front of an operand (`Invariant.Written`), and
read back at the end of a line. Their operators only compare values: an invariant that goes as far
as another operator is refused, whatever stands behind that (`invariant_written`).

What may stand in front of a comparison follows the grammar (`Invariant.Opening`). On the way to the
comparison each parser has to wait for the next, so all of them report what the innermost reports.
-/

namespace Blueprint

namespace InvariantTerm

inductive Written : InvariantTerm → List Token → Prop where
  | field {p : FieldPath} {ts : List Token} (h : p.Written ts) : Written (.field p) ts
  | literal {l : Literal} {ts : List Token} (h : l.Written ts) : Written (.literal l) ts
  | duration {d : Duration} {t : Token} (h : d.IsCompact t) : Written (.duration d) [t]
  | date {d : DateExpr} {ts : List Token} (h : d.Written ts) : Written (.date d) ts
  | offset {p : FieldPath} {sign : OffsetSign} {d : Duration} {ts us : List Token}
    (h : p.Written ts) (hoffset : OffsetWritten sign d us) : Written (.offset p sign d) (ts ++ us)

/-- No path starts like a date. -/
def Writable : InvariantTerm → Prop
  | field p => p.Writable ∧ ∀ a : DateAnchor, p.root ≠ a.spelling
  | literal l => l.Writable
  | duration d => d.Writable
  | date d => d.Writable
  | offset p _ d => (p.Writable ∧ ∀ a : DateAnchor, p.root ≠ a.spelling) ∧ d.Writable

variable {v : InvariantTerm} {ts : List Token}

theorem Writable.exists_written (h : v.Writable) : ∃ ts, v.Written ts := by
  cases v with
  | field p => exact h.1.exists_written.imp fun _ => .field
  | literal l => exact Literal.Writable.exists_written h |>.imp fun _ => .literal
  | duration d =>
    obtain ⟨t, ht⟩ := d.exists_isCompact
    exact ⟨_, .duration ht⟩
  | date d => exact d.exists_written.imp fun _ => .date
  | offset p sign d =>
    obtain ⟨ts, hts⟩ := h.1.1.exists_written
    obtain ⟨t, ht⟩ := d.exists_isCompact
    exact ⟨_, .offset hts (.mk (t := ⟨sign.kind, "", 0, 0⟩) rfl (.compact ht))⟩

theorem Written.startsValue (h : v.Written ts) (hv : v.Writable) : StartsValue ts := by
  cases h with
  | field h => exact h.startsValue hv.1
  | literal h => exact h.startsValue
  | duration h => exact startsValue_cons h.kind (by decide) []
  | date h => exact h.startsValue
  | offset h => exact (h.startsValue hv.1.1).append _

end InvariantTerm

/-! ## Invariants -/

namespace Invariant

/-- How an invariant is written, and its connective that stands in no parentheses and behind no
`not`. -/
inductive Written : Invariant → Option Connective → List Token → Prop where
  | comparison {left right : InvariantTerm} {op : ComparisonOp} {ts us vs : List Token}
    (hleft : left.Written ts) (hop : op.Written us) (hright : right.Written vs) :
    Written (.comparison left op right) none (ts ++ (us ++ vs))
  | not {e : Invariant} {t : Token} {ts : List Token} (ht : t.kind = .keyword .notOp)
    (h : Written e none ts) : Written (.not e) none (t :: ts)
  | logical {op : Connective} {left right : Invariant} {k k' : Option Connective} {t : Token}
    {ts us : List Token} (hleft : Written left k ts) (ht : t.kind = .keyword op.keyword)
    (hright : Written right k' us) (hor : op = .and → k ≠ some .or ∧ k' ≠ some .or)
    (hsame : k' ≠ some op) : Written (.logical op left right) (some op) (ts ++ t :: us)
  | parens {e : Invariant} {k : Option Connective} {o c : Token} {ts : List Token}
    (ho : o.kind = .openParen) (h : Written e k ts) (hc : c.kind = .closeParen) :
    Written e none (o :: (ts ++ [c]))

/-- Its operators only compare values. -/
def Writable : Invariant → Prop
  | comparison left op right => left.Writable ∧ op.comparesValues = true ∧ right.Writable
  | logical _ left right => left.Writable ∧ right.Writable
  | not operand => operand.Writable

/-- What may stand in front of an operand of `not` or of `and`, or of what `or` joins. -/
inductive Opening : Option Connective → List Token → Prop where
  | start : Opening none []
  | not {t : Token} {ts : List Token} (ht : t.kind = .keyword .notOp) (h : Opening none ts) :
    Opening none (t :: ts)
  | parens {o : Token} {ts : List Token} (ho : o.kind = .openParen) (h : Opening (some .or) ts) :
    Opening none (o :: ts)
  | first {ts : List Token} (h : Opening none ts) : Opening (some .and) ts
  | and {left : Invariant} {k : Option Connective} {t : Token} {ts us : List Token}
    (hleft : left.Writable) (hus : left.Written k us) (hk : k ≠ some .or)
    (ht : t.kind = .keyword .andOp) (h : Opening none ts) : Opening (some .and) (us ++ t :: ts)
  | all {ts : List Token} (h : Opening (some .and) ts) : Opening (some .or) ts
  | or {left : Invariant} {k : Option Connective} {t : Token} {ts us : List Token}
    (hleft : left.Writable) (hus : left.Written k us) (ht : t.kind = .keyword .orOp)
    (h : Opening (some .and) ts) : Opening (some .or) (us ++ t :: ts)

variable {e : Invariant} {k : Option Connective} {ts : List Token}

theorem Written.exists_parens (h : e.Written k ts) : ∃ us, e.Written none us :=
  ⟨_, .parens (o := ⟨.openParen, "(", 0, 0⟩) (c := ⟨.closeParen, ")", 0, 0⟩) rfl h rfl⟩

theorem Writable.exists_written (h : e.Writable) : ∃ k ts, e.Written k ts := by
  induction e with
  | comparison left op right =>
    obtain ⟨ts, hts⟩ := h.1.exists_written
    obtain ⟨us, hus⟩ := op.exists_written
    obtain ⟨vs, hvs⟩ := h.2.2.exists_written
    exact ⟨_, _, .comparison hts hus hvs⟩
  | logical op left right ihl ihr =>
    obtain ⟨k, ts, hts⟩ := ihl h.1
    obtain ⟨k', us, hus⟩ := ihr h.2
    obtain ⟨ts, hts⟩ := hts.exists_parens
    obtain ⟨us, hus⟩ := hus.exists_parens
    exact ⟨_, _, .logical (t := ⟨.keyword op.keyword, "", 0, 0⟩) hts rfl hus
      (fun _ => ⟨nofun, nofun⟩) nofun⟩
  | not operand ih =>
    obtain ⟨k, ts, hts⟩ := ih h
    obtain ⟨ts, hts⟩ := hts.exists_parens
    exact ⟨_, _, .not (t := ⟨.keyword .notOp, "not", 0, 0⟩) rfl hts⟩

end Invariant

namespace Parser

variable {scope : Scope} {v : InvariantTerm} {e : Invariant} {k : Option Connective}
  {inner rule : Parser Invariant} {t : Token} {ts us rest : List Token}

/-! ## Terms -/

theorem invariantTerm_of_duration {d : Duration} (h : d.IsCompact t) (hd : d.Writable)
    (rest : List Token) : invariantTerm scope (t :: rest) = .ok (.duration d, rest) := by
  unfold invariantTerm
  rw [bind_eq_ok (isAt_of_eq h.kind), if_pos rfl]
  exact bind_eq_ok (duration_of_isCompact h hd rest)

theorem invariantTerm_of_literal {l : Literal} (h : l.Written ts) (hl : l.Writable)
    (rest : List Token) : invariantTerm scope (ts ++ rest) = .ok (.literal l, rest) := by
  have hread : literal scope (ts ++ rest) = .ok (l, rest) := literal_of_written h hl rest
  have hat : isAtLiteral scope (ts ++ rest) = .ok (true, ts ++ rest) :=
    isAtLiteral_of_written h rest
  obtain ⟨t, us, rfl, ht⟩ := Literal.opens_of_written h
  have hduration : t.kind ≠ .duration := by
    intro hk
    rw [hk] at ht
    cases ht
  unfold invariantTerm
  rw [List.cons_append] at hread hat ⊢
  rw [bind_eq_ok (isAt_of_ne hduration), if_neg Bool.false_ne_true, bind_eq_ok hat, if_pos rfl]
  exact bind_eq_ok hread

theorem invariantTerm_of_date {d : DateExpr} (h : d.Written ts) (hd : d.Writable)
    (hrest : EndsValue scope rest) :
    invariantTerm scope (ts ++ rest) = .ok (.date d, rest) := by
  have hread := date_of_written h hd hrest
  obtain ⟨t, us, rfl, ht⟩ := h.exists_anchor
  have hduration : t.kind ≠ .duration := by
    rw [ht]
    exact TokenKind.noConfusion
  have hliteral : t.kind.opensLiteral = false := by
    rw [ht]
    cases d.anchor <;> rfl
  unfold invariantTerm
  rw [List.cons_append, bind_eq_ok (isAt_of_ne hduration), if_neg Bool.false_ne_true,
    bind_eq_ok (isAtLiteral_of_not hliteral _), if_neg Bool.false_ne_true,
    bind_eq_ok (isAtDate_of_anchor ht _), if_pos rfl]
  exact bind_eq_ok hread

/-- A path is read with the offset behind it, if there is one. -/
theorem invariantTerm_of_path {p : FieldPath} (h : p.Written ts) (hp : p.Writable)
    (hdate : ∀ a : DateAnchor, p.root ≠ a.spelling) (hus : (head scope us).kind ≠ .dot)
    {o : Option (OffsetSign × Duration)} (hoffset : offset? scope us = .ok (o, rest)) :
    invariantTerm scope (ts ++ us) =
      .ok (match o with | some (sign, d) => .offset p sign d | none => .field p, rest) := by
  have hread := fieldPath_of_written h hp hus
  obtain ⟨t, more, rfl, ht, -⟩ := h.exists_root
  have hduration : t.kind ≠ .duration :=
    ht.kind ▸ hp.root.ofWord_ne_sign TokenKind.noConfusion fun _ => TokenKind.noConfusion
  have hliteral : t.kind.opensLiteral = false := ht.kind ▸ hp.root.not_opensLiteral
  have hanchor : ∀ a : DateAnchor, t.kind ≠ .keyword a.keyword :=
    fun a => ht.kind ▸ hp.root.ofWord_ne_anchor hdate a
  unfold invariantTerm
  rw [List.cons_append] at hread ⊢
  rw [bind_eq_ok (isAt_of_ne hduration), if_neg Bool.false_ne_true,
    bind_eq_ok (isAtLiteral_of_not hliteral _), if_neg Bool.false_ne_true,
    bind_eq_ok (isAtDate_of_not hanchor _), if_neg Bool.false_ne_true, bind_eq_ok hread,
    bind_eq_ok hoffset]
  cases o <;> rfl

theorem invariantTerm_of_written (h : v.Written ts) (hv : v.Writable)
    (hrest : EndsValue scope rest) : invariantTerm scope (ts ++ rest) = .ok (v, rest) := by
  cases h with
  | field h => exact invariantTerm_of_path h hv.1 hv.2 hrest.1 (offset?_of_ends hrest)
  | literal h => exact invariantTerm_of_literal h hv rest
  | duration h => exact invariantTerm_of_duration h hv rest
  | date h => exact invariantTerm_of_date h hv hrest
  | @offset p sign d ts us h hoffset =>
    have hdot : (head scope (us ++ rest)).kind ≠ .dot := by
      cases hoffset with
      | mk ht =>
        rw [List.cons_append, head_cons, ht]
        cases sign <;> decide
    rw [List.append_assoc]
    exact invariantTerm_of_path h hv.1.1 hv.1.2 hdot (offset?_of_written hoffset hv.2 rest)

/-! ## Operands -/

/-- One operand of `not` and of the connectives. -/
def invariantOperandWith (inner rule : Parser Invariant) : Parser Invariant := do
  if ← acceptKeyword .notOp then return .not (← rule)
  else if ← accept .openParen then
    let i ← inner
    let _ ← expect .closeParen
    return i
  else comparison

/-- The operands of the connectives, in which `not` may be repeated. -/
def invariantOperand (inner : Parser Invariant) : Parser Invariant :=
  nested (invariantOperandWith inner)

theorem invariant_apply (scope : Scope) (ts : List Token) :
    invariant scope ts =
      connected .logical (invariantOperand (within ts.length invariant)) scope ts :=
  nested_apply _ scope ts

theorem invariantOperand_apply (inner : Parser Invariant) (scope : Scope) (ts : List Token) :
    invariantOperand inner scope ts =
      invariantOperandWith inner (within ts.length (invariantOperand inner)) scope ts :=
  nested_apply _ scope ts

/-- What follows `not` is an operand again. -/
theorem invariantOperand_of_not (ht : t.kind = .keyword .notOp) (ts : List Token) :
    invariantOperand inner scope (t :: ts) =
      (do return .not (← invariantOperand inner) : Parser Invariant) scope ts := by
  have haccept : acceptKeyword .notOp scope (t :: ts) = .ok (true, ts) := accept_of_eq ht
  rw [invariantOperand_apply]
  unfold invariantOperandWith
  rw [bind_eq_ok haccept, if_pos rfl]
  show (within _ _ scope ts >>= fun r => _) = (invariantOperand inner scope ts >>= fun r => _)
  rw [within_apply (List.length_cons ▸ Nat.lt_succ_self _)]

theorem invariantOperand_of_parens {o : Token} (ho : o.kind = .openParen) (ts : List Token) :
    invariantOperand inner scope (o :: ts) = (do
      let i ← inner
      let _ ← expect .closeParen
      return i : Parser Invariant) scope ts := by
  have hnot : acceptKeyword .notOp scope (o :: ts) = .ok (false, o :: ts) := by
    refine accept_of_ne ?_
    rw [ho]
    exact TokenKind.noConfusion
  rw [invariantOperand_apply]
  unfold invariantOperandWith
  rw [bind_eq_ok hnot, if_neg Bool.false_ne_true, bind_eq_ok (accept_of_eq ho), if_pos rfl]

theorem invariantOperand_of_term (h : v.Written ts) (hv : v.Writable) (rest : List Token) :
    invariantOperand inner scope (ts ++ rest) = comparison scope (ts ++ rest) := by
  obtain ⟨t, us, rfl, hnot, hparen, -⟩ := h.startsValue hv
  have hkeyword : acceptKeyword .notOp scope (t :: (us ++ rest)) = .ok (false, t :: (us ++ rest)) :=
    accept_of_ne hnot
  rw [invariantOperand_apply]
  unfold invariantOperandWith
  rw [List.cons_append, bind_eq_ok hkeyword, if_neg Bool.false_ne_true,
    bind_eq_ok (accept_of_ne hparen), if_neg Bool.false_ne_true]

variable {left right : InvariantTerm} {op : ComparisonOp} {vs : List Token}

theorem comparison_of_written (hleft : left.Written ts) (hl : left.Writable) (hop : op.Written us)
    (hcompares : op.comparesValues = true) (hright : right.Written vs) (hr : right.Writable)
    (hrest : EndsValue scope rest) :
    comparison scope (ts ++ (us ++ (vs ++ rest))) = .ok (.comparison left op right, rest) := by
  have hterm := invariantTerm_of_written hleft hl (endsValue_of_op hop scope (vs ++ rest)).1
  have hread : comparisonOp scope (us ++ (vs ++ rest)) = .ok (op, vs ++ rest) := by
    refine comparisonOp_of_written hop fun his => ?_
    rw [his] at hcompares
    cases hcompares
  unfold comparison
  rw [bind_eq_ok hterm, bind_eq_ok hread, if_pos hcompares]
  exact bind_eq_ok (invariantTerm_of_written hright hr hrest)

/-- The parser refuses an operator that does not only compare values. -/
def RefusesOperator (r : Except SyntaxError (Invariant × List Token)) : Prop :=
  ∃ (e : SyntaxError) (op : ComparisonOp), r = .error e ∧ op.comparesValues = false ∧
    e.fault = .operatorInInvariant op.symbol

/-- The right side is not looked at. -/
theorem comparison_refuses (hleft : left.Written ts) (hl : left.Writable) (hop : op.Written us)
    (hcompares : op.comparesValues = false) (rest : List Token) :
    RefusesOperator (comparison scope (ts ++ (us ++ rest))) := by
  have hterm := invariantTerm_of_written hleft hl (endsValue_of_op hop scope rest).1
  obtain ⟨op', behind, hread, hop'⟩ : ∃ op' behind,
      comparisonOp scope (us ++ rest) = .ok (op', behind) ∧ op'.comparesValues = false := by
    by_cases his : op = .is ∧ (head scope rest).kind = .keyword .notOp
    · -- the operator goes on with the next token
      obtain ⟨rfl, hrest⟩ := his
      obtain ⟨t, rfl, ht⟩ := List.map_eq_singleton_iff.1 (List.mem_singleton.1 hop)
      have hkinds : ComparisonOp.ofKinds? (head scope (t :: rest)).kind
          (head scope (t :: rest).tail).kind = some (.isNot, 2) := by
        rw [head_cons, ht, List.tail_cons, hrest]
        rfl
      exact ⟨.isNot, _, comparisonOp_of_kinds hkinds, rfl⟩
    · exact ⟨op, rest, comparisonOp_of_written hop fun h hk => his ⟨h, hk⟩, hcompares⟩
  have hnot : ¬ op'.comparesValues = true := by
    rw [hop']
    exact Bool.false_ne_true
  unfold comparison
  rw [bind_eq_ok hterm, bind_eq_ok hread, if_neg hnot]
  exact ⟨_, op', rfl, hop', rfl⟩

/-- As far as a written invariant is read, whatever follows it. -/
theorem readsTo_invariant (h : e.Written k ts) (he : e.Writable) (n : Nat)
    (hrest : EndsValue scope rest) (hn : (ts ++ rest).length ≤ n) :
    ReadsTo .logical (invariantOperand (within n invariant)) scope k e (ts ++ rest) rest := by
  induction h generalizing n rest with
  | comparison hleft hop hright =>
    simp only [List.append_assoc]
    exact (invariantOperand_of_term hleft he.1 _).trans
      (comparison_of_written hleft he.1 hop he.2.1 hright he.2.2 hrest)
  | @not e t ts ht _ ih =>
    have hoperand : invariantOperand (within n invariant) scope (ts ++ rest) = .ok (e, rest) :=
      ih he n hrest (Nat.le_of_succ_le hn)
    exact (invariantOperand_of_not ht _).trans (bind_eq_ok hoperand)
  | @logical op left right k k' t ts us _ ht _ hor hsame ihl ihr =>
    have hends : EndsValue scope (t :: (us ++ rest)) :=
      endsValue_cons ht ⟨TokenKind.noConfusion, TokenKind.noConfusion, TokenKind.noConfusion⟩ _
    rw [List.append_assoc, List.cons_append] at hn ⊢
    have hright : (us ++ rest).length ≤ n := Nat.le_of_lt (length_behind_lt hn)
    have hbehind : rest.length ≤ (us ++ rest).length := (List.suffix_append us rest).length_le
    exact (ihl he.1 n hends hn).logical (ihr he.2 n hrest hright) ht hbehind hor hsame
  | @parens e k o c ts ho _ hc ih =>
    have hinner : invariant scope (ts ++ c :: rest) = .ok (e, c :: rest) := by
      rw [invariant_apply]
      exact (ih he _ (endsValue_cons hc (by decide) rest) (Nat.le_refl _)).connected_eq_ok
        fun w hw => by cases hc.symm.trans hw
    rw [List.cons_append, List.append_assoc, List.singleton_append] at hn ⊢
    have hlength : (ts ++ c :: rest).length < n := Nat.lt_of_succ_le hn
    refine (invariantOperand_of_parens ho _).trans ?_
    rw [bind_eq_ok ((within_apply hlength).trans hinner), bind_eq_ok (expect_of_eq hc)]
    rfl

/-- The loop of the given connective, or one operand. -/
def level (inner : Parser Invariant) : Option Connective → Parser Invariant
  | none => invariantOperand inner
  | some .and => chain .logical (invariantOperand inner) .and
  | some .or => connected .logical (invariantOperand inner)

/-- What an operand is refused for, all in front of it is refused for. -/
theorem refuses_of_opening (h : Invariant.Opening k ts) (n : Nat) (hn : (ts ++ us).length ≤ n)
    (hus : ∀ inner, RefusesOperator (invariantOperand inner scope us)) :
    RefusesOperator (level (within n invariant) k scope (ts ++ us)) := by
  induction h generalizing n with
  | start => exact hus _
  | not ht _ ih =>
    obtain ⟨e, op, he, hop⟩ := ih n (Nat.le_of_succ_le hn)
    exact ⟨e, op, (invariantOperand_of_not ht _).trans (bind_eq_error he), hop⟩
  | @parens o ts ho _ ih =>
    obtain ⟨e, op, he, hop⟩ := ih _ (Nat.le_refl _)
    have hinner : invariant scope (ts ++ us) = .error e := (invariant_apply _ _).trans he
    have hwithin : within n invariant scope (ts ++ us) = .error e :=
      (within_apply (Nat.lt_of_succ_le hn)).trans hinner
    exact ⟨e, op, (invariantOperand_of_parens ho _).trans (bind_eq_error hwithin), hop⟩
  | first _ ih =>
    obtain ⟨e, op, he, hop⟩ := ih n hn
    exact ⟨e, op, chain_of_error he, hop⟩
  | all _ ih =>
    obtain ⟨e, op, he, hop⟩ := ih n hn
    refine ⟨e, op, ?_, hop⟩
    show connected _ _ scope _ = _
    rw [connected_eq]
    exact chain_of_error he
  | @and left k t ts ws hleft hws hk ht _ ih =>
    rw [List.append_assoc, List.cons_append] at hn ⊢
    obtain ⟨e, op, he, hop⟩ := ih n (Nat.le_of_lt (length_behind_lt hn))
    have hends : EndsValue scope (t :: (ts ++ us)) := endsValue_cons ht (by decide) _
    have hread := readsTo_invariant hws hleft n hends hn
    exact ⟨e, op, hread.chain_and_of_error hk ht he, hop⟩
  | @or left k t ts ws hleft hws ht _ ih =>
    rw [List.append_assoc, List.cons_append] at hn ⊢
    obtain ⟨e, op, he, hop⟩ := ih n (Nat.le_of_lt (length_behind_lt hn))
    have hends : EndsValue scope (t :: (ts ++ us)) := endsValue_cons ht (by decide) _
    have hread := readsTo_invariant hws hleft n hends hn
    exact ⟨e, op, hread.connected_of_error ht he, hop⟩

end Parser

/-- At the end of a line, an invariant is read back from each way to write it, and there is one.
Operators that do not only compare values are refused wherever they stand. -/
theorem invariant_written (scope : Scope) :
    (∀ e : Invariant, e.Writable → (∃ k ts, e.Written k ts) ∧
      ∀ k ts newline rest, e.Written k ts → newline.kind = .newline →
        Parser.invariant scope (ts ++ newline :: rest) = .ok (e, newline :: rest)) ∧
    ∀ (front : List Token) (left : InvariantTerm) (op : ComparisonOp) (ts us rest : List Token),
      Invariant.Opening (some .or) front → left.Writable → left.Written ts →
      op.comparesValues = false → op.Written us →
      Parser.RefusesOperator (Parser.invariant scope (front ++ (ts ++ (us ++ rest)))) := by
  constructor
  · refine fun e he => ⟨he.exists_written, fun k ts newline rest h hline => ?_⟩
    have hends : Parser.EndsValue scope (newline :: rest) :=
      Parser.endsValue_cons hline (by decide) rest
    rw [Parser.invariant_apply]
    exact (Parser.readsTo_invariant h he _ hends (Nat.le_refl _)).connected_eq_ok
      fun w hw => by cases hline.symm.trans hw
  · intro front left op ts us rest hfront hl hleft hcompares hop
    rw [Parser.invariant_apply]
    refine Parser.refuses_of_opening hfront _ (Nat.le_refl _) fun inner => ?_
    rw [Parser.invariantOperand_of_term hleft hl]
    exact Parser.comparison_refuses hleft hl hop hcompares rest

/-- `not due + 7d <= today or total == 5 and closed != null`, and behind `not (total == 5 and` the
comparison `closed is not null`. -/
theorem invariant_written_order :
    let word (s : String) : Token := ⟨.ofWord s, s, 1, 1⟩
    let sign (k : TokenKind) : Token := ⟨k, "", 1, 1⟩
    let shifted : Invariant :=
      .comparison (.offset ⟨["due"]⟩ .plus ⟨7, .days⟩) .le (.date ⟨.today, none⟩)
    let five : Invariant := .comparison (.field ⟨["total"]⟩) .eq (.literal (.integer 5))
    let unclosed : Invariant := .comparison (.field ⟨["closed"]⟩) .notEq (.literal .null)
    let e : Invariant := .logical .or (.not shifted) (.logical .and five unclosed)
    let total := [word "total", sign .doubleEqual, ⟨.number, "5", 1, 1⟩]
    let ts := [word "not", word "due", sign .plus, ⟨.duration, "7d", 1, 1⟩, sign .lessEqual,
      word "today", word "or"] ++ total ++ [word "and", word "closed", sign .notEqual, word "null"]
    let front := word "not" :: sign .openParen :: (total ++ [word "and"])
    let behind := [word "not", word "null", sign .newline]
    let scope : Scope := { file := "order.dsl", final := ⟨.endOfFile, "", 2, 1⟩ }
    e.Writable ∧ e.Written (some .or) ts ∧
      Parser.invariant scope (ts ++ [sign .newline]) = .ok (e, [sign .newline]) ∧
      Invariant.Opening (some .or) front ∧
      Parser.RefusesOperator
        (Parser.invariant scope (front ++ ([word "closed"] ++ ([word "is"] ++ behind)))) := by
  intro word sign shifted five unclosed e total ts front behind scope
  have hname : ∀ s ∈ ["due", "total", "closed"], CanName s := by decide +kernel
  have hkeyword : ∀ k ∈ [Keyword.andOp, .orOp, .notOp, .nullLit, .today],
      (word k.spelling).kind = .keyword k := by decide +kernel
  have hfield : ∀ s ∈ ["due", "total", "closed"],
      FieldPath.Writable ⟨[s]⟩ ∧ ∀ a : DateAnchor, FieldPath.root ⟨[s]⟩ ≠ a.spelling := by
    intro s hs
    refine ⟨⟨List.cons_ne_nil _ _, List.forall_mem_singleton.2 (hname s hs)⟩, fun a => ?_⟩
    simp only [List.mem_cons, List.not_mem_nil, or_false] at hs
    rcases hs with rfl | rfl | rfl <;> cases a <;> decide
  have hpath : ∀ s : String, FieldPath.Written ⟨[s]⟩ [word s] :=
    fun s => .one ⟨_, ⟨rfl, rfl⟩, rfl⟩
  have hfive : five.Writable ∧ five.Written none total := by
    have hnumber : Literal.Written (.integer 5) [⟨.number, "5", 1, 1⟩] :=
      .natural (t := ⟨.number, "5", 1, 1⟩) rfl (by decide)
    have heq : ComparisonOp.eq.Written [sign .doubleEqual] := by decide
    exact ⟨⟨hfield _ (by decide), rfl, by decide +kernel, by decide +kernel⟩,
      .comparison (.field (hpath "total")) heq (.literal hnumber)⟩
  have he : e.Writable := by
    have hdays : Duration.Writable ⟨7, .days⟩ := (by decide +kernel : 7 < Text.amountBound)
    exact ⟨⟨⟨hfield _ (by decide), hdays⟩, rfl, fun o ho => by cases ho⟩, hfive.1,
      hfield _ (by decide), rfl, trivial⟩
  have hwritten : e.Written (some .or) ts := by
    have hdays : Duration.Written ⟨7, .days⟩ [⟨.duration, "7d", 1, 1⟩] :=
      .compact ⟨rfl, ['7'], "d", by decide, by decide, by decide, rfl⟩
    have hle : ComparisonOp.le.Written [sign .lessEqual] := by decide
    have hne : ComparisonOp.notEq.Written [sign .notEqual] := by decide
    have hoffset : OffsetWritten .plus ⟨7, .days⟩ [sign .plus, ⟨.duration, "7d", 1, 1⟩] :=
      .mk rfl hdays
    have htoday : DateExpr.Written ⟨.today, none⟩ [word "today"] :=
      .plain (hkeyword .today (by decide))
    have hshifted := Invariant.Written.comparison (.offset (hpath "due") hoffset) hle (.date htoday)
    have hopen := Invariant.Written.comparison (.field (hpath "closed")) hne
      (.literal (.null (t := word "null") (hkeyword .nullLit (by decide))))
    have hand : Invariant.Written (.logical .and _ _) (some .and) _ :=
      hfive.2.logical (t := word "and") (hkeyword .andOp (by decide)) hopen
        (fun _ => ⟨nofun, nofun⟩) nofun
    exact (hshifted.not (t := word "not") (hkeyword .notOp (by decide))).logical
      (t := word "or") (hkeyword .orOp (by decide)) hand nofun nofun
  have hfront : Invariant.Opening (some .or) front := by
    have hand : Invariant.Opening (some .and) (total ++ [word "and"]) :=
      .and hfive.1 hfive.2 nofun (hkeyword .andOp (by decide)) .start
    exact .all (.first (.not (hkeyword .notOp (by decide)) (.parens rfl (.all hand))))
  have his : ComparisonOp.is.Written [word "is"] := by decide +kernel
  exact ⟨he, hwritten, ((invariant_written scope).1 e he).2 _ _ _ _ hwritten rfl, hfront,
    (invariant_written scope).2 _ (.field ⟨["closed"]⟩) .is _ _ _ hfront (hfield _ (by decide))
      (.field (hpath "closed")) rfl his⟩

end Blueprint
