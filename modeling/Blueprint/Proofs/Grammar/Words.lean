import Blueprint.Proofs.Reads

/-!
# Names, options, amounts and blocks read the same

The parts that all grammars are made of, in the order in which they are built up.
-/

namespace Blueprint.Parser

variable {g : Ground} {plain : Bool} {α β σ : Type} {e : Effect}

/-! ## Classes of tokens -/

instance : TokenKind.Plain .identifier := ⟨rfl⟩
instance : TokenKind.Plain .string := ⟨rfl⟩
instance : TokenKind.Plain .number := ⟨rfl⟩
instance : TokenKind.Plain .duration := ⟨rfl⟩
instance : TokenKind.Plain .colon := ⟨rfl⟩
instance : TokenKind.Plain .arrow := ⟨rfl⟩
instance : TokenKind.Plain .backArrow := ⟨rfl⟩
instance : TokenKind.Plain .bothArrow := ⟨rfl⟩
instance : TokenKind.Plain .comma := ⟨rfl⟩
instance : TokenKind.Plain .openParen := ⟨rfl⟩
instance : TokenKind.Plain .closeParen := ⟨rfl⟩
instance : TokenKind.Plain .openBracket := ⟨rfl⟩
instance : TokenKind.Plain .closeBracket := ⟨rfl⟩
instance : TokenKind.Plain .equal := ⟨rfl⟩
instance : TokenKind.Plain .dot := ⟨rfl⟩
instance : TokenKind.Plain .minus := ⟨rfl⟩
instance : TokenKind.Plain .star := ⟨rfl⟩

/-! ## Acceptance -/

instance {k : TokenKind} [k.Plain] : Reads g plain (accept k) .stays := by
  unfold accept
  infer_instance

instance {k : Keyword} : Reads g plain (acceptKeyword k) .stays :=
  inferInstanceAs (Reads g plain (accept _) .stays)

instance {text : String} : Reads g plain (acceptText text) .stays := by
  unfold acceptText
  infer_instance

/-! ## Loops -/

section

variable {r : Rereading} {k : TokenKind}

/-- A loop that keeps its state agrees if its steps do. -/
theorem Agree.iterate_id {step step' : σ → Parser (Option σ)} {s : σ}
    (h : ∀ s, Agree r g false (step s) (step' s) id fun _ => .stays) :
    Agree r g plain (Parser.iterate step s) (Parser.iterate step' s) id fun _ => .stays := by
  refine Agree.iterate (f := id) (fun s => ?_) s
  rw [Option.map_id]
  exact h s

theorem Agree.separatedFold [k.Plain] {item item' : σ → Parser σ} {s : σ}
    (h : ∀ s, Agree r g false (item s) (item' s) id fun _ => .stays) :
    Agree r g plain (Parser.separatedFold k item s) (Parser.separatedFold k item' s) id
      fun _ => .stays :=
  .bind (h s).weaken fun _ => .iterate_id fun s =>
    .bind (Reads.agree r) fun _ => .ite (.bind (h s) fun _ => Reads.agree r) (Reads.agree r)

theorem Agree.separated [k.Plain] {item item' : Parser α}
    (h : Agree r g false item item' id fun _ => .stays) :
    Agree r g plain (Parser.separated k item) (Parser.separated k item') id fun _ => .stays :=
  .separatedFold fun _ => .bind h fun _ => Reads.agree r

theorem Agree.leftChain {operand operand' : Parser α} {operator? : Parser (Option (α → α → α))}
    (h : Agree r g false operand operand' id fun _ => .stays)
    [Reads g false operator? .stays] :
    Agree r g plain (Parser.leftChain operand operator?) (Parser.leftChain operand' operator?)
      id fun _ => .stays := by
  refine .bind h.weaken fun _ => .iterate_id fun left => .bind (Reads.agree r) fun o => ?_
  cases o with
  | none => exact Reads.agree r
  | some combine => exact .bind h fun _ => Reads.agree r

end

instance {step : σ → Parser (Option σ)} {s : σ} [h : ∀ s, Reads g false (step s) .stays] :
    Reads g plain (iterate step s) .stays :=
  ⟨fun r => .iterate_id fun s => (h s).agree r⟩

instance {k : TokenKind} [k.Plain] {item : σ → Parser σ} {s : σ}
    [h : ∀ s, Reads g false (item s) .stays] :
    Reads g plain (separatedFold k item s) .stays :=
  ⟨fun r => .separatedFold fun s => (h s).agree r⟩

instance {k : TokenKind} [k.Plain] {item : Parser α} [h : Reads g false item .stays] :
    Reads g plain (separated k item) .stays :=
  ⟨fun r => .separated (h.agree r)⟩

/-! ## Names and strings -/

instance : Reads g plain name .stays := by
  refine .current (fun t ht => ?_) (fun t ht _ => ?_) fun hk hx => ?_
  · split <;> infer_instance
  · split
    · next hk => rw [hk] at ht; cases ht
    · next hk => rw [hk] at ht; cases ht
    · infer_instance
  · rw [hk]
    exact .rfl

instance : Reads g plain word .stays := by
  unfold word
  infer_instance

instance {what : String} {choices : List (String × α)} :
    Reads g plain (choice what choices) .stays := by
  refine .current (fun t ht => ?_) (fun t ht _ => ?_) fun hk hx => ?_
  · split <;> infer_instance
  · have hw : t.isWord = false := by
      by_contra h
      rw [endsStatement_of_isWord (Bool.not_eq_false _ ▸ h)] at ht
      cases ht
    rw [hw]
    exact inferInstanceAs (Reads g plain (failAt t _) .stays)
  · rw [isWord_congr hk, hx]
    split <;> infer_instance

instance {what : String} {values : List α} {spelling : α → String} :
    Reads g plain (choiceOf what values spelling) .stays := by
  unfold choiceOf
  infer_instance

instance : Reads g plain string .stays := by
  unfold string
  infer_instance

instance : Reads g plain string? .stays := by
  unfold string?
  infer_instance

instance : Reads g plain stringOrName .stays := by
  unfold stringOrName
  refine @Reads.bind _ _ _ _ _ _ _ _ fun s => ?_
  split <;> infer_instance

/-! ## Amounts -/

instance : Reads g plain count .stays := by
  have hblind : Blind fun t : Token => (match Text.natural? Text.countBound t.text.toList with
      | some n => pure n
      | none => failAt t (.notWhole t.text) : Parser Nat) := by
    refine ⟨fun {t t'} _ hx => ?_⟩
    rw [hx]
    split <;> infer_instance
  have hreads (t : Token) : Reads g false (match Text.natural? Text.countBound t.text.toList with
      | some n => pure n
      | none => failAt t (.notWhole t.text) : Parser Nat) .stays := by
    split <;> infer_instance
  unfold count
  infer_instance

instance : Reads g plain numberText .stays := by
  have hblind (negative : Bool) : Blind fun t : Token =>
      (pure (if negative = true then "-" ++ t.text else t.text) : Parser String) :=
    .pure_text fun x => if negative = true then "-" ++ x else x
  unfold numberText
  infer_instance

instance : Reads g plain truth .stays := by
  unfold truth
  infer_instance

/-- The unit of a duration that is spelled out, if a word comes next. -/
def spelledUnit (amount : Nat) : Parser Duration := do
  if ← isAtWord then
    let unit ← advance
    match DurationUnit.ofWord? unit.text with
    | some u => return { amount, unit := u }
    | none => failAt unit (.unknownDurationUnit unit.text)
  else unexpected "duration"

/-- A duration, without a look at its unit before its amount is read. -/
def durationInOrder : Parser Duration := do
  if ← isAt .duration then
    let t ← advance
    match Duration.parse? t.text with
    | some d => return d
    | none => failAt t (.durationOutOfRange t.text)
  else spelledUnit (← count)

theorem count_eq_ok {scope : Scope} {ts rest : List Token} {n : Nat}
    (h : count scope ts = .ok (n, rest)) : (head scope ts).kind = .number ∧ rest = ts.tail := by
  unfold count at h
  obtain ⟨t, mid, ht, h⟩ := bind_eq_ok_iff.1 h
  obtain ⟨hk, rfl, rfl⟩ := expect_eq_ok_iff.1 ht
  refine ⟨hk, ?_⟩
  cases hn : Text.natural? Text.countBound (head scope ts).text.toList with
  | none =>
    rw [hn] at h
    exact absurd h failAt_ne_ok
  | some n =>
    rw [hn] at h
    cases h
    rfl

/-- Looking at the unit first makes no difference: without a word behind the amount, neither
succeeds. -/
theorem duration_eq_ok_iff {scope : Scope} {ts rest : List Token} {d : Duration} :
    duration scope ts = .ok (d, rest) ↔ durationInOrder scope ts = .ok (d, rest) := by
  unfold duration durationInOrder
  rw [bind_eq_ok (current_apply _ _), bind_eq_ok (isAt_apply _ _ _)]
  by_cases hd : ((head scope ts).kind == .duration) = true
  · rw [if_pos hd, if_pos hd]
    constructor <;> intro h
    · rw [bind_eq_ok (advance_apply _ _)] at h ⊢
      exact h
    · rw [bind_eq_ok (advance_apply _ _)] at h ⊢
      exact h
  · rw [if_neg hd, if_neg hd, bind_eq_ok (peek_one_apply _ _)]
    constructor
    · intro h
      by_cases hw : ((head scope ts).kind == .number && (head scope ts.tail).isWord) = true
      · rw [if_pos hw] at h
        obtain ⟨n, mid, hn, h⟩ := bind_eq_ok_iff.1 h
        obtain ⟨-, rfl⟩ := count_eq_ok hn
        rw [bind_eq_ok hn]
        unfold spelledUnit
        rw [bind_eq_ok (isAtWord_apply _ _), if_pos (Bool.and_eq_true_iff.1 hw).2]
        exact h
      · rw [if_neg hw] at h
        exact absurd h unexpected_ne_ok
    · intro h
      obtain ⟨n, mid, hn, h⟩ := bind_eq_ok_iff.1 h
      obtain ⟨hk, rfl⟩ := count_eq_ok hn
      unfold spelledUnit at h
      rw [bind_eq_ok (isAtWord_apply _ _)] at h
      by_cases hw : (head scope ts.tail).isWord = true
      · rw [if_pos hw] at h
        rw [if_pos (Bool.and_eq_true_iff.2 ⟨beq_iff_eq.2 hk, hw⟩), bind_eq_ok hn]
        exact h
      · rw [if_neg hw] at h
        exact absurd h unexpected_ne_ok

instance {amount : Nat} : Reads g plain (spelledUnit amount) .stays := by
  have hblind : Blind fun t : Token => (match DurationUnit.ofWord? t.text with
      | some u => pure { amount, unit := u }
      | none => failAt t (.unknownDurationUnit t.text) : Parser Duration) := by
    refine ⟨fun {t t'} _ hx => ?_⟩
    rw [hx]
    split <;> infer_instance
  have hreads (t : Token) : Reads g false (match DurationUnit.ofWord? t.text with
      | some u => pure { amount, unit := u }
      | none => failAt t (.unknownDurationUnit t.text) : Parser Duration) .stays := by
    split <;> infer_instance
  unfold spelledUnit
  infer_instance

instance : Reads g plain duration .stays := by
  have hblind : Blind fun t : Token => (match Duration.parse? t.text with
      | some d => pure d
      | none => failAt t (.durationOutOfRange t.text) : Parser Duration) := by
    refine ⟨fun {t t'} _ hx => ?_⟩
    rw [hx]
    split <;> infer_instance
  have hreads (t : Token) : Reads g false (match Duration.parse? t.text with
      | some d => pure d
      | none => failAt t (.durationOutOfRange t.text) : Parser Duration) .stays := by
    split <;> infer_instance
  refine .of_alike ⟨duration_eq_ok_iff.1⟩ ⟨duration_eq_ok_iff.2⟩ ?_
  unfold durationInOrder
  infer_instance

/-! ## Lists of names -/

instance : Reads g plain modulePath .stays := by
  unfold modulePath
  infer_instance

instance : Reads g plain names .stays := by
  unfold names
  infer_instance

instance {item : σ → Parser σ} {s : σ} [∀ s, Reads g false (item s) .stays] :
    Reads g plain (listedFold item s) .stays := by
  unfold listedFold
  infer_instance

instance : Reads g plain header .stays := by
  unfold header
  infer_instance

instance : Reads g plain roleCheck .stays := by
  unfold roleCheck
  infer_instance

/-! ## Statements and blocks -/

instance : Reads g plain endStatement .ends := ⟨fun _ => .endStatement⟩

instance {value : Parser α} [Reads g plain value .stays] :
    Reads g plain (closing value) .ends := by
  unfold closing
  infer_instance

instance {value : Parser α} [Reads g false value .stays] :
    Reads g plain (directive value) .ends := by
  unfold directive
  infer_instance

instance {value : Parser α} [Reads g false value .stays] :
    Reads g true (keyed value) .ends := by
  unfold keyed
  infer_instance

section

variable [g.Level]

instance : Reads g plain skip .ends := ⟨fun _ => .skip⟩

instance {s : σ} : Reads g plain (passOver s) .ends := by
  unfold passOver
  infer_instance

variable {statement : σ → Parser σ} {s : σ}

instance [h : ∀ s, Reads .block false (statement s) .ends] :
    Reads g plain (block statement s) .ends :=
  ⟨fun r => .block (f := id) (fun s => (h s).agree r) s⟩

instance [∀ s, Reads .block false (statement s) .ends] :
    Reads g plain (blockOrEnd statement s) .ends := by
  unfold blockOrEnd
  infer_instance

/-- Behind the end of a line, on level ground, either a block is opened or nothing is read. -/
theorem indent_or_not {r : Rereading} {q : Position} {a a' : List Token}
    (hq : g.Holds r q) (hc : (⟨q.depth, false⟩ : Position).ClosedBy a)
    (ha : List.Forall₂ r.Same a a') :
    (∃ t b t' b', a = t :: b ∧ a' = t' :: b' ∧ t.kind = .indent ∧ t'.kind = .indent ∧
      List.Forall₂ r.Same b b') ∨
    ((head r.first (a ++ r.behind)).kind ≠ .indent ∧ (head r.second (a' ++ r.next)).kind ≠ .indent ∧
      NoIndent a) := by
  cases ha with
  | nil =>
    have hdepth : q.depth = 0 := congrArg Position.depth hc.eq_outside
    obtain ⟨hbehind, hnext⟩ :=
      (Ground.Level.holds hq).resolve_left (by rw [hdepth]; exact Nat.lt_irrefl 0)
    exact .inr ⟨head_ne_indent r.first_final hbehind, head_ne_indent r.second_final hnext, .nil⟩
  | @cons t t' b b' ht hb =>
    by_cases hk : t.kind = .indent
    · exact .inl ⟨t, b, t', b', rfl, rfl, hk, ht.kind.trans hk, hb⟩
    · exact .inr ⟨hk, ht.kind ▸ hk, .cons hk⟩

variable [h : ∀ s, Reads .block false (statement s) .ends]

include h

/-- The statements under a line are those of the block that the next line opens, if it does. -/
instance : Reads g plain (expect .newline >>= fun _ => underneath statement s) .ends where
  agree r q a a' v d hq hc ha hrun := by
    obtain ⟨_, _, hline, hunder⟩ := bind_eq_ok_iff.1 hrun
    obtain ⟨_, b, b', rfl, rfl, rfl, hk, -, hb, hline'⟩ := expect_agree hq.inside ha hline
    have hc := hc.of_newline hk
    rw [bind_eq_ok hline']
    unfold underneath at hunder ⊢
    rcases indent_or_not hq.ground hc hb with
      ⟨t, c, t', c', rfl, rfl, ht, ht', hcc⟩ | ⟨hi, hi', hno⟩
    · rw [List.cons_append, bind_eq_ok (accept_of_eq ht)] at hunder
      rw [List.cons_append, bind_eq_ok (accept_of_eq ht')]
      obtain ⟨d, d', rfl, hskip, hcd, hd, hrun'⟩ := statements_agree (f := id)
        (fun s => (h s).agree r) (Nat.succ_pos q.depth) (hc.of_indent ht).2 hcc hunder
      refine ⟨_, d, d', rfl, ⟨rfl, .inr ?_⟩, hcd, hd, hrun'⟩
      rw [skipStatement_eq, lineBehind_of_newline hk, skipUnder_cons, if_pos ht]
      exact hskip
    · rw [bind_eq_ok (by rw [accept_apply, if_neg hi])] at hunder
      rw [bind_eq_ok (by rw [accept_apply, if_neg hi'])]
      cases hunder
      exact ⟨_, b, b', rfl, ⟨rfl, .inl (lineBehind_of_newline hk b).symm⟩, hc, hb, rfl⟩

/-- A block that is opened by the end of a line, or something else in the line. -/
instance {p : Parser σ} [hp : Reads g false p .ends] :
    Reads g false (accept .newline >>= fun b =>
      if b = true then expect .indent >>= fun _ => statements statement s else p) .ends where
  agree r q a a' v d hq hc ha hrun := by
    obtain ⟨t, b, rfl⟩ := List.exists_cons_of_ne_nil hq.inside
    obtain ⟨t', b', ht, hb, rfl⟩ := List.forall₂_cons_left_iff.1 ha
    by_cases hline : t.kind = .newline
    · have hc := hc.of_newline hline
      rw [List.cons_append, bind_eq_ok (accept_of_eq hline)] at hrun
      rw [List.cons_append, bind_eq_ok (accept_of_eq (ht.kind.trans hline))]
      obtain ⟨_, _, hindent, hblock⟩ := bind_eq_ok_iff.1 hrun
      have hne := ne_nil_of_head (Ground.Level.holds hq.ground) hc (expect_eq_ok_iff.1 hindent).1
      obtain ⟨_, c, c', rfl, rfl, rfl, hk, -, hcc, hindent'⟩ := expect_agree hne hb hindent
      obtain ⟨d, d', rfl, hskip, hcd, hd, hrun'⟩ := statements_agree (f := id)
        (fun s => (h s).agree r) (Nat.succ_pos q.depth) (hc.of_indent hk).2 hcc hblock
      refine ⟨_, d, d', rfl, ⟨rfl, .inr ?_⟩, hcd, hd, bind_eq_ok_iff.2 ⟨_, _, hindent', hrun'⟩⟩
      rw [skipStatement_eq, lineBehind_of_newline hline, skipUnder_cons, if_pos hk]
      exact hskip
    · have hrun' := hrun
      rw [List.cons_append, bind_eq_ok (accept_of_ne hline), ← List.cons_append] at hrun'
      obtain ⟨s', c, c', rfl, hl, hc', hcc, hv⟩ := hp.agree r hq hc ha hrun'
      refine ⟨s', c, c', rfl, hl, hc', hcc, ?_⟩
      rw [List.cons_append, bind_eq_ok (accept_of_ne (ht.kind.symm ▸ hline))]
      exact hv

end

instance [g.Level] : Reads g plain strings .ends := by
  have hlines : Reads g false (expect .newline >>= fun _ => accept .indent >>= fun b =>
      if b = true then statements (fun l => do
        let _ ← expect .minus
        return l ++ [← closing string]) [] else pure []) .ends :=
    inferInstanceAs (Reads g false (expect .newline >>= fun _ => underneath _ _) .ends)
  unfold strings
  infer_instance

instance [g.Level] : Reads g true keyedStrings .ends := by
  unfold keyedStrings
  infer_instance

end Blueprint.Parser
