import Blueprint.Expr.Grammar
import Blueprint.Proofs.Grammar.Words

/-!
# Expressions read the same

Expressions contain themselves, so they are compared by `Agree.nested`, which supposes of what
stands for the inner expression only that it agrees.
-/

namespace Blueprint.Parser

variable {r : Rereading} {g : Ground} {plain : Bool} {α β : Type} {e : Effect}

instance : Reads g plain fieldPath .stays := by
  unfold fieldPath
  infer_instance

/-! ## Looking ahead -/

instance : Looks isAtRoleCheck := by
  unfold isAtRoleCheck
  infer_instance

instance : Looks isAtCall := by
  unfold isAtCall
  infer_instance

instance : Looks isAtDate := by
  unfold isAtDate
  infer_instance

/-- A look at the next token, as looks for one class after the other. -/
theorem current_bind_ite {k : TokenKind} {p : Parser α} {q : Token → Parser α} :
    (current >>= fun t => if t.kind = k then p else q t) =
      isAt k >>= fun b => if b = true then p else current >>= q := by
  funext scope ts
  rw [bind_eq_ok (current_apply _ _), bind_eq_ok (isAt_apply _ _ _)]
  by_cases h : (head scope ts).kind = k
  · rw [if_pos h, if_pos (beq_iff_eq.2 h)]
  · rw [if_neg h, if_neg (by rwa [beq_iff_eq]), bind_eq_ok (current_apply _ _)]

theorem isAtNumber_eq : isAtNumber = (do
    if ← isAt .number then return true
    else if ← isAt .minus then peekIs 1 .number
    else return false) := by
  have hkinds : isAtNumber = current >>= fun t =>
      if t.kind = .number then pure true
      else if t.kind = .minus then peekIs 1 .number
      else pure false := by
    refine congrArg (current >>= ·) (funext fun t => ?_)
    split
    · next hk => rw [hk]; rfl
    · next hk => rw [hk]; rfl
    · next h₁ h₂ => rw [if_neg h₁, if_neg h₂]
  rw [hkinds, current_bind_ite, current_bind_ite]
  rfl

instance : Looks isAtNumber := by
  rw [isAtNumber_eq]
  infer_instance

theorem isAtLiteral_eq : isAtLiteral = (do
    if ← isAt .string then return true
    else if ← isAtKeyword .trueLit then return true
    else if ← isAtKeyword .falseLit then return true
    else if ← isAtKeyword .nullLit then return true
    else isAtNumber) := by
  have hkinds : isAtLiteral = current >>= fun t =>
      if t.kind = .string then pure true
      else if t.kind = .keyword .trueLit then pure true
      else if t.kind = .keyword .falseLit then pure true
      else if t.kind = .keyword .nullLit then pure true
      else isAtNumber := by
    refine congrArg (current >>= ·) (funext fun t => ?_)
    split
    · next hk => rw [hk]; rfl
    · next hk => rw [hk]; rfl
    · next hk => rw [hk]; rfl
    · next hk => rw [hk]; rfl
    · next h₁ h₂ h₃ h₄ => rw [if_neg h₁, if_neg h₂, if_neg h₃, if_neg h₄]
  rw [hkinds, current_bind_ite, current_bind_ite, current_bind_ite, current_bind_ite]
  rfl

instance : Looks isAtLiteral := by
  rw [isAtLiteral_eq]
  infer_instance

/-! ## Values -/

instance : Reads g plain literal .stays := by
  have hreads (t : Token) (text : String) : Reads g false (match Literal.ofNumber? text with
      | some l => pure l
      | none => failAt t (.numberOutOfRange text) : Parser Literal) .stays := by
    split <;> infer_instance
  have halike (t t' : Token) (text : String) : Alike (match Literal.ofNumber? text with
      | some l => pure l
      | none => failAt t (.numberOutOfRange text) : Parser Literal)
      (match Literal.ofNumber? text with
      | some l => pure l
      | none => failAt t' (.numberOutOfRange text)) := by
    split <;> infer_instance
  have hstring : Blind fun t : Token => (pure (.string t.text) : Parser Literal) :=
    .pure_text Literal.string
  refine .current (fun t ht => ?_) (fun t ht _ => ?_) fun hk _ => ?_
  · split <;> infer_instance
  · split <;> first | infer_instance | (next hk => rw [hk] at ht; cases ht)
  · rw [hk]
    split <;> infer_instance

instance : Reads g plain dateAnchor? .stays := by
  unfold dateAnchor?
  infer_instance

instance : Peeks g durationFollows := by
  have hnumber : Peeks g (peekIs 1 .number >>= fun b =>
      if b = true then peek 2 >>= fun t => pure t.isWord else pure false) :=
    .second fun _ _ => isWord_congr
  unfold durationFollows
  infer_instance

instance : Reads g plain offset? .stays := by
  refine .current (fun t ht => ?_) (fun t ht _ => ?_) fun hk _ => ?_
  · dsimp only
    split <;> infer_instance
  · cases hk : t.kind <;> first
      | infer_instance
      | rw [hk] at ht; cases ht
  · rw [hk]
    exact .rfl

instance : Reads g plain date .stays := by
  unfold date
  refine @Reads.bind _ _ _ _ _ _ _ _ fun o => ?_
  cases o <;> infer_instance

/-! ## Operators -/

theorem endsStatement_of_ofKinds? {k k' : TokenKind} {op : ComparisonOp} {size : Nat}
    (h : ComparisonOp.ofKinds? k k' = some (op, size)) :
    k.endsStatement = false ∧ (size = 2 → k'.endsStatement = false) := by
  unfold ComparisonOp.ofKinds? at h
  split at h <;> cases h <;> exact ⟨rfl, fun e => by first | rfl | cases e⟩

theorem comparisonOp_of_kinds {scope : Scope} {ts : List Token} {op : ComparisonOp} {size : Nat}
    (h : ComparisonOp.ofKinds? (head scope ts).kind (head scope ts.tail).kind = some (op, size)) :
    comparisonOp scope ts = .ok (op, if size = 2 then ts.tail.tail else ts.tail) := by
  unfold comparisonOp
  rw [bind_eq_ok (current_apply _ _), bind_eq_ok (peek_one_apply _ _), h]
  by_cases hsize : size = 2
  · rw [if_pos hsize, hsize]
    rfl
  · rw [if_neg hsize]
    show (advance >>= fun _ => if size = 2 then _ else pure op : Parser _) _ _ = _
    rw [bind_eq_ok (advance_apply _ _), if_neg hsize]
    rfl

theorem comparisonOp_apply {t u : Token} {op : ComparisonOp} {size : Nat}
    (h : ComparisonOp.ofKinds? t.kind u.kind = some (op, size)) (scope : Scope) (us : List Token) :
    comparisonOp scope (t :: u :: us) = .ok (op, if size = 2 then us else u :: us) :=
  comparisonOp_of_kinds (show ComparisonOp.ofKinds? (head scope (t :: u :: us)).kind
    (head scope (t :: u :: us).tail).kind = some (op, size) from h)

instance : Reads g plain comparisonOp .stays where
  agree r s a a' v c hs hc ha h := by
    obtain ⟨t, ts, rfl⟩ := List.exists_cons_of_ne_nil hs.inside
    rw [List.cons_append] at h
    cases hop : ComparisonOp.ofKinds? t.kind (head r.first (ts ++ r.behind)).kind with
    | none =>
      unfold comparisonOp at h
      rw [bind_eq_ok (current_apply _ _), bind_eq_ok (peek_one_apply _ _),
        show (head r.first (t :: (ts ++ r.behind))).kind = t.kind from rfl, List.tail_cons,
        hop] at h
      exact absurd h unexpected_ne_ok
    | some o =>
      obtain ⟨op, size⟩ := o
      obtain ⟨ht, hsize⟩ := endsStatement_of_ofKinds? hop
      obtain ⟨t', u, u', us, us', rfl, rfl, htt, hu, hus, hc'⟩ := exists_next hc ht ha
      have hop : ComparisonOp.ofKinds? t.kind u.kind = some (op, size) := hop
      rw [List.cons_append, comparisonOp_apply hop] at h
      rw [List.cons_append, List.cons_append,
        comparisonOp_apply (by rw [htt.kind, hu.kind]; exact hop)]
      cases h
      by_cases htwo : size = 2
      · rw [if_pos htwo, if_pos htwo]
        exact ⟨_, us, us', rfl, (Effect.Leads.plain ht).trans (Effect.Leads.plain (hsize htwo)),
          hc'.of_plain (hsize htwo), hus, rfl⟩
      · rw [if_neg htwo, if_neg htwo]
        exact ⟨_, u :: us, u' :: us', rfl, .plain ht, hc', .cons hu hus, rfl⟩

instance {k : Keyword} {combine : α → α → α} : Reads g plain (joined? k combine) .stays := by
  unfold joined?
  infer_instance

theorem Agree.connected {combine : Connective → α → α → α} {operand operand' : Parser α}
    (h : Agree r g false operand operand' id fun _ => .stays) :
    Agree r g plain (Parser.connected combine operand) (Parser.connected combine operand') id
      fun _ => .stays :=
  .leftChain (.leftChain h)

theorem reads_arithmetic? {ops : List (TokenKind × ArithmeticOp)}
    (hops : ∀ o ∈ ops, o.1.endsStatement = false) : Reads g plain (arithmetic? ops) .stays := by
  refine .current (fun t ht => ?_) (fun t ht _ => ?_) fun hk _ => ?_
  · dsimp only
    split <;> infer_instance
  · have hnone : ops.find? (·.1 == t.kind) = none := by
      refine List.find?_eq_none.2 fun o ho hkind => ?_
      rw [← beq_iff_eq.1 hkind, hops o ho] at ht
      cases ht
    dsimp only
    rw [hnone]
    infer_instance
  · rw [hk]
    exact .rfl

instance : Reads g plain aggregate .stays := by
  refine .current (fun t ht => ?_) (fun t ht _ => ?_) fun hk hx => ?_
  · split <;> infer_instance
  · rw [keyword?_of_endsStatement ht]
    exact inferInstanceAs (Reads g plain (failAt t _) .stays)
  · rw [keyword?_congr hk]
    split <;> infer_instance

instance : Reads g plain invariantTerm .stays := by
  have hoffset (path : FieldPath) : Reads g false (offset? >>= fun o => match o with
      | some (sign, d) => pure (.offset path sign d)
      | none => pure (.field path) : Parser InvariantTerm) .stays := by
    refine @Reads.bind _ _ _ _ _ _ _ _ fun o => ?_
    split <;> infer_instance
  unfold invariantTerm
  infer_instance

instance : Reads g plain comparison .stays := by
  unfold comparison
  infer_instance

/-! ## Conditions, computed expressions and invariants -/

instance : Reads g plain conditionValue .stays where
  agree r := .weaken <| .nested fun h =>
    .look (Reads.agree r) <| .look (Reads.agree r) <| .bind (Reads.agree r) fun _ => .ite
      (.bind (Reads.agree r) fun _ => .ite (Reads.agree r)
        (.bind (.separated h) fun _ => Reads.agree r))
      (Reads.agree r)

instance : Reads g plain condition .stays where
  agree r := .weaken <| .nested fun h => .connected <| .bind (Reads.agree r) fun _ => .ite
    (.bind h fun _ => Reads.agree r)
    (Reads.agree r)

instance : Reads g plain computed .stays where
  agree r := .weaken <| .nested fun h => by
    have hmul : Reads g false (arithmetic? [(.star, .mul), (.slash, .div)]) .stays :=
      reads_arithmetic? (by decide)
    have hadd : Reads g false (arithmetic? [(.plus, .add), (.minus, .sub)]) .stays :=
      reads_arithmetic? (by decide)
    refine .leftChain (.leftChain ?_)
    exact .bind (Reads.agree r) fun _ => .ite (.bind h fun _ => Reads.agree r) (Reads.agree r)

instance : Reads g plain invariant .stays where
  agree r := .weaken <| .nested fun h => .connected <| .nested fun h' =>
    .bind (Reads.agree r) fun _ => .ite (.bind h' fun _ => Reads.agree r) <|
      .bind (Reads.agree r) fun _ => .ite (.bind h fun _ => Reads.agree r) (Reads.agree r)

end Blueprint.Parser
