import Blueprint.Proofs.Printed.Texts
import Blueprint.Proofs.Written.Chains

/-!
# What parsers draw from tokens

If all tokens that a parser can come across have a property, what it returns may have one, too
(`Draws`). This is kept by sequences, loops and recursion. From the tokens of a text, names and
numbers are drawn that can be printed.
-/

namespace Blueprint

/-- A word that can be a name. -/
structure IsName (s : String) : Prop where
  canName : CanName s
  isWord : IsWord s.toList

instance : DecidablePred IsName := fun s =>
  decidable_of_iff (CanName s ∧ IsWord s.toList) ⟨fun h => ⟨h.1, h.2⟩, fun h => ⟨h.1, h.2⟩⟩

namespace Parser

variable {α β σ : Type} {A : Token → Prop} {p : Parser α} {q : α → Parser β} {P : α → Prop}
  {Q : β → Prop}

/-- From tokens with the property `A`, the parser returns what has the property `P`, and leaves such
tokens. -/
def Draws (A : Token → Prop) (p : Parser α) (P : α → Prop) : Prop :=
  ∀ ⦃scope ts v rest⦄, A scope.final → (∀ t ∈ ts, A t) → p scope ts = .ok (v, rest) →
    P v ∧ ∀ t ∈ rest, A t

/-- A name is the text of the next token. -/
theorem exists_of_name {scope : Scope} {ts rest : List Token} {s : String}
    (h : name scope ts = .ok (s, rest)) :
    ((head scope ts).kind = .identifier ∨
      ∃ k : Keyword, (head scope ts).kind = .keyword k ∧ k.canName = true) ∧
    s = (head scope ts).text ∧ rest = ts.tail := by
  have hread {s : String} {rest : List Token}
      (h : (advance >>= fun t => pure t.text : Parser String) scope ts = .ok (s, rest)) :
      s = (head scope ts).text ∧ rest = ts.tail := by
    rw [bind_eq_ok (advance_apply _ _)] at h
    cases h
    exact ⟨rfl, rfl⟩
  unfold name at h
  rw [bind_eq_ok (current_apply _ _)] at h
  cases hk : (head scope ts).kind with
  | identifier =>
    rw [hk] at h
    exact ⟨.inl rfl, hread h⟩
  | keyword k =>
    rw [hk] at h
    by_cases hcan : k.canName = true
    · dsimp only at h
      rw [if_pos hcan] at h
      exact ⟨.inr ⟨k, rfl, hcan⟩, hread h⟩
    · dsimp only at h
      rw [if_neg hcan] at h
      exact absurd h fail_ne_ok
  | _ =>
    rw [hk] at h
    exact absurd h unexpected_ne_ok

namespace Draws

/-! ## Sequences and choices -/

theorem pure {v : α} (h : P v) : Draws A (Pure.pure v) P := by
  intro scope ts w rest _ hts hw
  cases hw
  exact ⟨h, hts⟩

theorem bind (hp : Draws A p P) (hq : ∀ v, P v → Draws A (q v) Q) : Draws A (p >>= q) Q := by
  intro scope ts w rest hf hts hw
  obtain ⟨v, mid, hv, hw⟩ := bind_eq_ok_iff.1 hw
  obtain ⟨hP, hmid⟩ := hp hf hts hv
  exact hq v hP hf hmid hw

theorem ite {c : Prop} [Decidable c] {p' : Parser α} (hp : Draws A p P) (hp' : Draws A p' P) :
    Draws A (if c then p else p') P := by
  split
  · exact hp
  · exact hp'

theorem of_never (h : ∀ {scope ts v rest}, p scope ts ≠ .ok (v, rest)) : Draws A p P :=
  fun _ _ _ _ _ _ hp => absurd hp h

/-! ## Single tokens -/

theorem head {scope : Scope} {ts : List Token} (hf : A scope.final) (hts : ∀ t ∈ ts, A t) :
    A (head scope ts) := by
  cases ts with
  | nil => exact hf
  | cons t ts => exact hts t List.mem_cons_self

theorem current : Draws A current A := by
  intro scope ts t rest hf hts ht
  rw [current_apply] at ht
  cases ht
  exact ⟨head hf hts, hts⟩

theorem peekIs {n : Nat} {k : TokenKind} : Draws A (peekIs n k) fun _ => True := by
  intro scope ts b rest _ hts hb
  rw [peekIs_apply] at hb
  cases hb
  exact ⟨trivial, hts⟩

theorem isAtWord : Draws A isAtWord fun _ => True :=
  current.bind fun _ _ => pure trivial

theorem keyword? : Draws A keyword? fun _ => True :=
  current.bind fun _ _ => pure trivial

theorem advance : Draws A advance A := by
  intro scope ts t rest hf hts ht
  rw [advance_apply] at ht
  cases ht
  exact ⟨head hf hts, fun t ht => hts t (List.mem_of_mem_tail ht)⟩

theorem isAt {k : TokenKind} : Draws A (isAt k) fun _ => True :=
  current.bind fun _ _ => pure trivial

theorem accept {k : TokenKind} : Draws A (accept k) fun _ => True :=
  isAt.bind fun _ _ => ite (advance.bind fun _ _ => pure trivial) (pure trivial)

theorem expect {k : TokenKind} : Draws A (expect k) fun t => t.kind = k ∧ A t := by
  intro scope ts t rest hf hts ht
  obtain ⟨hk, rfl, rfl⟩ := expect_eq_ok_iff.1 ht
  exact ⟨⟨hk, head hf hts⟩, fun t ht => hts t (List.mem_of_mem_tail ht)⟩

/-! ## Loops and recursion -/

/-- A loop draws what its steps preserve. The induction is on the number of tokens left. -/
theorem iterate {I : σ → Prop} {step : σ → Parser (Option σ)} {s : σ} (hs : I s)
    (hstep : ∀ s, I s → Draws A (step s) fun o => ∀ s', o = some s' → I s') :
    Draws A (iterate step s) I := by
  intro scope ts v rest hf hts h
  change iterateOn step scope s ts = .ok (v, rest) at h
  induction hn : ts.length using Nat.strongRecOn generalizing s ts with
  | ind n ih =>
    obtain ⟨next, mid, hnext⟩ := exists_step_of_iterateOn h
    obtain ⟨hI, hmid⟩ := hstep s hs hf hts hnext
    cases next with
    | none =>
      rw [iterateOn_of_none hnext] at h
      cases h
      exact ⟨hs, hmid⟩
    | some s' =>
      have hs' := hI s' rfl
      rw [iterateOn_of_some hnext] at h
      split at h
      · next hlt => exact ih mid.length (hn ▸ hlt) hs' hmid h rfl
      · cases h
        exact ⟨hs', hmid⟩

/-- Items that keep a property of the state, at least one. -/
theorem separatedFold {k : TokenKind} {item : σ → Parser σ} {I J : σ → Prop} {s : σ} (hs : I s)
    (hitem : ∀ s, I s → Draws A (item s) J) (hJ : ∀ s, J s → I s) :
    Draws A (separatedFold k item s) J := by
  refine (hitem s hs).bind fun s hs => iterate hs fun s hs => ?_
  refine accept.bind fun _ _ => ite ?_ (pure nofun)
  refine (hitem s (hJ s hs)).bind fun s hs => pure fun s' e => ?_
  cases e
  exact hs

theorem separated {k : TokenKind} (hp : Draws A p P) :
    Draws A (separated k p) fun l => l ≠ [] ∧ ∀ v ∈ l, P v :=
  separatedFold (I := fun l => ∀ v ∈ l, P v) (List.forall_mem_nil _)
    (fun l hl => hp.bind fun v hv => pure ⟨by simp, List.forall_mem_append.2
      ⟨hl, List.forall_mem_singleton.2 hv⟩⟩) fun _ hl => hl.2

/-- Operands, and operators that keep the property of operands. -/
theorem leftChain {operator? : Parser (Option (α → α → α))} (hp : Draws A p P)
    (hop : Draws A operator? fun o => ∀ f, o = some f → ∀ a b, P a → P b → P (f a b)) :
    Draws A (leftChain p operator?) P := by
  refine hp.bind fun a ha => iterate ha fun a ha => hop.bind fun o ho => ?_
  cases o with
  | none => exact pure nofun
  | some f =>
    refine hp.bind fun b hb => pure fun c e => ?_
    cases e
    exact ho f rfl a b ha hb

/-- A recursion draws what one round does if the next one does. The induction is on the number of
tokens left. -/
theorem nested {body : Parser α → Parser α} (hbody : ∀ p, Draws A p P → Draws A (body p) P) :
    Draws A (nested body) P := by
  intro scope ts v rest hf hts h
  induction hn : ts.length using Nat.strongRecOn generalizing scope ts v rest with
  | ind n ih =>
    rw [nested_apply] at h
    refine hbody _ (fun scope' ts' v' rest' hf' hts' h' => ?_) hf hts h
    unfold within at h'
    split at h'
    · next hlt => exact ih ts'.length (hn ▸ hlt) hf' hts' h' rfl
    · exact absurd h' unexpected_ne_ok

/-! ## Names and numbers of a text -/

/-- A genuine token whose class can name something has a name for its text. -/
theorem isName_of_genuine {t : Token} (ht : t.IsGenuine)
    (hk : t.kind = .identifier ∨ ∃ k : Keyword, t.kind = .keyword k ∧ k.canName = true) :
    IsName t.text := by
  have hisWord : t.isWord = true := by
    unfold Token.isWord
    rcases hk with hk | ⟨k, hk, -⟩
    · rw [hk]
    · rw [hk]
  obtain ⟨hword, htext⟩ := ht.word hisWord
  refine ⟨?_, htext⟩
  unfold TokenKind.ofWord at hword
  unfold CanName
  split at hword
  · next k hsome =>
    rw [hsome]
    rcases hk with hk | ⟨k', hk, hcan⟩
    · cases hk.symm.trans hword
    · cases hk.symm.trans hword
      exact hcan
  · next hnone =>
    rw [hnone]
    rfl

theorem name : Draws Token.IsGenuine name IsName := by
  intro scope ts s rest hf hts h
  obtain ⟨hk, rfl, rfl⟩ := exists_of_name h
  exact ⟨isName_of_genuine (head hf hts) hk, fun t ht => hts t (List.mem_of_mem_tail ht)⟩

theorem fieldPath : Draws Token.IsGenuine fieldPath FieldPath.Printable :=
  name.separated.bind fun _ h =>
    pure ⟨⟨h.1, fun s hs => (h.2 s hs).canName⟩, fun s hs => (h.2 s hs).isWord⟩

/-- A number with or without a minus sign, as it can be printed. -/
theorem numberText : Draws Token.IsGenuine numberText fun text => ∃ s : String,
    (IsNumeral s.toList ∨ IsDecimal s.toList) ∧ (text = s ∨ text = "-" ++ s) := by
  refine accept.bind fun negative _ => expect.bind fun t ht => pure ⟨t.text, ht.2.number ht.1, ?_⟩
  cases negative
  · exact .inl rfl
  · exact .inr rfl

/-- A count is below its bound. -/
theorem count : Draws A count (· < Text.countBound) := by
  refine expect.bind fun t _ => ?_
  split
  · next n hn => exact pure (Text.lt_of_natural? hn)
  · exact of_never failAt_ne_ok

end Draws

end Parser

end Blueprint
