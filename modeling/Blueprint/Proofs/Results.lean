import Blueprint.Proofs.Running

/-!
# What parsers return

A property of all values that a parser can return (`Gives`), wherever it is run. It is kept by
sequences, loops and recursion: a loop returns what its steps preserve (`Gives.iterate`,
`Gives.block`), a recursion what follows for one round from the same of the next
(`Gives.nested`). Most statements of a block leave most of what was read before as it is; this is
found by instance search (`Keeps`).
-/

namespace Blueprint.Parser

variable {α β σ : Type} {p : Parser α} {q : α → Parser β} {P P' : α → Prop} {Q : β → Prop}

/-- Whatever the parser returns has the property. -/
def Gives (p : Parser α) (P : α → Prop) : Prop :=
  ∀ ⦃scope ts v rest⦄, p scope ts = .ok (v, rest) → P v

namespace Gives

theorem mono (hp : Gives p P) (h : ∀ v, P v → P' v) : Gives p P' :=
  fun _ _ _ _ hv => h _ (hp hv)

/-! ## Sequences -/

theorem pure {v : α} (h : P v) : Gives (pure v) P := by
  intro scope ts w rest hw
  cases hw
  exact h

protected theorem none : Gives (Pure.pure (none : Option α)) fun o => ∀ v, o = some v → P v := by
  refine pure fun v e => ?_
  cases e

protected theorem some {v : α} (h : P v) :
    Gives (Pure.pure (some v)) fun o => ∀ v, o = some v → P v := by
  refine pure fun w e => ?_
  cases e
  exact h

theorem bind (hp : Gives p P) (hq : ∀ v, P v → Gives (q v) Q) : Gives (p >>= q) Q := by
  intro scope ts w rest hw
  obtain ⟨v, mid, hv, hw⟩ := bind_eq_ok_iff.1 hw
  exact hq v (hp hv) hw

/-- What comes first does not matter. -/
theorem seq (hq : ∀ v, Gives (q v) Q) : Gives (p >>= q) Q := by
  intro scope ts w rest hw
  obtain ⟨v, mid, -, hw⟩ := bind_eq_ok_iff.1 hw
  exact hq v hw

theorem map {f : α → β} (hp : Gives p fun v => Q (f v)) : Gives (f <$> p) Q := by
  intro scope ts w rest hw
  obtain ⟨v, hv, rfl⟩ := map_eq_ok_iff.1 hw
  exact hp hv

theorem ite {c : Prop} [Decidable c] {p' : Parser α} (hp : c → Gives p P)
    (hp' : ¬ c → Gives p' P) : Gives (if c then p else p') P := by
  split
  · next h => exact hp h
  · next h => exact hp' h

theorem failIn {l : Location} {fault : Fault} : Gives (failIn l fault) P :=
  fun _ _ _ _ h => absurd h failIn_ne_ok

theorem failAt {t : Token} {fault : Fault} : Gives (failAt t fault) P :=
  fun _ _ _ _ h => absurd h failAt_ne_ok

theorem fail {fault : Fault} : Gives (fail fault) P :=
  fun _ _ _ _ h => absurd h fail_ne_ok

theorem unexpected {expected : String} : Gives (unexpected expected) P :=
  fun _ _ _ _ h => absurd h unexpected_ne_ok

theorem passOver {s : σ} {I : σ → Prop} (h : I s) : Gives (passOver s) I :=
  seq fun _ => pure h

theorem closing (hp : Gives p P) : Gives (closing p) P :=
  hp.bind fun _ h => seq fun _ => pure h

theorem withReader {f : Scope → Scope} (hp : Gives p P) : Gives (withReader f p) P :=
  fun _ _ _ _ h => hp h

theorem runOn {file : String} {tokens : List Token} {v : α} (hp : Gives p P)
    (h : p.runOn file tokens = .ok v) : P v := by
  obtain ⟨⟨w, rest⟩, hw, h⟩ := Except.bind_eq_ok_iff.1 h
  cases h
  exact hp hw

/-! ## Loops -/

variable {I J : σ → Prop} {s : σ}

/-- A loop returns what its steps preserve. The induction is on the number of tokens left. -/
theorem iterate {step : σ → Parser (Option σ)} (hs : I s)
    (hstep : ∀ s, I s → Gives (step s) fun o => ∀ s', o = some s' → I s') :
    Gives (iterate step s) I := by
  intro scope ts v rest h
  change iterateOn step scope s ts = .ok (v, rest) at h
  induction hn : ts.length using Nat.strongRecOn generalizing s ts with
  | ind n ih =>
    obtain ⟨next, mid, hnext⟩ := exists_step_of_iterateOn h
    cases next with
    | none =>
      rw [iterateOn_of_none hnext] at h
      cases h
      exact hs
    | some next =>
      have hI := hstep s hs hnext next rfl
      rw [iterateOn_of_some hnext] at h
      split at h
      · next hlt => exact ih mid.length (hn ▸ hlt) hI h rfl
      · cases h
        exact hI

/-- Items that need the one property of what was read before, and leave the other. -/
theorem separatedFold {separator : TokenKind} {item : σ → Parser σ} (hs : I s)
    (hitem : ∀ s, I s → Gives (item s) J) (hJ : ∀ s, J s → I s) :
    Gives (separatedFold separator item s) J := by
  refine bind (hitem s hs) fun s hs => iterate hs fun s hs => seq fun _ => ?_
  refine ite (fun _ => ?_) fun _ => ?_
  · exact bind (hitem s (hJ s hs)) fun s hs => Gives.some hs
  · exact Gives.none

theorem statements {statement : σ → Parser σ} (hs : I s)
    (hstatement : ∀ s, I s → Gives (statement s) I) : Gives (statements statement s) I := by
  refine bind (iterate hs fun s hs => ?_) fun s hs => seq fun _ => pure hs
  refine seq fun _ => seq fun _ => ite (fun _ => Gives.none) fun _ => ?_
  refine seq fun _ => ite (fun _ => Gives.none) fun _ => seq fun _ => ?_
  refine bind (hstatement s hs) fun s hs => seq fun _ => ?_
  exact ite (fun _ => seq fun _ => Gives.some hs) fun _ => Gives.some hs

theorem block {statement : σ → Parser σ} (hs : I s)
    (hstatement : ∀ s, I s → Gives (statement s) I) : Gives (block statement s) I :=
  seq fun _ => statements hs hstatement

/-- A recursion returns what one round does if the next one does. The induction is on the number of
tokens left. -/
theorem nested {body : Parser α → Parser α} (hbody : ∀ p, Gives p P → Gives (body p) P) :
    Gives (nested body) P := by
  intro scope ts v rest h
  change nestedOn body scope ts = .ok (v, rest) at h
  induction hn : ts.length using Nat.strongRecOn generalizing scope ts v rest with
  | ind n ih =>
    rw [nestedOn] at h
    refine hbody _ (fun scope' ts' v' rest' h' => ?_) h
    split at h'
    · next hlt => exact ih ts'.length (hn ▸ hlt) h' rfl
    · exact absurd h' unexpected_ne_ok

end Gives

/-! ## What stays as it is -/

/-- Whatever the parser returns, `f` has the given value on it. -/
class Keeps (p : Parser α) (f : α → β) (b : β) : Prop where
  gives : Gives p fun v => f v = b

namespace Keeps

variable {γ : Type} {f : β → γ} {c : γ}

instance pure {v : β} : Keeps (Pure.pure v) f (f v) := ⟨.pure rfl⟩

instance seq [hq : ∀ v, Keeps (q v) f c] : Keeps (p >>= q) f c := ⟨.seq fun v => (hq v).gives⟩

instance ite {x : Prop} [Decidable x] {r r' : Parser β} [hr : Keeps r f c] [hr' : Keeps r' f c] :
    Keeps (if x then r else r') f c := ⟨.ite (fun _ => hr.gives) fun _ => hr'.gives⟩

instance passOver {s : β} : Keeps (passOver s) f (f s) := ⟨.passOver rfl⟩

instance fail {fault : Fault} : Keeps (fail fault) f c := ⟨.fail⟩

instance unexpected {expected : String} : Keeps (unexpected expected) f c := ⟨.unexpected⟩

instance closing {r : Parser β} [hr : Keeps r f c] : Keeps (closing r) f c := ⟨hr.gives.closing⟩

/-- The form of `seq` for a case distinction. -/
theorem cases (hq : ∀ v, Keeps (q v) f c) : Keeps (p >>= q) f c := seq

/-- What holds of a part that stays as it is still holds. -/
theorem of {r : Parser β} (hr : Keeps r f c) {Q : γ → Prop} (h : Q c) :
    Gives r fun v => Q (f v) :=
  hr.gives.mono fun _ e => e.symm ▸ h

end Keeps

/-- Of the statements that keywords open, only one changes a part of what was read before. -/
theorem Gives.statement {γ : Type} {f : σ → γ} {Q : γ → Prop} {s : σ}
    {statement : Option Keyword → Parser σ} (opening : Keyword) (h : Q (f s))
    (hopening : Gives (statement (some opening)) fun s => Q (f s))
    (hother : ∀ k, k ≠ some opening → Keeps (statement k) f (f s)) :
    Gives (keyword? >>= statement) fun s => Q (f s) := by
  refine .seq fun k => ?_
  by_cases hk : k = some opening
  · exact hk ▸ hopening
  · exact (hother k hk).of h

end Blueprint.Parser
