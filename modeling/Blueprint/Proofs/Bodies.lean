import Blueprint.Entity.Grammar
import Blueprint.Proofs.Placing

/-!
# Declarations with a body

A declaration that has a body is opened by a line, holds a block of statements and is made of the
state that those lead to (`Body`). The statements are read one round after the other. `Rounds`
relates a state and the tokens left at the start of a round to those at the start of a later one:
from there on the body is read as if it had begun there (`Rounds.statements_eq`), and what every
round keeps holds at the end (`keeps_of_rounds`).
-/

namespace Blueprint.Parser

variable {α β κ σ σ' : Type} {statement : σ → Parser σ} {scope : Scope} {s s' s'' next : σ}
  {ts mid rest : List Token}

/-! ## Rounds -/

/-- The rounds of the loop over statements lead from one state and the tokens left to others. -/
inductive Rounds (statement : σ → Parser σ) (scope : Scope) (s : σ) (ts : List Token) :
    σ → List Token → Prop where
  | refl : Rounds statement scope s ts s ts
  | round {s' next : σ} {mid rest : List Token} :
    Rounds statement scope s ts s' mid →
    statementStep statement s' scope mid = .ok (some next, rest) →
    rest.length < mid.length → Rounds statement scope s ts next rest

namespace Rounds

theorem iterateOn_eq (h : Rounds statement scope s ts s' rest) :
    iterateOn (statementStep statement) scope s ts =
      iterateOn (statementStep statement) scope s' rest := by
  induction h with
  | refl => rfl
  | round _ hstep hlt ih => rw [ih, iterateOn_of_some hstep, if_pos hlt]

/-- The rest of a body is read as if it were a body. -/
theorem statements_eq (h : Rounds statement scope s ts s' rest) :
    statements statement s scope ts = statements statement s' scope rest := by
  show (iterate (statementStep statement) s >>= _) scope ts =
    (iterate (statementStep statement) s' >>= _) scope rest
  have hloop : iterate (statementStep statement) s scope ts =
      iterate (statementStep statement) s' scope rest := h.iterateOn_eq
  show (iterate (statementStep statement) s scope ts >>= _) = iterate _ s' scope rest >>= _
  rw [hloop]

theorem trans (h : Rounds statement scope s ts s' mid)
    (h' : Rounds statement scope s' mid s'' rest) : Rounds statement scope s ts s'' rest := by
  induction h' with
  | refl => exact h
  | round _ hstep hlt ih => exact ih.round hstep hlt

end Rounds

/-- What every round keeps holds of what is read. The induction is on the number of tokens left. -/
theorem keeps_of_rounds {P : σ → Prop} {v : σ} (hs : P s)
    (hround : ∀ {s' next mid rest}, Rounds statement scope s ts s' mid → P s' →
      statementStep statement s' scope mid = .ok (some next, rest) → P next)
    (h : statements statement s scope ts = .ok (v, rest)) : P v := by
  rw [Parser.statements_eq] at h
  obtain ⟨last, _, hlast, h⟩ := bind_eq_ok_iff.1 h
  obtain ⟨_, _, _, h⟩ := bind_eq_ok_iff.1 h
  cases h
  have hloop : ∀ n s' mid out, mid.length = n → Rounds statement scope s ts s' mid → P s' →
      iterateOn (statementStep statement) scope s' mid = .ok out → P out.1 := by
    intro n
    induction n using Nat.strongRecOn with
    | ind n ih =>
      intro s' mid out hn hr hs' h
      obtain ⟨next, rest, hstep⟩ := exists_step_of_iterateOn h
      cases next with
      | none =>
        rw [iterateOn_of_none hstep] at h
        cases h
        exact hs'
      | some next =>
        have hnext := hround hr hs' hstep
        rw [iterateOn_of_some hstep] at h
        by_cases hlt : rest.length < mid.length
        · rw [if_pos hlt] at h
          exact ih rest.length (hn ▸ hlt) next rest out rfl (hr.round hstep hlt) hnext h
        · rw [if_neg hlt] at h
          cases h
          exact hnext
  exact hloop ts.length s ts _ rfl .refl hs hlast

/-- A line on which a statement is read makes a round. -/
theorem statementStep_of_line {t : Token} {us : List Token} (hf : scope.final.kind = .endOfFile)
    (hline : behindNewlines ts = t :: us) (ht : t.kind.endsStatement = false)
    (h : statement s scope (t :: us) = .ok (next, rest)) (hlt : rest.length < (t :: us).length) :
    statementStep statement s scope ts = .ok (some next, rest) := by
  refine (statementStep_eq_ok_iff hf hline ?_ ?_).2 ⟨next, rest, h, rfl, ?_⟩
  · rintro hd
    rw [hd] at ht
    cases ht
  · rintro he
    rw [he] at ht
    cases ht
  · rw [if_neg (Nat.ne_of_lt hlt)]

theorem statementStep_of_endOfFile {us : List Token} (hf : scope.final.kind = .endOfFile)
    (h : behindNewlines ts = us) (he : (head scope us).kind = .endOfFile) :
    statementStep statement s scope ts = .ok (none, us) := by
  unfold statementStep
  rw [bind_eq_ok (skipNewlines_of hf h), bind_eq_ok (isAt_apply _ _ _), he]
  show (isAt .endOfFile >>= _) scope us = _
  rw [bind_eq_ok (isAt_apply _ _ _), he]
  rfl

/-- A round in which there is something to read begins with a statement. -/
theorem exists_of_statementStep (hf : scope.final.kind = .endOfFile)
    (h : statementStep statement s scope ts = .ok (some next, rest)) :
    ∃ t us mid, behindNewlines ts = t :: us ∧ statement s scope (t :: us) = .ok (next, mid) := by
  cases hus : behindNewlines ts with
  | nil =>
    rw [statementStep_of_endOfFile hf hus hf] at h
    cases h
  | cons t us =>
    by_cases hd : t.kind = .dedent
    · rw [statementStep_of_dedent hf hus hd] at h
      cases h
    by_cases he : t.kind = .endOfFile
    · rw [statementStep_of_endOfFile hf hus he] at h
      cases h
    obtain ⟨v, mid, hv, e, -⟩ := (statementStep_eq_ok_iff hf hus hd he).1 h
    cases e
    exact ⟨t, us, mid, rfl, hv⟩

/-- No line from here on begins with the keyword. -/
def NoLater (statement : σ → Parser σ) (scope : Scope) (k : Keyword) (s : σ) (ts : List Token) :
    Prop :=
  ∀ s' mid, Rounds statement scope s ts s' mid → (head scope (behindNewlines mid)).kind ≠ .keyword k

/-- At the end of the block the body is read. -/
theorem statements_of_dedent {t : Token} {us : List Token} (hf : scope.final.kind = .endOfFile)
    (hline : behindNewlines ts = t :: us) (ht : t.kind = .dedent) :
    statements statement s scope ts = .ok (s, us) := by
  have hloop : iterate (statementStep statement) s scope ts = .ok (s, t :: us) :=
    iterateOn_of_none (statementStep_of_dedent hf hline ht)
  rw [Parser.statements_eq, bind_eq_ok hloop, bind_eq_ok (accept_of_eq ht)]
  rfl

/-- At the end of the block there are no lines left. -/
theorem NoLater.of_dedent {t : Token} {us : List Token} (k : Keyword)
    (hf : scope.final.kind = .endOfFile) (hline : behindNewlines ts = t :: us)
    (ht : t.kind = .dedent) : NoLater statement scope k s ts := by
  intro s' mid hr
  have hmid : mid = ts := by
    induction hr with
    | refl => rfl
    | round _ hstep _ ih =>
      subst ih
      rw [statementStep_of_dedent hf hline ht] at hstep
      cases hstep
  rw [hmid, hline, head_cons, ht]
  nofun

/-- What only lines with a certain keyword change stays as it is where there are none. -/
theorem NoLater.part_eq (part : σ → κ) {k : Keyword} {v : σ} (hf : scope.final.kind = .endOfFile)
    (h : NoLater statement scope k s ts)
    (hpart : ∀ {s s' us rest}, (head scope us).kind ≠ .keyword k →
      statement s scope us = .ok (s', rest) → part s' = part s)
    (hv : statements statement s scope ts = .ok (v, rest)) : part v = part s := by
  refine keeps_of_rounds (P := fun s' => part s' = part s) rfl (fun hr hs hstep => ?_) hv
  obtain ⟨t, us, mid, hline, hnext⟩ := exists_of_statementStep hf hstep
  have hhead := h _ _ hr
  rw [hline] at hhead
  exact (hpart hhead hnext).trans hs

/-! ## Parts of a state that are not looked at -/

theorem map_ite {c : Prop} [Decidable c] (f : α → β) (p q : Parser α) :
    f <$> (if c then p else q) = if c then f <$> p else f <$> q := by
  split <;> rfl

theorem map_apply (f : α → β) (p : Parser α) (scope : Scope) (ts : List Token) :
    (f <$> p) scope ts = (p scope ts).map (Prod.map f id) := by
  show (p scope ts >>= fun r => pure (f r.1, r.2)) = _
  cases p scope ts <;> rfl

section

variable {f : σ → σ'} {step : σ → Parser (Option σ)} {step' : σ' → Parser (Option σ')}
  {statement' : σ' → Parser σ'}

/-- The induction is on the number of tokens left. -/
theorem iterate_map (h : ∀ s, step' (f s) = Option.map f <$> step s) (s : σ) :
    iterate step' (f s) = f <$> iterate step s := by
  funext scope ts
  rw [map_apply]
  show iterateOn step' scope (f s) ts = (iterateOn step scope s ts).map _
  induction hn : ts.length using Nat.strongRecOn generalizing s ts with
  | ind n ih =>
    have hstep : step' (f s) scope ts = (step s scope ts).map (Prod.map (Option.map f) id) := by
      rw [h, map_apply]
    cases hs : step s scope ts with
    | error e =>
      rw [hs] at hstep
      rw [iterateOn, iterateOn, hstep, hs]
      rfl
    | ok out =>
      obtain ⟨next, rest⟩ := out
      rw [hs] at hstep
      cases next with
      | none =>
        rw [iterateOn_of_none hs, iterateOn_of_none hstep]
        rfl
      | some next =>
        have hstep : step' (f s) scope ts = .ok (some (f next), rest) := hstep
        rw [iterateOn_of_some hs, iterateOn_of_some hstep]
        by_cases hlt : rest.length < ts.length
        · rw [if_pos hlt, if_pos hlt]
          exact ih rest.length (hn ▸ hlt) next rest rfl
        · rw [if_neg hlt, if_neg hlt]
          rfl

theorem statementStep_map (h : ∀ s, statement' (f s) = f <$> statement s) (s : σ) :
    statementStep statement' (f s) = Option.map f <$> statementStep statement s := by
  unfold statementStep
  simp only [h, map_bind, map_ite, map_pure, bind_map_left, Option.map]

/-- A body whose statements do the same to the image of a state does the same to it. -/
theorem statements_map (h : ∀ s, statement' (f s) = f <$> statement s) (s : σ) :
    statements statement' (f s) = f <$> statements statement s := by
  rw [Parser.statements_eq, Parser.statements_eq, iterate_map (statementStep_map h)]
  simp only [map_bind, map_pure, bind_map_left]

end

/-! ## Bodies -/

/-- A declaration that is opened by a line and holds a block of statements. -/
structure Body (α : Type) where
  /-- What the line tells of the declaration. -/
  Header : Type
  /-- What the statements lead from and to. -/
  State : Type
  opening : Parser Header
  start : Header → State
  statement : State → Parser State
  finish : Header → State → Parser α

namespace Body

variable (b : Body α)

def parser : Parser α := do
  let h ← b.opening
  b.finish h (← block b.statement (b.start h))

/-- The loop over the body of the declaration in front comes to the given tokens. -/
def Comes (scope : Scope) (ts : List Token) (h : b.Header) (s : b.State) (mid : List Token) :
    Prop :=
  ∃ colon body, b.opening scope ts = .ok (h, colon) ∧ beginBlock scope colon = .ok ((), body) ∧
    Rounds b.statement scope (b.start h) body s mid

variable {b} {h : b.Header} {s : b.State}

/-- What the declaration is made of is what the rest of its body leads to. -/
theorem Comes.parser_eq (hcomes : b.Comes scope ts h s mid) :
    b.parser scope ts = (statements b.statement s >>= b.finish h) scope mid := by
  obtain ⟨colon, body, hopening, hbegin, hrounds⟩ := hcomes
  unfold parser block
  rw [bind_eq_ok hopening]
  simp only [bind_assoc]
  rw [bind_eq_ok hbegin]
  show (statements b.statement (b.start h) scope body >>= _) =
    statements b.statement s scope mid >>= _
  rw [hrounds.statements_eq]

/-- A line that can be read is behind the loop. -/
theorem Comes.line {next : b.State} {t : Token} {us : List Token}
    (hf : scope.final.kind = .endOfFile) (hcomes : b.Comes scope ts h s mid)
    (hline : behindNewlines mid = t :: us) (ht : t.kind.endsStatement = false)
    (hnext : b.statement s scope (t :: us) = .ok (next, rest))
    (hlt : rest.length < (t :: us).length) : b.Comes scope ts h next rest := by
  obtain ⟨colon, body, hopening, hbegin, hrounds⟩ := hcomes
  have hle := (behindNewlines_suffix mid).length_le
  rw [hline] at hle
  exact ⟨colon, body, hopening, hbegin,
    hrounds.round (statementStep_of_line hf hline ht hnext hlt) (Nat.lt_of_lt_of_le hlt hle)⟩

end Body

/-- What is read of a declaration in front of its body: its place, its name and its title. -/
def titled (k : Keyword) : Parser (Location × String × Option String) := do
  let location ← here
  let _ ← expectKeyword k
  let (n, title) ← header
  return (location, n, title)

@[reducible] def entityBody : Body Entity where
  Header := Location × String × Option String
  State := Entity × List Transition
  opening := titled .entity
  start | (location, n, title) => ({ location, name := n, title }, [])
  statement := entityStatement
  finish | _, (e, found) => return { e with stateMachine := StateMachine.of? e.fields found }

theorem parser_entityBody : entityBody.parser = entity := by
  show (titled .entity >>= fun h => block entityStatement _ >>= _) = _
  unfold titled entity
  simp only [bind_assoc, pure_bind]

end Blueprint.Parser
