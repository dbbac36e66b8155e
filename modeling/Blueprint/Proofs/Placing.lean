import Blueprint.Proofs.Reads
import Blueprint.Proofs.Relocation

/-!
# Declarations and their places

In another reading of the same tokens a declaration has another place and is the same otherwise.
What parses it is given the place and, from another place, reads the same declaration, moved there.
-/

namespace Blueprint

namespace Parser

variable {r : Rereading} {g : Ground} {plain : Bool} {α β γ σ : Type} {e : Effect}

/-- Whatever the first parser succeeds with, the second one succeeds with the image of it. -/
class Maps (f : α → β) (p : Parser α) (p' : Parser β) : Prop where
  run : ∀ {scope ts v rest}, p scope ts = .ok (v, rest) → p' scope ts = .ok (f v, rest)

section

variable {f : α → β} {l l' : Location} {t : Token} {fault : Fault} {expected : String}

theorem Maps.of_never {p : Parser α} {p' : Parser β}
    (h : ∀ {scope ts v rest}, p scope ts ≠ .ok (v, rest)) : Maps f p p' :=
  ⟨fun hp => absurd hp h⟩

instance {p : Parser β} : Maps f (failIn l fault : Parser α) p := .of_never failIn_ne_ok
instance {p : Parser β} : Maps f (failAt t fault : Parser α) p := .of_never failAt_ne_ok
instance {p : Parser β} : Maps f (fail fault : Parser α) p := .of_never fail_ne_ok
instance {p : Parser β} : Maps f (unexpected expected : Parser α) p := .of_never unexpected_ne_ok

theorem Maps.pure_of {v : α} {w : β} (h : f v = w) : Maps f (pure v) (pure w) where
  run hv := by
    cases hv
    rw [← h]
    rfl

instance {v : α} : Maps f (pure v : Parser α) (pure (f v)) := .pure_of rfl

theorem Maps.bind {p : Parser α} {p' : Parser β} {q : α → Parser γ} {q' : β → Parser σ}
    {g : γ → σ} (hp : Maps f p p') (hq : ∀ v, Maps g (q v) (q' (f v))) :
    Maps g (p >>= q) (p' >>= q') where
  run h := by
    obtain ⟨v, mid, hv, hw⟩ := bind_eq_ok_iff.1 h
    exact bind_eq_ok_iff.2 ⟨f v, mid, hp.run hv, (hq v).run hw⟩

/-- A parser that reads images where it reads values reads only values that are their own image. -/
theorem Maps.eq_of_eq_ok {f : α → α} {p : Parser α} {scope : Scope} {ts rest : List Token} {v : α}
    (hp : Maps f p p) (h : p scope ts = .ok (v, rest)) : f v = v :=
  congrArg Prod.fst (Except.ok.inj ((hp.run h).symm.trans h))

instance Maps.bind_alike {p p' : Parser γ} {q : γ → Parser α} {q' : γ → Parser β} [hp : Alike p p']
    [hq : ∀ v, Maps f (q v) (q' v)] : Maps f (p >>= q) (p' >>= q') :=
  .bind (f := id) ⟨hp.run⟩ hq

/-- What is read first is the same. -/
theorem Maps.after {p : Parser γ} {q : γ → Parser α} {q' : γ → Parser β}
    (hq : ∀ v, Maps f (q v) (q' v)) : Maps f (p >>= q) (p >>= q') :=
  .bind_alike

instance {c : Prop} [Decidable c] {p q : Parser α} {p' q' : Parser β} [hp : Maps f p p']
    [hq : Maps f q q'] : Maps f (if c then p else q) (if c then p' else q') := by
  split
  · exact hp
  · exact hq

end

instance {f : α → β} {s : α} : Maps f (passOver s) (passOver (f s)) :=
  inferInstanceAs (Maps f (skip >>= fun _ => pure s) (skip >>= fun _ => pure (f s)))

/-- A value that ends its statement. -/
instance {f : α → β} {p : Parser α} {p' : Parser β} [h : Maps f p p'] :
    Maps f (closing p) (closing p') :=
  .bind h fun _ => inferInstance

/-! ## Loops and blocks -/

section

variable {f : α → β}

/-- The induction is on the number of tokens left. -/
theorem Maps.iterate {step : α → Parser (Option α)} {step' : β → Parser (Option β)}
    (h : ∀ s, Maps (Option.map f) (step s) (step' (f s))) (s : α) :
    Maps f (Parser.iterate step s) (Parser.iterate step' (f s)) where
  run {scope ts v rest} hv := by
    change iterateOn step scope s ts = .ok (v, rest) at hv
    show iterateOn step' scope (f s) ts = .ok (f v, rest)
    induction hn : ts.length using Nat.strongRecOn generalizing s ts with
    | ind n ih =>
      obtain ⟨next, mid, hs⟩ := exists_step_of_iterateOn hv
      have hs' := (h s).run hs
      cases next with
      | none =>
        rw [iterateOn_of_none hs] at hv
        rw [iterateOn_of_none hs']
        cases hv
        rfl
      | some next =>
        rw [iterateOn_of_some hs] at hv
        rw [iterateOn_of_some hs']
        by_cases hlt : mid.length < ts.length
        · rw [if_pos hlt] at hv ⊢
          exact ih mid.length (hn ▸ hlt) next hv rfl
        · rw [if_neg hlt] at hv ⊢
          cases hv
          rfl

variable {statement : α → Parser α} {statement' : β → Parser β}
  [h : ∀ s, Maps f (statement s) (statement' (f s))]

include h

theorem Maps.statements (s : α) :
    Maps f (Parser.statements statement s) (Parser.statements statement' (f s)) := by
  have hsome (v : α) : Maps (Option.map f) (pure (some v)) (pure (some (f v))) :=
    inferInstanceAs (Maps _ _ (pure (Option.map f (some v))))
  have hnone : Maps (Option.map f) (pure none) (pure none) :=
    inferInstanceAs (Maps _ _ (pure (Option.map f none)))
  have hstep (s : α) : Maps (Option.map f) (statementStep statement s)
      (statementStep statement' (f s)) := by
    have hread (before : Nat) : Maps (Option.map f)
        (statement s >>= fun next => remaining >>= fun n =>
          if (n == before) = true then skip >>= fun _ => pure (some next) else pure (some next))
        (statement' (f s) >>= fun next => remaining >>= fun n =>
          if (n == before) = true then skip >>= fun _ => pure (some next) else pure (some next)) :=
      .bind (h s) fun v => inferInstance
    unfold statementStep
    infer_instance
  rw [statements_eq, statements_eq]
  exact .bind (.iterate hstep s) fun v => inferInstance

/-- A block of statements, each of which does the same to the image of a state. -/
instance Maps.block (s : α) : Maps f (Parser.block statement s) (Parser.block statement' (f s)) :=
  .bind (f := id) ⟨id⟩ fun _ => .statements s

end

/-- A block and what is done with its result, where that is moved like the state. -/
instance {f : α → β} {statement : α → Parser α} {statement' : β → Parser β} {q : α → Parser α}
    {q' : β → Parser β} {s : α} [∀ s, Maps f (statement s) (statement' (f s))]
    [hq : ∀ v, Maps f (q v) (q' (f v))] :
    Maps f (block statement s >>= q) (block statement' (f s) >>= q') :=
  .bind (.block s) hq

/-! ## Declarations -/

/-- What reads a declaration from its keyword on agrees with itself, up to the place. -/
class Declares [Placed α] (p : Parser α) : Prop where
  agree (r : Rereading) : Agree r .level true p p (Placed.relocate r.place) fun _ => .ends

instance [Placed α] {body : Location → Parser α} [hr : ∀ l, Reads .level true (body l) .ends]
    [hm : ∀ l l', Maps (Placed.move l') (body l) (body l')] : Declares (here >>= body) where
  agree r s a a' v c hs hc ha hv := by
    obtain ⟨t, a, rfl, ht⟩ := hs.plain rfl
    obtain ⟨t', a', hsame, hrest, rfl⟩ := List.forall₂_cons_left_iff.1 ha
    rw [bind_eq_ok (here_apply _ _)] at hv ⊢
    have hv : body (r.first.locate t) r.first (t :: a ++ r.behind) = .ok (v, c) := hv
    obtain ⟨s', b, b', rfl, hl, hc', hb, hv'⟩ := (hr _).agree r hs hc ha hv
    -- what is moved to its own place stays the same
    have hplace : Placed.location v = r.first.locate t := by
      rw [← (hm _ (r.first.locate t)).eq_of_eq_ok hv, Placed.location_move]
    have hmoved := (hm _ (r.second.locate t')).run hv'
    refine ⟨s', b, b', rfl, hl, hc', hb, ?_⟩
    unfold Placed.relocate
    rw [hplace, hsame.place ht]
    exact hmoved

/-- Values that correspond are made of what is read. -/
theorem Agree.bind_pure {p : Parser α} {p' : Parser β} {f : α → β} {h : α → γ} {h' : β → σ}
    {f' : γ → σ} (hp : Agree r g plain p p' f fun _ => e) (hh : ∀ v, h' (f v) = f' (h v)) :
    Agree r g plain (p >>= fun v => Pure.pure (h v)) (p' >>= fun v => Pure.pure (h' v)) f'
      fun _ => e := by
  intro s a a' w c hs hc ha hw
  obtain ⟨v, _, hv, hw⟩ := bind_eq_ok_iff.1 hw
  cases hw
  obtain ⟨s', b, b', rfl, hl, hc', hb, hv'⟩ := hp hs hc ha hv
  refine ⟨s', b, b', rfl, hl, hc', hb, ?_⟩
  rw [bind_eq_ok hv', hh]
  rfl

/-- A block of declarations of one kind, in which other statements are passed over. -/
theorem Agree.declared [Placed α] [g.Level] {k : Keyword} {p : Parser α} [h : Declares p] :
    Agree r g plain
      (Parser.block (fun l => do if ← isAtKeyword k then return l ++ [← p] else passOver l) [])
      (Parser.block (fun l => do if ← isAtKeyword k then return l ++ [← p] else passOver l) [])
      (List.map (Placed.relocate r.place)) fun _ => .ends := by
  refine .block (f := List.map (Placed.relocate r.place)) (fun l => .look ?_ ?_) []
  · refine .bind_pure (h.agree r).onLevel fun v => ?_
    rw [List.map_append]
    rfl
  · exact .bind_pure Agree.skip fun _ => rfl

end Parser

end Blueprint
