import Blueprint.Proofs.Blocks

/-!
# Parsers that read the same

`Reads g plain p e` says that a parser agrees with itself in every rereading: what it reads and
where it leads to (`Effect`) depends on the tokens of what is open and on nothing behind them. The
property is found by instance search, along the structure of a grammar: it has an instance for each
way to put parsers together, and the grammar modules of this theory add one for each production.

Two things need care. A parser that looks ahead reads the same only as far as the tokens it looks at
are certain to be there (`Looks`). And the places of tokens differ between the readings, so that a
token may only be used for its class and text (`Blind`).
-/

namespace Blueprint

/-- The class is no mark of layout. -/
class TokenKind.Plain (k : TokenKind) : Prop where
  endsStatement : k.endsStatement = false

namespace Parser

variable {r : Rereading} {g : Ground} {plain : Bool} {α β σ : Type} {e : Effect}

/-- The parser reads the same whatever stands behind what is open. -/
class Reads (g : Ground) (plain : Bool) (p : Parser α) (e : Effect) : Prop where
  agree (r : Rereading) : Agree r g plain p p id fun _ => e

/-- The parser either reads a statement or returns nothing. -/
class Tries (g : Ground) (plain : Bool) (p : Parser (Option α)) : Prop where
  agree (r : Rereading) : Agree r g plain p p id fun v => if v.isSome then .ends else .stays

/-- The parser never returns nothing. -/
class Yields (p : Parser (Option α)) : Prop where
  isSome : ∀ {scope ts v rest}, p scope ts = .ok (v, rest) → v.isSome = true

/-- The parser reads nothing and looks at nothing. -/
class Still (p : Parser α) : Prop where
  run : ∀ {scope ts v rest}, p scope ts = .ok (v, rest) →
    rest = ts ∧ ∀ scope' ts', p scope' ts' = .ok (v, ts')

/-- The parser reads nothing. If it answers yes, no mark of layout comes next. -/
class Looks (q : Parser Bool) : Prop where
  run : ∀ {r : Rereading} {s : Position} {a a' v c}, a ≠ [] → s.ClosedBy a →
    List.Forall₂ r.Same a a' → q r.first (a ++ r.behind) = .ok (v, c) → c = a ++ r.behind ∧
      q r.second (a' ++ r.next) = .ok (v, a' ++ r.next) ∧
      (v = true → ∃ t rest, a = t :: rest ∧ t.kind.endsStatement = false)

/-- The parser reads nothing and, where a token that is no mark of layout comes next, looks only at
tokens that are certain to be there. -/
class Peeks (g : Ground) (q : Parser Bool) : Prop where
  run : ∀ {r : Rereading} {s : Position} {t : Token} {a a' v c}, Entry r g false s (t :: a) →
    s.ClosedBy (t :: a) → t.kind.endsStatement = false → List.Forall₂ r.Same (t :: a) a' →
    q r.first (t :: a ++ r.behind) = .ok (v, c) → c = t :: a ++ r.behind ∧
      q r.second (a' ++ r.next) = .ok (v, a' ++ r.next)

/-- The places of tokens do not matter to what is read behind them. -/
class Blind (q : Token → Parser α) : Prop where
  alike : ∀ {t t' : Token}, t'.kind = t.kind → t'.text = t.text → Alike (q t) (q t')

/-! ## Never, or without reading -/

section

variable {l : Location} {t : Token} {fault : Fault} {expected : String}

theorem Reads.of_never {p : Parser α} (h : ∀ {scope ts v rest}, p scope ts ≠ .ok (v, rest)) :
    Reads g plain p e :=
  ⟨fun _ => .of_never h⟩

instance : Reads g plain (failIn l fault : Parser α) e := .of_never failIn_ne_ok
instance : Reads g plain (failAt t fault : Parser α) e := .of_never failAt_ne_ok
instance : Reads g plain (fail fault : Parser α) e := .of_never fail_ne_ok
instance : Reads g plain (unexpected expected : Parser α) e := .of_never unexpected_ne_ok

theorem Still.of_never {p : Parser α} (h : ∀ {scope ts v rest}, p scope ts ≠ .ok (v, rest)) :
    Still p :=
  ⟨fun hp => absurd hp h⟩

instance : Still (failIn l fault : Parser α) := .of_never failIn_ne_ok
instance : Still (failAt t fault : Parser α) := .of_never failAt_ne_ok
instance : Still (fail fault : Parser α) := .of_never fail_ne_ok
instance : Still (unexpected expected : Parser α) := .of_never unexpected_ne_ok

instance {v : α} : Still (pure v : Parser α) where
  run h := by
    cases h
    exact ⟨rfl, fun _ _ => rfl⟩

instance {c : Prop} [Decidable c] {p q : Parser α} [hp : Still p] [hq : Still q] :
    Still (if c then p else q) := by
  split
  · exact hp
  · exact hq

instance {p : Parser α} {q : α → Parser β} [hp : Still p] [hq : ∀ v, Still (q v)] :
    Still (p >>= q) where
  run h := by
    obtain ⟨v, mid, hv, hw⟩ := bind_eq_ok_iff.1 h
    obtain ⟨rfl, hv'⟩ := hp.run hv
    obtain ⟨rfl, hw'⟩ := (hq v).run hw
    exact ⟨rfl, fun scope' ts' => bind_eq_ok_iff.2 ⟨v, ts', hv' scope' ts', hw' scope' ts'⟩⟩

instance {c n d : String} {o : Option α} : Still (required c n d l o) := by
  cases o with
  | none => exact inferInstanceAs (Still (failIn l _))
  | some v => exact inferInstanceAs (Still (pure v))

end

theorem Reads.of_still {p : Parser α} [h : Still p] : Reads g plain p .stays where
  agree r s a a' v b _ hc ha hp := by
    obtain ⟨rfl, hp'⟩ := h.run hp
    exact ⟨s, a, a', rfl, .refl, hc, ha, hp' _ _⟩

instance {v : α} : Reads g plain (pure v : Parser α) .stays := .of_still

instance {c n d : String} {l : Location} {o : Option α} :
    Reads g plain (required c n d l o) .stays := .of_still

/-- What has the same successes reads the same. -/
theorem Reads.of_alike {p p' : Parser α} (h : Alike p p') (h' : Alike p' p)
    (hp : Reads g plain p' e) : Reads g plain p e where
  agree r s a a' v b hs hc ha hv := by
    obtain ⟨s', b, b', rfl, hl, hc', hb, hv'⟩ := hp.agree r hs hc ha (h.run hv)
    exact ⟨s', b, b', rfl, hl, hc', hb, h'.run hv'⟩

/-! ## Sequences and choices -/

instance Reads.bind {p : Parser α} {q : α → Parser β} [hp : Reads g plain p .stays]
    [hq : ∀ v, Reads g false (q v) e] : Reads g plain (p >>= q) e :=
  ⟨fun r => .bind (hp.agree r) fun v => (hq v).agree r⟩

/-- Behind the end of a statement nothing more is read. -/
theorem Agree.bind_still {p p' : Parser α} {q q' : α → Parser β}
    (hp : Agree r g plain p p' id fun _ => e) [hq : ∀ v, Still (q v)]
    [hl : ∀ v, Alike (q v) (q' v)] : Agree r g plain (p >>= q) (p' >>= q') id fun _ => e := by
  intro s a a' w c hs hc ha h
  obtain ⟨v, _, hv, hw⟩ := bind_eq_ok_iff.1 h
  obtain ⟨s', b, b', rfl, hl', hc', hb, hv'⟩ := hp hs hc ha hv
  obtain ⟨rfl, hw'⟩ := (hq v).run hw
  exact ⟨s', b, b', rfl, hl', hc', hb, bind_eq_ok_iff.2 ⟨_, _, hv', (hl v).run (hw' _ _)⟩⟩

instance {p : Parser α} {q : α → Parser β} [hp : Reads g plain p .ends] [∀ v, Still (q v)] :
    Reads g plain (p >>= q) .ends :=
  ⟨fun r => .bind_still (hp.agree r)⟩

instance {p : Parser α} {f : α → β} [hp : Reads g plain p e] :
    Reads g plain (f <$> p) e where
  agree r s a a' w b hs hc ha h := by
    obtain ⟨v, hv, rfl⟩ := map_eq_ok_iff.1 h
    obtain ⟨s', b, b', rfl, hl, hc', hb, hv'⟩ := hp.agree r hs hc ha hv
    exact ⟨s', b, b', rfl, hl, hc', hb, map_eq_ok_iff.2 ⟨_, hv', rfl⟩⟩

instance {c : Prop} [Decidable c] {p q : Parser α} [hp : Reads g plain p e]
    [hq : Reads g plain q e] : Reads g plain (if c then p else q) e := by
  split
  · exact hp
  · exact hq

theorem Reads.weaken {p : Parser α} (h : Reads g false p e) : Reads g plain p e :=
  ⟨fun r => (h.agree r).weaken⟩

/-! ## Attempts -/

instance {v : α} : Yields (pure (some v)) where
  isSome h := by
    cases h
    rfl

instance {p : Parser α} {q : α → Parser (Option β)} [hq : ∀ v, Yields (q v)] :
    Yields (p >>= q) where
  isSome h := by
    obtain ⟨v, mid, -, hw⟩ := bind_eq_ok_iff.1 h
    exact (hq v).isSome hw

theorem Agree.tries {p p' : Parser (Option α)} (h : Agree r g plain p p' id fun _ => .ends)
    [hy : Yields p] :
    Agree r g plain p p' id fun v => if v.isSome then .ends else .stays := by
  intro s a a' v b hs hc ha hv
  obtain ⟨w, rfl⟩ := Option.isSome_iff_exists.1 (hy.isSome hv)
  exact h hs hc ha hv

instance {p : Parser (Option α)} [hp : Reads g plain p .ends] [Yields p] : Tries g plain p :=
  ⟨fun r => .tries (hp.agree r)⟩

instance : Tries g plain (pure none : Parser (Option α)) where
  agree r s a a' v b hs hc ha h := by
    cases h
    exact (inferInstance : Reads g plain (pure none) .stays).agree r hs hc ha rfl

/-- If nothing was read, something else is. -/
theorem Agree.attempt {p p' : Parser (Option α)} {q : Option α → Parser β}
    (hp : Agree r g plain p p' id fun v => if v.isSome then .ends else .stays)
    [hs : ∀ v, Still (q (some v))] [hn : Reads g false (q none) .ends] :
    Agree r g plain (p >>= q) (p' >>= q) id fun _ => .ends := by
  intro s a a' w c hs' hc ha h
  obtain ⟨v, _, hv, hw⟩ := bind_eq_ok_iff.1 h
  obtain ⟨s', b, b', rfl, hl, hc', hb, hv'⟩ := hp hs' hc ha hv
  cases v with
  | some v =>
    obtain ⟨rfl, hw'⟩ := (hs v).run hw
    exact ⟨s', b, b', rfl, hl, hc', hb, bind_eq_ok_iff.2 ⟨_, _, hv', hw' _ _⟩⟩
  | none =>
    obtain ⟨s'', d, d', rfl, hl', hc'', hd, hw'⟩ := hn.agree r (hs'.after hl hc') hc' hb hw
    exact ⟨s'', d, d', rfl, Effect.Leads.trans hl hl', hc'', hd,
      bind_eq_ok_iff.2 ⟨_, _, hv', hw'⟩⟩

instance {p : Parser (Option α)} {q : Option α → Parser β} [hp : Tries g plain p]
    [∀ v, Still (q (some v))] [Reads g false (q none) .ends] :
    Reads g plain (p >>= q) .ends :=
  ⟨fun r => .attempt (hp.agree r)⟩

/-! ## Looking ahead -/

/-- Behind a token that is no mark of layout there is another one: at least its line has to end. -/
theorem exists_next {s : Position} {t : Token} {a a' : List Token} (hc : s.ClosedBy (t :: a))
    (ht : t.kind.endsStatement = false) (ha : List.Forall₂ r.Same (t :: a) a') :
    ∃ t' u u' us us', a = u :: us ∧ a' = t' :: u' :: us' ∧ r.Same t t' ∧ r.Same u u' ∧
      List.Forall₂ r.Same us us' ∧ (⟨s.depth, true⟩ : Position).ClosedBy (u :: us) := by
  have hc := hc.of_plain ht
  obtain ⟨u, us, rfl⟩ := hc.exists_cons Position.inLine_ne_outside
  obtain ⟨t', _, ht', hrest, rfl⟩ := List.forall₂_cons_left_iff.1 ha
  obtain ⟨u', us', hu, hus, rfl⟩ := List.forall₂_cons_left_iff.1 hrest
  exact ⟨t', u, u', us, us', rfl, rfl, ht', hu, hus, hc⟩

theorem Looks.of_current {g : Token → Bool}
    (hg : ∀ t t' : Token, t'.kind = t.kind → t'.text = t.text → g t' = g t)
    (hplain : ∀ t, g t = true → t.kind.endsStatement = false) :
    Looks (current >>= fun t => pure (g t)) where
  run hne _ ha h := by
    obtain ⟨t, ts, rfl⟩ := List.exists_cons_of_ne_nil hne
    obtain ⟨t', ts', ht, -, rfl⟩ := List.forall₂_cons_left_iff.1 ha
    rw [bind_eq_ok (current_apply _ _)] at h
    cases h
    refine ⟨rfl, ?_, fun hv => ⟨t, ts, rfl, hplain t hv⟩⟩
    rw [bind_eq_ok (current_apply _ _)]
    exact congrArg (fun v => Except.ok (v, _)) (hg t t' ht.kind ht.text)

theorem isWord_congr {t t' : Token} (hk : t'.kind = t.kind) : t'.isWord = t.isWord := by
  unfold Token.isWord
  rw [hk]

theorem endsStatement_of_isWord {t : Token} (h : t.isWord = true) :
    t.kind.endsStatement = false := by
  unfold Token.isWord at h
  cases hk : t.kind <;> rw [hk] at h <;> first | rfl | cases h

instance {k : TokenKind} [hk : k.Plain] : Looks (isAt k) := by
  unfold isAt
  refine .of_current (fun t t' h _ => by rw [h]) fun t h => ?_
  rw [beq_iff_eq.1 h]
  exact hk.endsStatement

instance {k : Keyword} : TokenKind.Plain (.keyword k) := ⟨rfl⟩

instance {k : Keyword} : Looks (isAtKeyword k) := inferInstanceAs (Looks (isAt _))

instance : Looks isAtWord :=
  .of_current (fun _ _ hk _ => isWord_congr hk) fun _ => endsStatement_of_isWord

instance {text : String} : Looks (isAtText text) :=
  .of_current (fun _ _ hk hx => by rw [isWord_congr hk, hx]) fun t h =>
    endsStatement_of_isWord (Bool.and_eq_true_iff.1 h).1

/-- One look or another. -/
instance {q q' : Parser Bool} [hq : Looks q] [hq' : Looks q'] :
    Looks (q >>= fun b => if b = true then pure true else q') where
  run hs hc ha h := by
    obtain ⟨v, mid, hv, h⟩ := bind_eq_ok_iff.1 h
    obtain ⟨rfl, hv', hp⟩ := hq.run hs hc ha hv
    rw [bind_eq_ok hv']
    cases v with
    | true => cases h; exact ⟨rfl, rfl, hp⟩
    | false => exact hq'.run hs hc ha h

/-- Behind a token that is no mark of layout there is one to look at. -/
theorem Peeks.next {q : TokenKind → Parser Bool} (hq : ∀ k, Still (q k)) :
    Peeks g (peek 1 >>= fun t => q t.kind) where
  run {r} _ _ _ _ _ _ _ hc ht ha h := by
    obtain ⟨t', u, u', us, us', rfl, rfl, -, hu, -, -⟩ := exists_next hc ht ha
    rw [bind_eq_ok (peek_one_apply _ _)] at h ⊢
    have hkind : (head r.second (t' :: u' :: us' ++ r.next).tail).kind = u.kind := hu.kind
    obtain ⟨rfl, h'⟩ := (hq _).run h
    rw [hkind]
    exact ⟨rfl, h' _ _⟩

instance {k : TokenKind} : Peeks g (peekIs 1 k) :=
  .next (q := fun k' => pure (k' == k)) fun _ => inferInstance

/-- Behind a token that is no mark of layout, and one that is none either, there is a third. -/
theorem Peeks.second {k : TokenKind} [hk : k.Plain] {look : Token → Bool}
    (hg : ∀ t t' : Token, t'.kind = t.kind → look t' = look t) :
    Peeks g (peekIs 1 k >>= fun b =>
      if b = true then peek 2 >>= fun t => pure (look t) else pure false) where
  run _ hc ht ha h := by
    obtain ⟨t', u, u', us, us', rfl, rfl, htt, hu, hus, hc'⟩ := exists_next hc ht ha
    have hpeek (scope : Scope) (t u : Token) (us : List Token) :
        peekIs 1 k scope (t :: u :: us) = .ok (u.kind == k, t :: u :: us) := rfl
    simp only [List.cons_append] at h ⊢
    rw [bind_eq_ok (hpeek _ _ _ _)] at h
    rw [bind_eq_ok (hpeek _ _ _ _), hu.kind]
    by_cases hn : u.kind = k
    · have hplain : u.kind.endsStatement = false := hn ▸ hk.endsStatement
      obtain ⟨u', v, v', vs, vs', rfl, e, -, hv, -, -⟩ := exists_next hc' hplain (.cons hu hus)
      cases e
      rw [if_pos (beq_iff_eq.2 hn)] at h ⊢
      cases h
      exact ⟨rfl, congrArg (fun v => Except.ok (v, _)) (hg v v' hv.kind)⟩
    · rw [if_neg (by rwa [beq_iff_eq])] at h ⊢
      cases h
      exact ⟨rfl, rfl⟩

/-- Inside a block, something stands behind the end of a line. -/
instance {k : TokenKind} : Peeks .block (peekIs 2 k) where
  run {r} _ _ _ _ _ _ hs hc ht ha h := by
    obtain ⟨t', u, u', us, us', rfl, rfl, -, hu, hus, hc'⟩ := exists_next hc ht ha
    have hnext : ∃ v vs, us = v :: vs := by
      by_cases hk : u.kind.endsStatement = true
      · have hnewline : u.kind = .newline := by
          rcases hc'.of_endsStatement hk with h | h
          · exact h
          · cases h
        exact (hc'.of_newline hnewline).exists_cons (Position.ne_outside_of_pos hs.ground)
      · exact (hc'.of_plain (Bool.eq_false_iff.2 hk)).exists_cons Position.inLine_ne_outside
    obtain ⟨v, vs, rfl⟩ := hnext
    obtain ⟨v', vs', hv, -, rfl⟩ := List.forall₂_cons_left_iff.1 hus
    cases h
    refine ⟨rfl, ?_⟩
    show Except.ok (v'.kind == k, _) = _
    rw [hv.kind]
    rfl

instance {q q' : Parser Bool} [hq : Peeks g q] [hq' : Peeks g q'] :
    Peeks g (q >>= fun b => if b = true then pure true else q') where
  run hs hc ht ha h := by
    obtain ⟨v, mid, hv, h⟩ := bind_eq_ok_iff.1 h
    obtain ⟨rfl, hv'⟩ := hq.run hs hc ht ha hv
    rw [bind_eq_ok hv']
    cases v with
    | true => cases h; exact ⟨rfl, rfl⟩
    | false => exact hq'.run hs hc ht ha h

instance {q : Parser Bool} [hq : Peeks g q] : Peeks g (do return !(← q)) where
  run hs hc ht ha h := by
    obtain ⟨v, mid, hv, h⟩ := bind_eq_ok_iff.1 h
    obtain ⟨rfl, hv'⟩ := hq.run hs hc ht ha hv
    cases h
    exact ⟨rfl, bind_eq_ok hv'⟩

/-- A look at the next token and, if that is no mark of layout, at those behind it. -/
instance {q p : Parser Bool} [hq : Looks q] [hp : Peeks .any p] :
    Looks (q >>= fun b => if b = true then p else pure false) where
  run hs hc ha h := by
    obtain ⟨v, mid, hv, h⟩ := bind_eq_ok_iff.1 h
    obtain ⟨rfl, hv', hplain⟩ := hq.run hs hc ha hv
    rw [bind_eq_ok hv']
    cases v with
    | false => cases h; exact ⟨rfl, rfl, hplain⟩
    | true =>
      obtain ⟨t, ts, rfl, ht⟩ := hplain rfl
      obtain ⟨rfl, hw⟩ := hp.run (.any hs) hc ht ha h
      exact ⟨rfl, hw, fun _ => ⟨t, ts, rfl, ht⟩⟩

instance {k : Keyword} : Looks (isAtKeyed k) := by
  unfold isAtKeyed
  infer_instance

instance {k : Keyword} : Looks (isAtUnkeyed k) := by
  unfold isAtUnkeyed
  infer_instance

/-- Where a look answers yes, the next token is no mark of layout. -/
theorem Agree.look {q : Parser Bool} [hq : Looks q] {p₁ p₂ : Parser α} {p₁' p₂' : Parser β}
    {f : α → β} {e : α → Effect} (h₁ : Agree r g true p₁ p₁' f e)
    (h₂ : Agree r g plain p₂ p₂' f e) :
    Agree r g plain (q >>= fun b => if b = true then p₁ else p₂)
      (q >>= fun b => if b = true then p₁' else p₂') f e := by
  intro s a a' w c hs hc ha h
  obtain ⟨v, mid, hv, hw⟩ := bind_eq_ok_iff.1 h
  obtain ⟨rfl, hv', hplain⟩ := hq.run hs.inside hc ha hv
  rw [bind_eq_ok hv']
  cases v with
  | true => exact h₁ ⟨hs.inside, hs.ground, fun _ => hplain rfl⟩ hc ha hw
  | false => exact h₂ hs hc ha hw

instance (priority := high) {q : Parser Bool} {p p' : Parser α} [Looks q]
    [hp : Reads g true p e] [hp' : Reads g plain p' e] :
    Reads g plain (q >>= fun b => if b = true then p else p') e :=
  ⟨fun r => .look (hp.agree r) (hp'.agree r)⟩

instance (priority := high) {q : Parser Bool} {p : Bool → Parser α} [hq : Peeks g q]
    [hp : ∀ b, Reads g true (p b) e] : Reads g true (q >>= p) e where
  agree r s a a' w c hs hc ha h := by
    obtain ⟨v, mid, hv, hw⟩ := bind_eq_ok_iff.1 h
    obtain ⟨t, a, rfl, ht⟩ := hs.plain rfl
    obtain ⟨rfl, hv'⟩ := hq.run hs.weaken hc ht ha hv
    rw [bind_eq_ok hv']
    exact (hp v).agree r hs hc ha hw

/-- To look further ahead in any case makes no difference. -/
theorem look_and_peek {q w : Parser Bool} {p p' : Parser α}
    (hw : ∀ scope ts, ∃ b, w scope ts = .ok (b, ts)) :
    (q >>= fun b => w >>= fun b' => if (b && b') = true then p else p') =
      q >>= fun b => if b = true then w >>= fun b' => if b' = true then p else p' else p' := by
  refine congrArg (q >>= ·) (funext fun b => ?_)
  cases b with
  | true => rfl
  | false =>
    funext scope ts
    obtain ⟨b', h⟩ := hw scope ts
    rw [bind_eq_ok h]
    rfl

theorem exists_peekIs (n : Nat) (k : TokenKind) (scope : Scope) (ts : List Token) :
    ∃ b, peekIs n k scope ts = .ok (b, ts) :=
  ⟨_, rfl⟩

instance (priority := high) {q : Parser Bool} {k : TokenKind} {p p' : Parser α} [Looks q]
    [Reads g true p e] [Reads g true p' e] [Reads g plain p' e] :
    Reads g plain (q >>= fun b => peekIs 1 k >>= fun b' => if (b && b') = true then p else p')
      e := by
  rw [look_and_peek (exists_peekIs 1 k)]
  infer_instance

/-- A token whose class is known may be read like one that is expected. -/
theorem advance_past {q : Parser Bool} {k : TokenKind} {p : Token → Parser α} {p' : Parser α}
    (hq : ∀ {scope ts rest}, q scope ts = .ok (true, rest) →
      rest = ts ∧ (head scope ts.tail).kind = k) :
    (q >>= fun b => if b = true then advance >>= fun t => advance >>= fun _ => p t else p') =
      q >>= fun b => if b = true then advance >>= fun t => expect k >>= fun _ => p t else p' := by
  funext scope ts
  show (q scope ts >>= _) = q scope ts >>= _
  cases h : q scope ts with
  | error e => rfl
  | ok out =>
    obtain ⟨b, rest⟩ := out
    cases b with
    | false => rfl
    | true =>
      obtain ⟨rfl, hk⟩ := hq h
      show (advance >>= fun t => advance >>= fun _ => p t) scope rest =
        (advance >>= fun t => expect k >>= fun _ => p t) scope rest
      rw [bind_eq_ok (advance_apply _ _), bind_eq_ok (advance_apply _ _),
        bind_eq_ok (advance_apply _ _), bind_eq_ok (expect_eq_ok_iff.2 ⟨hk, rfl, rfl⟩)]

theorem kind_of_peekIs {k : TokenKind} {scope : Scope} {ts rest : List Token}
    (h : peekIs 1 k scope ts = .ok (true, rest)) : rest = ts ∧ (head scope ts.tail).kind = k := by
  obtain ⟨t, mid, ht, hk⟩ := bind_eq_ok_iff.1 h
  rw [peek_one_apply] at ht
  cases ht
  injection hk with hk
  injection hk with hk hrest
  exact ⟨hrest.symm, beq_iff_eq.1 hk⟩

instance (priority := high) {q : Parser Bool} {p p' : Parser (Option α)} [hq : Looks q]
    [hp : Tries g true p] [hp' : Tries g plain p'] :
    Tries g plain (q >>= fun b => if b = true then p else p') :=
  ⟨fun r => .look (hp.agree r) (hp'.agree r)⟩

/-! ## Places -/

/-- The place of a token is the token's place in either file. -/
theorem Agree.here {q q' : Location → Parser α}
    (h : ∀ l l', Agree r g plain (q l) (q' l') id fun _ => e) :
    Agree r g plain (Parser.here >>= q) (Parser.here >>= q') id fun _ => e := by
  intro s a a' v b hs hc ha hv
  rw [bind_eq_ok (here_apply _ _)] at hv ⊢
  exact h _ _ hs hc ha hv

/-- A place that is only used in messages does not matter. -/
instance Reads.here {q : Location → Parser α} [hq : ∀ l, Reads g plain (q l) e]
    [hl : ∀ l l', Alike (q l) (q l')] : Reads g plain (Parser.here >>= q) e :=
  ⟨fun r => .here fun l _ => ((hq l).agree r).trans_alike (hl l _)⟩

/-! ## Reading a token -/

instance {p : Parser α} : Blind fun _ => p := ⟨fun _ _ => .rfl⟩

instance {q : Token → Parser α} [h : ∀ t t', Alike (q t) (q t')] : Blind q := ⟨fun _ _ => h _ _⟩

theorem Blind.pure_text (f : String → α) : Blind fun t => (pure (f t.text) : Parser α) where
  alike _ hx := by
    rw [hx]
    exact .rfl

instance : Blind fun t => (pure t.text : Parser String) := .pure_text id

instance : Blind fun t => (pure (some t.text) : Parser (Option String)) := .pure_text some

/-- What is read behind a token that is no mark of layout is read in its line. -/
theorem agree_behind {q : Token → Parser α} [hq : ∀ t, Reads g false (q t) e] [hb : Blind q]
    {s : Position} {t t' : Token} {a a' c : List Token} {v : α} (hs : Entry r g plain s (t :: a))
    (hc : s.ClosedBy (t :: a)) (ht : t.kind.endsStatement = false) (hsame : r.Same t t')
    (ha : List.Forall₂ r.Same a a') (h : q t r.first (a ++ r.behind) = .ok (v, c)) :
    ∃ s' b b', c = b ++ r.behind ∧ e.Leads s (t :: a) s' b ∧ s'.ClosedBy b ∧
      List.Forall₂ r.Same b b' ∧ q t' r.second (a' ++ r.next) = .ok (v, b' ++ r.next) := by
  have hc := hc.of_plain ht
  obtain ⟨s', b, b', rfl, hl, hc', hb', hv⟩ := (hq t).agree r (hs.after_plain hc) hc ha h
  exact ⟨s', b, b', rfl, (Effect.Leads.plain ht).trans hl, hc', hb',
    (hb.alike hsame.kind hsame.text).run hv⟩

instance (priority := high) {k : TokenKind} [hk : k.Plain] {q : Token → Parser α}
    [hq : ∀ t, Reads g false (q t) e] [hb : Blind q] :
    Reads g plain (expect k >>= q) e where
  agree r s a a' v c hs hc ha h := by
    obtain ⟨t, _, ht, hv⟩ := bind_eq_ok_iff.1 h
    obtain ⟨t', b, b', rfl, rfl, rfl, rfl, hsame, hb, ht'⟩ := expect_agree hs.inside ha ht
    obtain ⟨s', d, d', rfl, hl, hc', hd, hv'⟩ :=
      agree_behind (e := e) hs hc hk.endsStatement hsame hb hv
    exact ⟨s', d, d', rfl, hl, hc', hd, bind_eq_ok_iff.2 ⟨_, _, ht', hv'⟩⟩

instance (priority := high) {k : Keyword} {q : Token → Parser α}
    [hq : ∀ t, Reads g false (q t) e] [hb : Blind q] :
    Reads g plain (expectKeyword k >>= q) e :=
  inferInstanceAs (Reads g plain (expect _ >>= q) e)

theorem Agree.expect {k : TokenKind} [hk : k.Plain] {p : Parser α} {p' : Parser β} {f : α → β}
    {e : α → Effect} (h : Agree r g false p p' f e) :
    Agree r g plain (Parser.expect k >>= fun _ => p) (Parser.expect k >>= fun _ => p') f e := by
  intro s a a' v c hs hc ha h₁
  obtain ⟨t, _, ht, hv⟩ := bind_eq_ok_iff.1 h₁
  obtain ⟨t', b, b', rfl, rfl, rfl, rfl, -, hb, ht'⟩ := expect_agree hs.inside ha ht
  have hc := hc.of_plain hk.endsStatement
  obtain ⟨s', d, d', rfl, hl, hc', hd, hv'⟩ := h (hs.after_plain hc) hc hb hv
  exact ⟨s', d, d', rfl, (Effect.Leads.plain hk.endsStatement).trans hl, hc', hd,
    bind_eq_ok_iff.2 ⟨_, _, ht', hv'⟩⟩

theorem Agree.advance {p : Parser α} {p' : Parser β} {f : α → β} {e : α → Effect}
    (h : Agree r g false p p' f e) :
    Agree r g true (Parser.advance >>= fun _ => p) (Parser.advance >>= fun _ => p') f e := by
  intro s a a' v b hs hc ha hv
  obtain ⟨t, a, rfl, ht⟩ := hs.plain rfl
  obtain ⟨t', a', -, hrest, rfl⟩ := List.forall₂_cons_left_iff.1 ha
  rw [bind_eq_ok (advance_apply _ _)] at hv ⊢
  have hc := hc.of_plain ht
  obtain ⟨s', b, b', rfl, hl, hc', hb, hv'⟩ := h (hs.after_plain hc) hc hrest hv
  exact ⟨s', b, b', rfl, (Effect.Leads.plain ht).trans hl, hc', hb, hv'⟩

instance (priority := high) {q : Token → Parser α} [hq : ∀ t, Reads g false (q t) e]
    [hb : Blind q] : Reads g true (advance >>= q) e where
  agree r s a a' v c hs hc ha h := by
    obtain ⟨t, a, rfl, ht⟩ := hs.plain rfl
    obtain ⟨t', a', hsame, hrest, rfl⟩ := List.forall₂_cons_left_iff.1 ha
    rw [bind_eq_ok (advance_apply _ _)] at h
    obtain ⟨s', b, b', rfl, hl, hc', hb, hv'⟩ := agree_behind (e := e) hs hc ht hsame hrest h
    refine ⟨s', b, b', rfl, hl, hc', hb, ?_⟩
    rw [bind_eq_ok (advance_apply _ _)]
    exact hv'

/-- A mark of layout may be read if it is refused. -/
theorem Reads.advance {q : Token → Parser α} [∀ t, Reads g false (q t) e] [Blind q]
    (hl : ∀ {t scope ts v rest}, t.kind.endsStatement = true → q t scope ts ≠ .ok (v, rest)) :
    Reads g plain (Parser.advance >>= q) e where
  agree r s a a' v c hs hc ha h := by
    obtain ⟨t, a, rfl⟩ := List.exists_cons_of_ne_nil hs.inside
    have ht : t.kind.endsStatement = false := by
      by_contra ht
      rw [bind_eq_ok (advance_apply _ _)] at h
      exact hl (Bool.not_eq_false _ ▸ ht) h
    have hq : Reads g true (Parser.advance >>= q) e := inferInstance
    exact hq.agree r ⟨hs.inside, hs.ground, fun _ => ⟨t, a, rfl, ht⟩⟩ hc ha h

/-- A token that is looked at is used for its class and text only. -/
instance {q : Token → Parser α} [hq : ∀ t, Reads g plain (q t) e] [hb : Blind q] :
    Reads g plain (current >>= q) e where
  agree r s a a' v c hs hc ha h := by
    obtain ⟨t, a, rfl⟩ := List.exists_cons_of_ne_nil hs.inside
    obtain ⟨t', a', ht, hrest, rfl⟩ := List.forall₂_cons_left_iff.1 ha
    rw [bind_eq_ok (current_apply _ _)] at h ⊢
    obtain ⟨s', b, b', rfl, hl, hc', hb', hv⟩ := (hq t).agree r hs hc ha h
    exact ⟨s', b, b', rfl, hl, hc', hb', (hb.alike ht.kind ht.text).run hv⟩

/-- A token that is looked at is used for its class and text only. If it is no mark of layout, it
may be read. -/
theorem Reads.current {q : Token → Parser α} (hp : ∀ t : Token, t.kind.endsStatement = false →
      Reads g true (q t) e)
    (hl : ∀ t : Token, t.kind.endsStatement = true → t.text = "" → Reads g plain (q t) e)
    (hb : ∀ {t t' : Token}, t'.kind = t.kind → t'.text = t.text → Alike (q t) (q t')) :
    Reads g plain (current >>= q) e where
  agree r s a a' v c hs hc ha h := by
    obtain ⟨t, a, rfl⟩ := List.exists_cons_of_ne_nil hs.inside
    obtain ⟨t', a', ht, hrest, rfl⟩ := List.forall₂_cons_left_iff.1 ha
    rw [bind_eq_ok (current_apply _ _)] at h ⊢
    have hq : ∃ plain', Reads g plain' (q t) e ∧ Entry r g plain' s (t :: a) := by
      by_cases hk : t.kind.endsStatement = true
      · exact ⟨plain, hl t hk (hc.text_of_endsStatement hk), hs⟩
      · have hk := Bool.eq_false_iff.2 hk
        exact ⟨true, hp t hk, hs.inside, hs.ground, fun _ => ⟨t, a, rfl, hk⟩⟩
    obtain ⟨plain', hq, hs⟩ := hq
    obtain ⟨s', b, b', rfl, hl, hc', hb', hv⟩ := hq.agree r hs hc ha h
    exact ⟨s', b, b', rfl, hl, hc', hb', (hb ht.kind ht.text).run hv⟩

theorem keyword?_congr {t t' : Token} (hk : t'.kind = t.kind) : t'.keyword? = t.keyword? := by
  unfold Token.keyword?
  rw [hk]

theorem keyword?_of_endsStatement {t : Token} (h : t.kind.endsStatement = true) :
    t.keyword? = none := by
  unfold Token.keyword?
  split
  · next hk => rw [hk] at h; cases h
  · rfl

/-- Where a keyword comes next, it may be read. -/
theorem Reads.keyword {q : Option Keyword → Parser α} (hs : ∀ k, Reads g true (q (some k)) e)
    (hn : Reads g false (q none) e) : Reads g plain (keyword? >>= q) e := by
  have hq : keyword? >>= q = Parser.current >>= fun t => q t.keyword? := by
    unfold keyword?
    rw [bind_assoc]
    rfl
  rw [hq]
  refine .current (fun t ht => ?_) (fun t ht _ => ?_) fun hk _ => ?_
  · cases h : t.keyword? with
    | some k => exact hs k
    | none => exact hn.weaken
  · rw [keyword?_of_endsStatement ht]
    exact hn.weaken
  · rw [keyword?_congr hk]
    exact .rfl

end Parser

end Blueprint
