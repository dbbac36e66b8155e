import Blueprint.Proofs.Layout
import Blueprint.Proofs.Running

/-!
# Two readings of the same tokens

A `Rereading` compares two files in which the same tokens stand in front of others. The tokens are
the same up to their places (`Rereading.Same`). A parser agrees with another one (`Agree`) if, where
there is something to read, its success in the first file is matched by a success of the other one
in the second file, on the same tokens: it does not read into what stands behind them. Where it
leads is an `Effect`: either it stays in its line, or it reads one statement.

Agreement is kept by sequences (`Agree.bind`), by loops (`Agree.iterate`) and by
recursion (`Agree.nested`).
-/

namespace Blueprint

/-- Two files, in which different tokens stand behind the same ones. -/
structure Rereading where
  first : Scope
  second : Scope
  /-- The tokens behind the others in the first file. -/
  behind : List Token
  /-- The tokens behind the others in the second file. -/
  next : List Token
  /-- Where a place of the first file is in the second. -/
  place : Location → Location
  first_final : first.final.kind = .endOfFile
  second_final : second.final.kind = .endOfFile

/-- The tokens are the same. Marks of layout may stand elsewhere. -/
structure Rereading.Same (r : Rereading) (t t' : Token) : Prop where
  kind : t'.kind = t.kind
  text : t'.text = t.text
  place : t.kind.endsStatement = false → r.place (r.first.locate t) = r.second.locate t'

/-- A file, compared with itself. -/
def Rereading.self (scope : Scope) (behind : List Token) (h : scope.final.kind = .endOfFile) :
    Rereading :=
  ⟨scope, scope, behind, behind, id, h, h⟩

theorem Rereading.forall₂_self (scope : Scope) (behind : List Token)
    (h : scope.final.kind = .endOfFile) (ts : List Token) :
    List.Forall₂ (self scope behind h).Same ts ts :=
  List.forall₂_same.2 fun _ _ => ⟨rfl, rfl, fun _ => rfl⟩

theorem Rereading.length_lt_iff (r : Rereading) {a a' b b' : List Token}
    (ha : List.Forall₂ r.Same a a') (hb : List.Forall₂ r.Same b b') :
    (b' ++ r.next).length < (a' ++ r.next).length ↔
      (b ++ r.behind).length < (a ++ r.behind).length := by
  simp only [List.length_append, ← ha.length_eq, ← hb.length_eq]
  omega

/-! ## Effects -/

/-- Where a parser leads to. -/
inductive Effect where
  /-- It stays in its line, of which it may have read a part. -/
  | stays
  /-- It reads one statement. -/
  | ends

/-- The tokens `b` stand behind the statement at the front of `a`, or behind its line only. -/
def EndsStatement (a b : List Token) : Prop := b = lineBehind a ∨ b = skipStatement a

/-- The effect leads from one position to the other, and over the tokens between them. -/
def Effect.Leads : Effect → Position → List Token → Position → List Token → Prop
  | stays, s, a, s', b => (s' = s ∧ b = a) ∨
    (s' = ⟨s.depth, true⟩ ∧ ∃ read, a = read ++ b ∧ ∀ t ∈ read, t.kind.endsStatement = false)
  | ends, s, a, s', b => s' = ⟨s.depth, false⟩ ∧ EndsStatement a b

namespace Effect.Leads

variable {e : Effect} {s s' s'' : Position} {a b c : List Token} {t : Token}

theorem refl : stays.Leads s a s a := .inl ⟨rfl, rfl⟩

theorem plain (ht : t.kind.endsStatement = false) : stays.Leads s (t :: a) ⟨s.depth, true⟩ a :=
  .inr ⟨rfl, [t], rfl, fun u hu => by rwa [List.eq_of_mem_singleton hu]⟩

theorem trans (h : stays.Leads s a s' b) (h' : e.Leads s' b s'' c) : e.Leads s a s'' c := by
  rcases h with ⟨rfl, rfl⟩ | ⟨rfl, read, rfl, hread⟩
  · exact h'
  cases e with
  | stays =>
    rcases h' with ⟨rfl, rfl⟩ | ⟨rfl, more, rfl, hmore⟩
    · exact .inr ⟨rfl, read, rfl, hread⟩
    · refine .inr ⟨rfl, read ++ more, (List.append_assoc ..).symm, fun t ht => ?_⟩
      rcases List.mem_append.1 ht with ht | ht
      · exact hread t ht
      · exact hmore t ht
  | ends =>
    obtain ⟨rfl, h'⟩ := h'
    refine ⟨rfl, ?_⟩
    unfold EndsStatement
    rw [lineBehind_append hread, skipStatement_append hread]
    exact h'

theorem depth_eq (h : stays.Leads s a s' b) : s'.depth = s.depth := by
  rcases h with ⟨rfl, -⟩ | ⟨rfl, -⟩ <;> rfl

end Effect.Leads

theorem EndsStatement.suffix {a b : List Token} (h : EndsStatement a b) : b <:+ a := by
  rcases h with rfl | rfl
  · exact (skipLineEnd_suffix _).trans (List.dropWhile_suffix _)
  · exact skipStatement_suffix a

/-- A statement in front makes no difference to where the block around it ends. -/
theorem EndsStatement.skipBlock_eq {a b : List Token} (h : EndsStatement a b) {n : Nat}
    (hn : 0 < n) : skipBlock n b = skipBlock n a := by
  rcases h with rfl | rfl
  · exact skipBlock_lineBehind n a
  · exact skipBlock_skipStatement hn a

theorem EndsStatement.length_lt {t : Token} {a b : List Token} (h : EndsStatement (t :: a) b)
    (ht : t.kind.endsStatement = false) : b.length < (t :: a).length := by
  rcases h with rfl | rfl
  · exact length_lineBehind_lt ht a
  · rw [skipStatement_eq]
    exact Nat.lt_of_le_of_lt (length_skipUnder_le _) (length_lineBehind_lt ht a)

/-! ## Positions -/

/-- What is known of the place at which a parser starts. -/
inductive Ground where
  | any
  /-- No block is opened behind the end of what is read: a block is open that has to end first, or
  the tokens behind open none. -/
  | level
  /-- A block is open. -/
  | block

def Ground.Holds (r : Rereading) (s : Position) : Ground → Prop
  | any => True
  | level => 0 < s.depth ∨ NoIndent r.behind ∧ NoIndent r.next
  | block => 0 < s.depth

/-- The ground is level. -/
class Ground.Level (g : Ground) : Prop where
  holds : ∀ {r : Rereading} {s : Position}, g.Holds r s → Ground.level.Holds r s

instance : Ground.level.Level := ⟨id⟩
instance : Ground.block.Level := ⟨.inl⟩

/-- A place at which a parser may start: there is something to read. If `plain`, no mark of layout
comes next. -/
structure Entry (r : Rereading) (g : Ground) (plain : Bool) (s : Position) (ts : List Token) :
    Prop where
  inside : ts ≠ []
  ground : g.Holds r s
  plain : plain = true → ∃ t rest, ts = t :: rest ∧ t.kind.endsStatement = false

section

variable {r : Rereading} {g : Ground} {plain : Bool} {s s' : Position} {ts us : List Token}

theorem Entry.weaken (h : Entry r g plain s ts) : Entry r g false s ts :=
  ⟨h.inside, h.ground, fun e => Bool.noConfusion e⟩

theorem Entry.any (h : ts ≠ []) : Entry r .any false s ts :=
  ⟨h, trivial, fun e => Bool.noConfusion e⟩

theorem Entry.any_plain {t : Token} (ht : t.kind.endsStatement = false) :
    Entry r .any true s (t :: ts) :=
  ⟨List.cons_ne_nil t ts, trivial, fun _ => ⟨t, ts, rfl, ht⟩⟩

theorem Position.ClosedBy.ne_nil {depth : Nat} (h : (⟨depth, true⟩ : Position).ClosedBy ts) :
    ts ≠ [] := by
  obtain ⟨t, rest, rfl⟩ := h.exists_cons inLine_ne_outside
  exact List.cons_ne_nil t rest

theorem Ground.Holds.of_depth_eq (h : g.Holds r s) (hd : s'.depth = s.depth) : g.Holds r s' := by
  cases g with
  | any => trivial
  | level => exact h.imp_left (hd ▸ ·)
  | block =>
    show 0 < s'.depth
    rw [hd]
    exact h

/-- Behind a part of a line there is its rest. -/
theorem Entry.after (h : Entry r g plain s ts) (hl : Effect.stays.Leads s ts s' us)
    (hc : s'.ClosedBy us) : Entry r g false s' us := by
  refine ⟨?_, h.ground.of_depth_eq hl.depth_eq, fun e => Bool.noConfusion e⟩
  rcases hl with ⟨rfl, rfl⟩ | ⟨rfl, -⟩
  · exact h.inside
  · exact hc.ne_nil

/-- Behind a token that is no mark of layout there is the rest of its line. -/
theorem Entry.after_plain (h : Entry r g plain s ts)
    (hc : (⟨s.depth, true⟩ : Position).ClosedBy us) : Entry r g false ⟨s.depth, true⟩ us :=
  ⟨hc.ne_nil, h.ground.of_depth_eq rfl, fun e => Bool.noConfusion e⟩

end

namespace Parser

variable {r : Rereading} {g : Ground} {plain : Bool} {α β γ δ σ σ' : Type} {f : α → β}
  {e : α → Effect}

/-- A success of the first parser on tokens of the first file is matched by one of the second
parser on the same tokens in the second file. Its effect may depend on what it returns. -/
def Agree (r : Rereading) (g : Ground) (plain : Bool) (p : Parser α) (p' : Parser β) (f : α → β)
    (e : α → Effect) : Prop :=
  ∀ ⦃s a a' v c⦄, Entry r g plain s a → s.ClosedBy a → List.Forall₂ r.Same a a' →
    p r.first (a ++ r.behind) = .ok (v, c) → ∃ s' b b', c = b ++ r.behind ∧ (e v).Leads s a s' b ∧
      s'.ClosedBy b ∧ List.Forall₂ r.Same b b' ∧
      p' r.second (a' ++ r.next) = .ok (f v, b' ++ r.next)

namespace Agree

/-! ## Sequences -/

theorem of_never {p : Parser α} {p' : Parser β}
    (h : ∀ {scope ts v rest}, p scope ts ≠ .ok (v, rest)) :
    Agree r g plain p p' f e :=
  fun _ _ _ _ _ _ _ _ hp => absurd hp h

/-- What is read behind a parser starts where that one leads. -/
theorem bind {p : Parser α} {p' : Parser β} {q : α → Parser γ} {q' : β → Parser δ}
    {h : γ → δ} {e' : γ → Effect} (hp : Agree r g plain p p' f fun _ => .stays)
    (hq : ∀ v, Agree r g false (q v) (q' (f v)) h e') :
    Agree r g plain (p >>= q) (p' >>= q') h e' := by
  intro s a a' w d hs hc ha hrun
  obtain ⟨v, _, hv, hw⟩ := bind_eq_ok_iff.1 hrun
  obtain ⟨s', b, b', rfl, hl, hc', hb, hv'⟩ := hp hs hc ha hv
  obtain ⟨s'', c, c', rfl, hl', hc'', hcc, hw'⟩ := hq v (hs.after hl hc') hc' hb hw
  exact ⟨s'', c, c', rfl, hl.trans hl', hc'', hcc, bind_eq_ok_iff.2 ⟨_, _, hv', hw'⟩⟩

/-- What is alike agrees with the same parsers. -/
theorem trans_alike {p : Parser α} {p' p'' : Parser β} (h : Agree r g plain p p' f e)
    (ha : Alike p' p'') : Agree r g plain p p'' f e := by
  intro s a a' v c hs hc hsame hv
  obtain ⟨s', b, b', rfl, hl, hc', hb, hv'⟩ := h hs hc hsame hv
  exact ⟨s', b, b', rfl, hl, hc', hb, ha.run hv'⟩

theorem ite {c : Prop} [Decidable c] {p q : Parser α} {p' q' : Parser β}
    (hp : Agree r g plain p p' f e) (hq : Agree r g plain q q' f e) :
    Agree r g plain (if c then p else q) (if c then p' else q') f e := by
  split
  · exact hp
  · exact hq

/-- An entry that promises more than is needed. -/
theorem weaken {p : Parser α} {p' : Parser β} (h : Agree r g false p p' f e) :
    Agree r g plain p p' f e :=
  fun _ _ _ _ _ hs => h hs.weaken

/-- What is agreed on wherever the ground is level is agreed on inside of blocks. -/
theorem onLevel [hg : g.Level] {p : Parser α} {p' : Parser β} (h : Agree r .level plain p p' f e) :
    Agree r g plain p p' f e :=
  fun _ _ _ _ _ hs => h ⟨hs.inside, hg.holds hs.ground, hs.plain⟩

/-! ## Loops -/

/-- A loop agrees if its steps do. The induction is on the number of tokens left. -/
theorem iterate {step : σ → Parser (Option σ)} {step' : σ' → Parser (Option σ')} {f : σ → σ'}
    (hstep : ∀ s, Agree r g false (step s) (step' (f s)) (Option.map f) fun _ => .stays)
    (s : σ) : Agree r g plain (iterate step s) (iterate step' (f s)) f fun _ => .stays := by
  suffices ∀ n s, ∀ {q a a' v c}, a.length = n → Entry r g false q a → q.ClosedBy a →
      List.Forall₂ r.Same a a' → iterateOn step r.first s (a ++ r.behind) = .ok (v, c) →
      ∃ q' b b', c = b ++ r.behind ∧ Effect.stays.Leads q a q' b ∧ q'.ClosedBy b ∧
        List.Forall₂ r.Same b b' ∧
        iterateOn step' r.second (f s) (a' ++ r.next) = .ok (f v, b' ++ r.next) by
    intro q a a' v b hq
    exact this a.length s rfl hq.weaken
  intro n
  induction n using Nat.strongRecOn with
  | ind n ih =>
    intro s q a a' v c hn hq hc ha h
    obtain ⟨next, _, hs⟩ := exists_step_of_iterateOn h
    obtain ⟨q', b, b', rfl, hl, hc', hb, hs'⟩ := hstep s hq hc ha hs
    cases next with
    | none =>
      rw [iterateOn_of_none hs] at h
      rw [iterateOn_of_none hs']
      cases h
      exact ⟨q', b, b', rfl, hl, hc', hb, rfl⟩
    | some next =>
      have hshort := r.length_lt_iff ha hb
      rw [iterateOn_of_some hs] at h
      rw [iterateOn_of_some hs']
      by_cases hlt : (b ++ r.behind).length < (a ++ r.behind).length
      · rw [if_pos hlt] at h
        rw [if_pos (hshort.2 hlt)]
        have hn' : b.length < n := by
          rw [List.length_append, List.length_append] at hlt
          omega
        obtain ⟨q'', d, d', rfl, hl', hc'', hd, h'⟩ :=
          ih b.length hn' next rfl (hq.after hl hc') hc' hb h
        exact ⟨q'', d, d', rfl, hl.trans hl', hc'', hd, h'⟩
      · rw [if_neg hlt] at h
        rw [if_neg fun hlt' => hlt (hshort.1 hlt')]
        cases h
        exact ⟨q', b, b', rfl, hl, hc', hb, rfl⟩

/-! ## Recursion -/

/-- A recursion agrees if its body does, whatever parsers stand for the recursion, as long as those
agree. The induction is on the number of tokens left. -/
theorem nested {body : Parser α → Parser α} {body' : Parser β → Parser β}
    (hbody : ∀ {p p'}, Agree r g false p p' f e → Agree r g false (body p) (body' p') f e) :
    Agree r g false (nested body) (nested body') f e := by
  suffices ∀ n, ∀ {q a a' v c}, a.length = n → Entry r g false q a → q.ClosedBy a →
      List.Forall₂ r.Same a a' → nestedOn body r.first (a ++ r.behind) = .ok (v, c) →
      ∃ q' b b', c = b ++ r.behind ∧ (e v).Leads q a q' b ∧ q'.ClosedBy b ∧
        List.Forall₂ r.Same b b' ∧
        nestedOn body' r.second (a' ++ r.next) = .ok (f v, b' ++ r.next) by
    intro q a a' v b hq
    exact this _ rfl hq
  intro n
  induction n using Nat.strongRecOn with
  | ind n ih =>
    intro q a a' v c hn hq hc ha h
    unfold nestedOn at h ⊢
    refine hbody (fun {q' b b' w d} hq' hc' hb hw => ?_) hq hc ha h
    have hshort := r.length_lt_iff ha hb
    by_cases hlt : (b ++ r.behind).length < (a ++ r.behind).length
    · rw [if_pos hlt] at hw
      rw [if_pos (hshort.2 hlt)]
      have hn' : b.length < n := by
        rw [List.length_append, List.length_append] at hlt
        omega
      exact ih b.length hn' rfl hq' hc' hb hw
    · rw [if_neg hlt] at hw
      exact absurd hw unexpected_ne_ok

end Agree

end Parser

end Blueprint
