import Blueprint.Proofs.Grammar.Declarations
import Mathlib.Data.List.TakeWhile

/-!
# Two readings of a file

A file is read statement by statement, outside of every block. Each statement starts at a keyword
and reads up to its own end (`keywordStatement_ends`), so that the statements of a file are read the
same whatever stands behind them (`fileStatements_agree`).
-/

namespace Blueprint.Parser

/-! ## Drafts -/

namespace FileDraft

/-- What two files declare, the second with its places in the first. -/
def after (d : FileDraft) (place : Location → Location) (v : FileDraft) : FileDraft where
  uses := d.uses ++ v.uses
  aliases := d.aliases ++ v.aliases
  app := d.app.or (v.app.map (Placed.relocate place))
  named := d.named ++ v.named.map (Declaration.relocate place)
  llmConfig := d.llmConfig.or (v.llmConfig.map (Placed.relocate place))
  policies := d.policies.or (v.policies.map (Placed.relocate place))
  tenancy := d.tenancy.or (v.tenancy.map (Placed.relocate place))
  started := d.started || v.started

theorem after_empty (d : FileDraft) : after {} id d = d := by
  have hnamed : d.named.map (Declaration.relocate id) = d.named := by
    have hid : Declaration.relocate id = id := by
      funext d
      unfold Declaration.relocate
      rw [Placed.relocate_id]
      rfl
    rw [hid, List.map_id]
  unfold after
  rw [hnamed]
  simp only [Placed.relocate_id, Option.map_id, id, List.nil_append, Option.none_or, Bool.false_or]

/-- A later draft has all that an earlier one has, and more aliases only with more uses. -/
structure Grows (d v : FileDraft) : Prop where
  uses : v.uses = [] → d.uses = [] ∧ v.aliases = d.aliases
  app : v.app = none → d.app = none
  llmConfig : v.llmConfig = none → d.llmConfig = none
  policies : v.policies = none → d.policies = none
  tenancy : v.tenancy = none → d.tenancy = none

theorem Grows.refl (d : FileDraft) : d.Grows d := ⟨fun h => ⟨h, rfl⟩, id, id, id, id⟩

theorem Grows.trans {d v w : FileDraft} (h : d.Grows v) (h' : v.Grows w) : d.Grows w where
  uses hw := ⟨(h.uses (h'.uses hw).1).1, (h'.uses hw).2.trans (h.uses (h'.uses hw).1).2⟩
  app hw := h.app (h'.app hw)
  llmConfig hw := h.llmConfig (h'.llmConfig hw)
  policies hw := h.policies (h'.policies hw)
  tenancy hw := h.tenancy (h'.tenancy hw)

/-- What may be declared once is declared by one of the two only. -/
structure Apart (d v : FileDraft) : Prop where
  app : d.app = none ∨ v.app = none
  llmConfig : d.llmConfig = none ∨ v.llmConfig = none
  policies : d.policies = none ∨ v.policies = none
  tenancy : d.tenancy = none ∨ v.tenancy = none

theorem Apart.of_grows {d v w : FileDraft} (h : d.Apart w) (hg : v.Grows w) : d.Apart v where
  app := h.app.imp_right hg.app
  llmConfig := h.llmConfig.imp_right hg.llmConfig
  policies := h.policies.imp_right hg.policies
  tenancy := h.tenancy.imp_right hg.tenancy

end FileDraft

/-! ## Constructs -/

/-- What a keyword may open: nothing, one declaration, declarations, or what is declared once. -/
inductive Construct (k : Keyword) : Prop where
  | none (h : ∀ d, construct? d k = none)
  | one (kind : DeclKind) (p : Parser kind.Body) (hp : Declares p)
    (h : ∀ d, construct? d k = some (d.declare kind <$> p))
  | all (kind : DeclKind) (p : Parser (List kind.Body)) (hp : DeclaresAll p)
    (h : ∀ d, construct? d k = some (d.declareAll kind <$> p))
  | llmConfig (h : k = .llmConfig)
  | policies (h : k = .policies)
  | tenancy (h : k = .tenancy)

theorem construct (k : Keyword) : Construct k := by
  by_cases hk : k ∈ Keyword.constructs
  · simp only [Keyword.constructs, List.mem_cons, List.not_mem_nil, or_false] at hk
    rcases hk with rfl | rfl | rfl | rfl | rfl | rfl | rfl | rfl | rfl | rfl | rfl | rfl | rfl |
      rfl | rfl | rfl | rfl | rfl | rfl | rfl | rfl | rfl | rfl | rfl | rfl | rfl | rfl | rfl |
      rfl | rfl
    · exact .one .entity entity (inferInstance : Declares entity) fun _ => rfl
    · exact .one .archetype archetype (inferInstance : Declares archetype) fun _ => rfl
    · exact .one .enum enumDecl (inferInstance : Declares enumDecl) fun _ => rfl
    · exact .one .surface surface (inferInstance : Declares surface) fun _ => rfl
    · exact .one .workspace workspace (inferInstance : Declares workspace) fun _ => rfl
    · exact .one .experience experience (inferInstance : Declares experience) fun _ => rfl
    · exact .one .service service (inferInstance : Declares service) fun _ => rfl
    · exact .one .foreignModel foreignModel (inferInstance : Declares foreignModel) fun _ => rfl
    · exact .one .integration integration (inferInstance : Declares integration) fun _ => rfl
    · exact .one .test testCase (inferInstance : Declares testCase) fun _ => rfl
    · exact .one .flow flow (inferInstance : Declares flow) fun _ => rfl
    · exact .one .persona persona (inferInstance : Declares persona) fun _ => rfl
    · exact .one .scenario scenario (inferInstance : Declares scenario) fun _ => rfl
    · exact .one .story story (inferInstance : Declares story) fun _ => rfl
    · exact .one .llmModel llmModel (inferInstance : Declares llmModel) fun _ => rfl
    · exact .llmConfig rfl
    · exact .one .llmIntent llmIntent (inferInstance : Declares llmIntent) fun _ => rfl
    · exact .one .ledger ledger (inferInstance : Declares ledger) fun _ => rfl
    · exact .one .transaction transaction (inferInstance : Declares transaction) fun _ => rfl
    · exact .one .process process (inferInstance : Declares process) fun _ => rfl
    · exact .one .schedule schedule (inferInstance : Declares schedule) fun _ => rfl
    · exact .one .stream stream (inferInstance : Declares stream) fun _ => rfl
    · exact .policies rfl
    · exact .tenancy rfl
    · exact .all .api interfaces (inferInstance : DeclaresAll interfaces) fun _ => rfl
    · exact .all .dataProduct dataProducts (inferInstance : DeclaresAll dataProducts) fun _ => rfl
    · exact .one .approval approval (inferInstance : Declares approval) fun _ => rfl
    · exact .one .sla sla (inferInstance : Declares sla) fun _ => rfl
    · exact .one .webhook webhook (inferInstance : Declares webhook) fun _ => rfl
    · exact .one .view view (inferInstance : Declares view) fun _ => rfl
  · refine .none fun d => ?_
    unfold construct?
    split <;> first | exact absurd (by decide) hk | rfl

/-! ## Declarations -/

variable {r : Rereading} {α β γ σ : Type}

theorem onlyOnce_eq_ok_iff {what : String} {first : Option Location} {p : Parser α} {scope : Scope}
    {ts rest : List Token} {v : α} :
    onlyOnce what first p scope ts = .ok (v, rest) ↔ first = none ∧ p scope ts = .ok (v, rest) := by
  cases first with
  | none => exact ⟨fun h => ⟨rfl, h⟩, fun h => h.2⟩
  | some l => exact iff_of_false fail_ne_ok fun h => Option.some_ne_none l h.1

theorem declarationStatement_of_construct? {d : FileDraft} {k : Keyword} {p : Parser FileDraft}
    (hk : k ≠ .app) (h : construct? d k = some p) :
    declarationStatement d k = p >>= fun c => pure { c with started := true } := by
  unfold declarationStatement
  rw [if_neg hk, h]

theorem declarationStatement_app (d : FileDraft) : declarationStatement d .app =
    onlyOnce "app" (d.app.map (·.location)) app >>= fun a =>
      pure { d with app := some a, started := true } :=
  rfl

theorem declarationStatement_llmConfig (d : FileDraft) : declarationStatement d .llmConfig =
    onlyOnce "llm_config" (d.llmConfig.map (·.location)) llmConfig >>= fun c =>
      pure { d with llmConfig := some c, started := true } := by
  rw [declarationStatement_of_construct? (by decide) (p := _) rfl, bind_assoc]
  rfl

theorem declarationStatement_policies (d : FileDraft) : declarationStatement d .policies =
    onlyOnce "policies" (d.policies.map (·.location)) policies >>= fun p =>
      pure { d with policies := some p, started := true } := by
  rw [declarationStatement_of_construct? (by decide) (p := _) rfl, bind_assoc]
  rfl

theorem declarationStatement_tenancy (d : FileDraft) : declarationStatement d .tenancy =
    onlyOnce "tenancy" (d.tenancy.map (·.location)) tenancy >>= fun t =>
      pure { d with tenancy := some t, started := true } := by
  rw [declarationStatement_of_construct? (by decide) (p := _) rfl, bind_assoc]
  rfl

theorem exists_of_bind_pure {p : Parser α} {g : α → β} {scope : Scope} {ts rest : List Token}
    {v : β}
    (h : (p >>= fun w => pure (g w)) scope ts = .ok (v, rest)) : ∃ w, v = g w := by
  obtain ⟨w, mid, -, hw⟩ := bind_eq_ok_iff.1 h
  cases hw
  exact ⟨w, rfl⟩

namespace FileDraft

variable (d₁ d : FileDraft) (place : Location → Location)

theorem after_start : d₁.after place { d with started := true } =
    { d₁.after place d with started := true } := by
  unfold after
  rw [Bool.or_true]

theorem after_declareAll (k : DeclKind) (bodies : List k.Body) :
    d₁.after place (d.declareAll k bodies) =
      (d₁.after place d).declareAll k (bodies.map (Placed.relocate place)) := by
  unfold after declareAll
  simp only [List.map_append, List.append_assoc, List.map_map]
  rfl

theorem after_declare (k : DeclKind) (body : k.Body) :
    d₁.after place (d.declare k body) =
      (d₁.after place d).declare k (Placed.relocate place body) :=
  after_declareAll d₁ d place k [body]

end FileDraft

/-- What is declared once is declared by one of the two files only. -/
theorem Agree.onlyOnce [Placed α] {p : Parser α} [hp : Declares p] {what : String}
    {loc : α → Location} {o o₁ : Option α} (h₁ : o₁ = none) :
    Agree r .level true (Parser.onlyOnce what (o.map loc) p)
      (Parser.onlyOnce what ((o₁.or (o.map (Placed.relocate r.place))).map loc) p)
      (Placed.relocate r.place) fun _ => .ends := by
  intro s a a' v b hs hc ha h
  obtain ⟨ho, h⟩ := onlyOnce_eq_ok_iff.1 h
  obtain rfl := Option.map_eq_none_iff.1 ho
  subst h₁
  exact hp.agree r hs hc ha h

/-- What is declared once is added to what the other file declares, if that one does not declare
it. -/
theorem declareOnce_agree [Placed α] {p : Parser α} [Declares p] {what : String}
    {loc : α → Location} {o o₁ : Option α} {set set' : α → FileDraft} {d₁ v : FileDraft}
    {ts rest : List Token} {g : FileDraft → Option α} (hg : ∀ w, g (set w) = some w)
    (hapart : o₁ = none ∨ g v = none)
    (hset : o₁ = none → ∀ w, set' (Placed.relocate r.place w) = d₁.after r.place (set w))
    (h : (onlyOnce what (o.map loc) p >>= fun w => pure (set w)) r.first ts = .ok (v, rest)) :
    Agree r .level true (onlyOnce what (o.map loc) p >>= fun w => pure (set w))
      (onlyOnce what ((o₁.or (o.map (Placed.relocate r.place))).map loc) p >>=
        fun w => pure (set' w))
      (d₁.after r.place) fun _ => .ends := by
  obtain ⟨w, rfl⟩ := exists_of_bind_pure h
  have hsome : g (set w) ≠ none := (hg w).symm ▸ Option.some_ne_none w
  have h₁ := hapart.resolve_right hsome
  exact .bind_pure (.onlyOnce h₁) (hset h₁)

/-- If the draft that it leads to is apart from another one, a declaration is read the same behind
that. -/
theorem declarationStatement_agree {d₁ d v : FileDraft} {k : Keyword} {ts rest : List Token}
    (hv : d₁.Apart v) (h : declarationStatement d k r.first ts = .ok (v, rest)) :
    Agree r .level true (declarationStatement d k) (declarationStatement (d₁.after r.place d) k)
      (d₁.after r.place) fun _ => .ends := by
  by_cases hk : k = .app
  · subst hk
    rw [declarationStatement_app] at h ⊢
    rw [declarationStatement_app]
    exact declareOnce_agree (fun _ => rfl) hv.app (fun h₁ _ => by simp [FileDraft.after, h₁]) h
  cases construct k with
  | none hnone =>
    unfold declarationStatement at h
    rw [if_neg hk, hnone d] at h
    exact absurd h unexpected_ne_ok
  | one kind p hp hsome =>
    rw [declarationStatement_of_construct? hk (hsome d),
      declarationStatement_of_construct? hk (hsome _), map_eq_bind, map_eq_bind]
    refine .bind_pure (f := d₁.after r.place) (.bind_pure (hp.agree r) fun body => ?_) fun c => ?_
    · rw [FileDraft.after_declare]
    · rw [FileDraft.after_start]
  | all kind p hp hsome =>
    rw [declarationStatement_of_construct? hk (hsome d),
      declarationStatement_of_construct? hk (hsome _), map_eq_bind, map_eq_bind]
    refine .bind_pure (f := d₁.after r.place) (.bind_pure (hp.agree r) fun bodies => ?_) fun c => ?_
    · rw [FileDraft.after_declareAll]
    · rw [FileDraft.after_start]
  | llmConfig hkind =>
    subst hkind
    rw [declarationStatement_llmConfig] at h ⊢
    rw [declarationStatement_llmConfig]
    exact declareOnce_agree (fun _ => rfl) hv.llmConfig
      (fun h₁ _ => by simp [FileDraft.after, h₁]) h
  | policies hkind =>
    subst hkind
    rw [declarationStatement_policies] at h ⊢
    rw [declarationStatement_policies]
    exact declareOnce_agree (fun _ => rfl) hv.policies (fun h₁ _ => by simp [FileDraft.after, h₁]) h
  | tenancy hkind =>
    subst hkind
    rw [declarationStatement_tenancy] at h ⊢
    rw [declarationStatement_tenancy]
    exact declareOnce_agree (fun _ => rfl) hv.tenancy (fun h₁ _ => by simp [FileDraft.after, h₁]) h

/-- A declaration only adds to what is declared. -/
theorem declarationStatement_grows {d v : FileDraft} {k : Keyword} {scope : Scope}
    {ts rest : List Token} (h : declarationStatement d k scope ts = .ok (v, rest)) :
    d.Grows v := by
  have hgrows {β : Type} {p : Parser β} {g : β → FileDraft}
      (h : (p >>= fun w => pure (g w)) scope ts = .ok (v, rest)) (hg : ∀ w, d.Grows (g w)) :
      d.Grows v := by
    obtain ⟨w, rfl⟩ := exists_of_bind_pure h
    exact hg w
  by_cases hk : k = .app
  · subst hk
    exact hgrows h fun w =>
      { FileDraft.Grows.refl d with app := fun e => absurd e (Option.some_ne_none w) }
  cases construct k with
  | none hnone =>
    unfold declarationStatement at h
    rw [if_neg hk, hnone d] at h
    exact absurd h unexpected_ne_ok
  | one kind p hp hsome =>
    rw [declarationStatement_of_construct? hk (hsome d), map_eq_bind] at h
    simp only [bind_assoc, pure_bind] at h
    exact hgrows h fun _ =>
      { FileDraft.Grows.refl d with }
  | all kind p hp hsome =>
    rw [declarationStatement_of_construct? hk (hsome d), map_eq_bind] at h
    simp only [bind_assoc, pure_bind] at h
    exact hgrows h fun _ =>
      { FileDraft.Grows.refl d with }
  | llmConfig hkind =>
    subst hkind
    rw [declarationStatement_llmConfig] at h
    exact hgrows h fun w =>
      { FileDraft.Grows.refl d with llmConfig := fun e => absurd e (Option.some_ne_none w) }
  | policies hkind =>
    subst hkind
    rw [declarationStatement_policies] at h
    exact hgrows h fun w =>
      { FileDraft.Grows.refl d with policies := fun e => absurd e (Option.some_ne_none w) }
  | tenancy hkind =>
    subst hkind
    rw [declarationStatement_tenancy] at h
    exact hgrows h fun w =>
      { FileDraft.Grows.refl d with tenancy := fun e => absurd e (Option.some_ne_none w) }

/-! ## Uses -/

instance {g : Ground} {d : FileDraft} : Reads g true (useStatement d) .ends := by
  unfold useStatement
  infer_instance

/-- Uses have no places. -/
instance {d : FileDraft} {place : Location → Location} :
    Maps (FileDraft.after {} place) (useStatement d)
      (useStatement (FileDraft.after {} place d)) := by
  have hpure (uses : List String) (aliases : Table) : Maps (FileDraft.after {} place)
      (pure { d with uses, aliases })
      (pure { FileDraft.after {} place d with uses, aliases, started := d.started }) :=
    inferInstanceAs (Maps _ _ (pure (FileDraft.after {} place { d with uses, aliases })))
  have huses : (FileDraft.after {} place d).uses = d.uses := rfl
  have haliases : (FileDraft.after {} place d).aliases = d.aliases := rfl
  have hstarted : (FileDraft.after {} place d).started = d.started := rfl
  unfold useStatement
  rw [huses, haliases, hstarted]
  infer_instance

theorem exists_of_useStatement {d v : FileDraft} {scope : Scope} {ts rest : List Token}
    (h : useStatement d scope ts = .ok (v, rest)) :
    ∃ target aliases, v = { d with
      uses := if d.uses.contains target then d.uses else d.uses ++ [target], aliases } := by
  unfold useStatement at h
  split at h
  · exact absurd h fail_ne_ok
  · obtain ⟨_, _, -, h⟩ := bind_eq_ok_iff.1 h
    obtain ⟨target, _, -, h⟩ := bind_eq_ok_iff.1 h
    obtain ⟨hasAlias, _, -, h⟩ := bind_eq_ok_iff.1 h
    cases hasAlias with
    | true =>
      obtain ⟨n, _, -, h⟩ := bind_eq_ok_iff.1 h
      obtain ⟨aliases, _, -, h⟩ := bind_eq_ok_iff.1 h
      obtain ⟨_, _, -, h⟩ := bind_eq_ok_iff.1 h
      cases h
      exact ⟨target, _, rfl⟩
    | false =>
      obtain ⟨aliases, _, -, h⟩ := bind_eq_ok_iff.1 h
      obtain ⟨_, _, -, h⟩ := bind_eq_ok_iff.1 h
      cases h
      exact ⟨target, _, rfl⟩

theorem useStatement_uses {d v : FileDraft} {scope : Scope} {ts rest : List Token}
    (h : useStatement d scope ts = .ok (v, rest)) : v.uses ≠ [] := by
  obtain ⟨target, aliases, rfl⟩ := exists_of_useStatement h
  show (if d.uses.contains target = true then d.uses else d.uses ++ [target]) ≠ []
  split
  · next hc =>
    intro hnil
    rw [hnil] at hc
    cases hc
  · exact List.append_ne_nil_of_right_ne_nil _ (List.cons_ne_nil _ _)

theorem useStatement_grows {d v : FileDraft} {scope : Scope} {ts rest : List Token}
    (h : useStatement d scope ts = .ok (v, rest)) : d.Grows v := by
  have huses := useStatement_uses h
  obtain ⟨target, aliases, rfl⟩ := exists_of_useStatement h
  exact ⟨fun e => absurd e huses, id, id, id, id⟩

/-! ## Statements of a file -/

/-- The statement of a file that a keyword opens. -/
def keywordStatement (d : FileDraft) (k : Keyword) : Parser FileDraft :=
  if k = .module then fail .lateModule
  else if k = .use then useStatement d
  else declarationStatement d k

theorem keywordStatement_grows {d v : FileDraft} {k : Keyword} {scope : Scope}
    {ts rest : List Token} (h : keywordStatement d k scope ts = .ok (v, rest)) : d.Grows v := by
  unfold keywordStatement at h
  split at h
  · exact absurd h fail_ne_ok
  · split at h
    · exact useStatement_grows h
    · exact declarationStatement_grows h

/-- Two files whose drafts correspond: uses may only be read in front of all else. -/
structure Behind (d₁ v : FileDraft) : Prop where
  apart : d₁.Apart v
  uses : v.uses = [] ∨ d₁ = {}

theorem Behind.of_grows {d₁ d v : FileDraft} (h : Behind d₁ v) (hg : d.Grows v) : Behind d₁ d :=
  ⟨h.apart.of_grows hg, h.uses.imp_left fun e => (hg.uses e).1⟩

theorem Behind.nothing (v : FileDraft) : Behind {} v :=
  ⟨⟨.inl rfl, .inl rfl, .inl rfl, .inl rfl⟩, .inr rfl⟩

theorem keywordStatement_agree {d₁ d v : FileDraft} {k : Keyword} {ts rest : List Token}
    (hv : Behind d₁ v) (h : keywordStatement d k r.first ts = .ok (v, rest)) :
    Agree r .level true (keywordStatement d k) (keywordStatement (d₁.after r.place d) k)
      (d₁.after r.place) fun _ => .ends := by
  unfold keywordStatement at h ⊢
  split at h
  · exact absurd h fail_ne_ok
  · next hmodule =>
    rw [if_neg hmodule, if_neg hmodule]
    split at h
    · next huse =>
      rw [if_pos huse, if_pos huse, hv.uses.resolve_left (useStatement_uses h)]
      intro s a a' w c hs hc ha hw
      obtain ⟨s', b, b', rfl, hl, hc', hb, hw'⟩ := Reads.agree (e := .ends) r hs hc ha hw
      exact ⟨s', b, b', rfl, hl, hc', hb, Maps.run hw'⟩
    · next huse =>
      rw [if_neg huse, if_neg huse]
      exact declarationStatement_agree hv.apart h

/-- A statement of a file is one statement, whatever stands behind it. -/
theorem keywordStatement_ends {scope : Scope} (hf : scope.final.kind = .endOfFile)
    {d v : FileDraft} {k : Keyword} {t : Token} {us behind rest : List Token}
    (ht : t.kind.endsStatement = false) (hc : (⟨0, true⟩ : Position).ClosedBy (t :: us))
    (hbehind : NoIndent behind)
    (h : keywordStatement d k scope (t :: us ++ behind) = .ok (v, rest)) :
    ∃ b, rest = b ++ behind ∧ EndsStatement (t :: us) b ∧ Position.outside.ClosedBy b := by
  have hentry : Entry (.self scope behind hf) .level true ⟨0, true⟩ (t :: us) :=
    ⟨List.cons_ne_nil t us, .inr ⟨hbehind, hbehind⟩, fun _ => ⟨t, us, rfl, ht⟩⟩
  obtain ⟨_, b, -, rfl, ⟨rfl, hends⟩, hcb, -⟩ :=
    keywordStatement_agree (r := .self scope behind hf) (.nothing v) h hentry hc
      (Rereading.forall₂_self scope behind hf _) h
  exact ⟨b, rfl, hends, hcb⟩

theorem fileStatement?_eq (d : FileDraft) : fileStatement? d = skipNewlines >>= fun _ =>
    current >>= fun t => match t.kind with
      | .endOfFile => pure none
      | .keyword k => some <$> keywordStatement d k
      | .indent => fail .indentedDeclaration
      | _ => unexpected "a top-level declaration" := by
  refine congrArg (skipNewlines >>= ·)
    (funext fun _ => congrArg (current >>= ·) (funext fun t => ?_))
  split
  · next hk => rw [hk]
  · next hk => rw [hk]; rfl
  · next hk => rw [hk]; rfl
  · next k hmodule huse hk =>
    rw [hk]
    show _ = some <$> keywordStatement d k
    unfold keywordStatement
    rw [if_neg hmodule, if_neg huse]
    rfl
  · next hk => rw [hk]
  · next hfinal _ _ hkeyword hindent =>
    split
    · next hk => exact absurd hk hfinal
    · next k hk => exact absurd hk (hkeyword k)
    · next hk => exact absurd hk hindent
    · rfl

section

variable {scope : Scope} (hf : scope.final.kind = .endOfFile) {d : FileDraft} {t : Token}
  {ts us rest : List Token}

include hf

theorem fileStatement?_of_final (h : behindNewlines ts = []) :
    fileStatement? d scope ts = .ok (none, []) := by
  rw [fileStatement?_eq, bind_eq_ok (skipNewlines_of hf h), bind_eq_ok (current_apply _ _)]
  have hkind : (head scope []).kind = .endOfFile := hf
  rw [hkind]
  rfl

theorem fileStatement?_of_keyword {k : Keyword} (h : behindNewlines ts = t :: us)
    (hk : t.kind = .keyword k) :
    fileStatement? d scope ts = (some <$> keywordStatement d k) scope (t :: us) := by
  rw [fileStatement?_eq, bind_eq_ok (skipNewlines_of hf h), bind_eq_ok (current_apply _ _)]
  have hkind : (head scope (t :: us)).kind = .keyword k := hk
  rw [hkind]

/-- Where a token comes next, it has to be a keyword. -/
theorem exists_of_fileStatement? {out : Option FileDraft} (h : behindNewlines ts = t :: us)
    (ht : t.kind ≠ .endOfFile) (hv : fileStatement? d scope ts = .ok (out, rest)) :
    ∃ k v, t.kind = .keyword k ∧ out = some v ∧
      keywordStatement d k scope (t :: us) = .ok (v, rest) := by
  have hrun := hv
  rw [fileStatement?_eq, bind_eq_ok (skipNewlines_of hf h), bind_eq_ok (current_apply _ _)] at hrun
  have hhead : (head scope (t :: us)).kind = t.kind := rfl
  rw [hhead] at hrun
  cases hk : t.kind with
  | keyword k =>
    rw [fileStatement?_of_keyword hf h hk] at hv
    obtain ⟨v, hv', rfl⟩ := map_eq_ok_iff.1 hv
    exact ⟨k, v, rfl, rfl, hv'⟩
  | endOfFile => exact absurd hk ht
  | indent =>
    rw [hk] at hrun
    exact absurd hrun fail_ne_ok
  | _ =>
    rw [hk] at hrun
    exact absurd hrun unexpected_ne_ok

theorem fileStatement?_grows {v : FileDraft} (h : fileStatement? d scope ts = .ok (some v, rest)) :
    d.Grows v := by
  cases hus : behindNewlines ts with
  | nil =>
    rw [fileStatement?_of_final hf hus] at h
    cases h
  | cons t us =>
    by_cases ht : t.kind = .endOfFile
    · rw [fileStatement?_eq, bind_eq_ok (skipNewlines_of hf hus),
        bind_eq_ok (current_apply _ _)] at h
      have hhead : (head scope (t :: us)).kind = .endOfFile := ht
      rw [hhead] at h
      cases h
    · obtain ⟨k, w, -, hw, hk⟩ := exists_of_fileStatement? hf hus ht h
      cases hw
      exact keywordStatement_grows hk

end

/-! ## All statements of a file -/

/-- Outside of every block, no block is opened. -/
theorem noIndent_of_fileStatements {scope : Scope} (hf : scope.final.kind = .endOfFile)
    {d : FileDraft} {a : List Token} {out : FileDraft × List Token}
    (h : iterateOn fileStatement? scope d a = .ok out) : NoIndent a := by
  rintro t us rfl ht
  have hbehind : behindNewlines (t :: us) = t :: us :=
    List.dropWhile_cons_of_neg (by rw [beq_iff_eq, ht]; decide)
  obtain ⟨next, _, hs⟩ := exists_step_of_iterateOn h
  obtain ⟨k, _, hk, -, -⟩ := exists_of_fileStatement? hf hbehind (by rw [ht]; decide) hs
  rw [ht] at hk
  cases hk

/-- The statements of a file only add to what is declared. The induction is on the number of tokens
left. -/
theorem fileStatements_grows {scope : Scope} (hf : scope.final.kind = .endOfFile)
    {d v : FileDraft} {a b : List Token} (h : iterateOn fileStatement? scope d a = .ok (v, b)) :
    d.Grows v := by
  induction hn : a.length using Nat.strongRecOn generalizing d a with
  | ind n ih =>
    obtain ⟨next, mid, hs⟩ := exists_step_of_iterateOn h
    cases next with
    | none =>
      rw [iterateOn_of_none hs] at h
      cases h
      exact .refl _
    | some next =>
      have hgrows := fileStatement?_grows hf hs
      rw [iterateOn_of_some hs] at h
      by_cases hlt : mid.length < a.length
      · rw [if_pos hlt] at h
        exact hgrows.trans (ih mid.length (hn ▸ hlt) h rfl)
      · rw [if_neg hlt] at h
        cases h
        exact hgrows

theorem exists_newlines (ts : List Token) :
    ∃ newlines, ts = newlines ++ behindNewlines ts ∧ ∀ t ∈ newlines, t.kind = .newline := by
  refine ⟨ts.takeWhile (·.kind == .newline), List.takeWhile_append_dropWhile.symm, fun t ht => ?_⟩
  have hk := List.mem_takeWhile_imp ht
  exact beq_iff_eq.1 hk

theorem behindNewlines_of_all {pre : List Token} (h : ∀ t ∈ pre, t.kind = .newline)
    (ts : List Token) : behindNewlines (pre ++ ts) = behindNewlines ts := by
  unfold behindNewlines
  rw [List.dropWhile_append_of_pos fun t ht => beq_iff_eq.2 (h t ht)]

theorem kind_of_behindNewlines {ts : List Token} (h : behindNewlines ts = []) :
    ∀ t ∈ ts, t.kind = .newline := by
  intro t ht
  exact beq_iff_eq.1 (List.dropWhile_eq_nil_iff.1 h t ht)

/-- One statement of a file, which leaves fewer tokens, is read the same if what it leads to may
stand behind what the other file declares. -/
theorem fileStatement?_agree {d₁ d : FileDraft} {t : Token} {a a' c pre us : List Token}
    {out : Option FileDraft} (hbehind : NoIndent r.behind) (hnext : NoIndent r.next)
    (hc : Position.outside.ClosedBy a) (ha : List.Forall₂ r.Same a a')
    (hpre : ∀ t ∈ pre, t.kind = .newline) (hus : behindNewlines a = t :: us)
    (h : fileStatement? d r.first (a ++ r.behind) = .ok (out, c)) :
    ∃ w b, out = some w ∧ c = b ++ r.behind ∧ b.length < a.length ∧
      Position.outside.ClosedBy b ∧ (Behind d₁ w → ∃ b', List.Forall₂ r.Same b b' ∧
        fileStatement? (d₁.after r.place d) r.second (pre ++ a' ++ r.next) =
          .ok (some (d₁.after r.place w), b' ++ r.next)) := by
  have hsame := forall₂_behindNewlines (fun _ _ h => h.kind) ha
  obtain ⟨l, hclosed⟩ := closedBy_behindNewlines hc
  have hsuf := (behindNewlines_suffix a).length_le
  rw [hus] at hclosed hsame hsuf
  obtain ⟨k, w, hk, rfl, hw⟩ := exists_of_fileStatement? r.first_final
    (behindNewlines_append hus r.behind) hclosed.kind_ne_endOfFile h
  have hplain : t.kind.endsStatement = false := by rw [hk]; rfl
  -- a statement stands in its line from the start
  have hline : (⟨0, true⟩ : Position).ClosedBy (t :: us) :=
    .plain hplain (hclosed.of_plain hplain)
  obtain ⟨b, rfl, hends, hcb⟩ := keywordStatement_ends r.first_final hplain hline hbehind hw
  refine ⟨w, b, rfl, rfl, Nat.lt_of_lt_of_le (hends.length_lt hplain) hsuf, hcb, fun hbw => ?_⟩
  have hentry : Entry r .level true ⟨0, true⟩ (t :: us) :=
    ⟨List.cons_ne_nil t us, .inr ⟨hbehind, hnext⟩, fun _ => ⟨t, us, rfl, hplain⟩⟩
  obtain ⟨_, _, mid', e, -, -, hmid, hw'⟩ := keywordStatement_agree hbw hw hentry hline hsame hw
  obtain rfl := List.append_cancel_right e
  obtain ⟨t', us', ht', -, hus'⟩ := List.forall₂_cons_left_iff.1 hsame
  have hfront := behindNewlines_of_all hpre (a' ++ r.next)
  rw [← List.append_assoc, behindNewlines_append hus' r.next] at hfront
  refine ⟨mid', hmid, ?_⟩
  rw [fileStatement?_of_keyword r.second_final hfront (ht'.kind.trans hk)]
  rw [hus'] at hw'
  exact map_eq_ok_iff.2 ⟨_, hw', rfl⟩

/-- The statements of a file are read the same whatever stands behind them, up to the ends of lines
behind the last of them. The induction is on the number of tokens left. -/
theorem fileStatements_agree (d₁ : FileDraft) {d v : FileDraft} {a a' c pre : List Token}
    (hbehind : NoIndent r.behind) (hnext : NoIndent r.next) (hc : Position.outside.ClosedBy a)
    (ha : List.Forall₂ r.Same a a') (hpre : ∀ t ∈ pre, t.kind = .newline) (hv : Behind d₁ v)
    (h : iterateOn fileStatement? r.first d (a ++ r.behind) = .ok (v, c)) :
    ∃ w nl nl', (∀ t ∈ nl, t.kind = .newline) ∧ (∀ t ∈ nl', t.kind = .newline) ∧
      iterateOn fileStatement? r.first w (nl ++ r.behind) = .ok (v, c) ∧
      iterateOn fileStatement? r.second (d₁.after r.place d) (pre ++ a' ++ r.next) =
        iterateOn fileStatement? r.second (d₁.after r.place w) (nl' ++ r.next) := by
  induction hn : a.length using Nat.strongRecOn generalizing d a a' pre with
  | ind n ih =>
    cases hus : behindNewlines a with
    | nil =>
      -- there are no more statements in front of what stands behind
      have hsame := forall₂_behindNewlines (fun _ _ h => h.kind) ha
      rw [hus, List.forall₂_nil_left_iff] at hsame
      refine ⟨d, a, pre ++ a', kind_of_behindNewlines hus, fun t ht => ?_, h, rfl⟩
      rcases List.mem_append.1 ht with ht | ht
      · exact hpre t ht
      · exact kind_of_behindNewlines hsame t ht
    | cons t us =>
      obtain ⟨_, _, hs⟩ := exists_step_of_iterateOn h
      obtain ⟨w, b, rfl, rfl, hshort, hcb, hstep⟩ :=
        fileStatement?_agree hbehind hnext hc ha hpre hus hs
      have hlt : (b ++ r.behind).length < (a ++ r.behind).length := by
        simp only [List.length_append]
        omega
      rw [iterateOn_of_some hs, if_pos hlt] at h
      obtain ⟨b', hb, hs'⟩ := hstep (hv.of_grows (fileStatements_grows r.first_final h))
      have hlt' : (b' ++ r.next).length < (pre ++ a' ++ r.next).length := by
        simp only [List.length_append, ← ha.length_eq, ← hb.length_eq]
        omega
      rw [iterateOn_of_some hs', if_pos hlt']
      exact ih b.length (hn ▸ hshort) hcb hb (List.forall_mem_nil _) h rfl

end Blueprint.Parser
