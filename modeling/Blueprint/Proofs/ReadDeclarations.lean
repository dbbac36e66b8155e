import Blueprint.Module.Grammar
import Blueprint.Proofs.Results

/-!
# Where the declarations of a module come from

Every named declaration of a module that is read was returned by the parser of its kind
(`parseModule_isRead`): the grammar of files collects declarations and changes none. So whatever the
parser of a kind gives holds of every declaration of the kind.
-/

namespace Blueprint

/-- The parser returns the value, somewhere. -/
def Parser.Returns {α : Type} (p : Parser α) (v : α) : Prop :=
  ∃ scope ts rest, p scope ts = .ok (v, rest)

/-- The parser of the kind returns the body, by itself or among others. -/
def DeclKind.IsRead : (k : DeclKind) → k.Body → Prop
  | entity => Parser.entity.Returns
  | archetype => Parser.archetype.Returns
  | enum => Parser.enumDecl.Returns
  | surface => Parser.surface.Returns
  | workspace => Parser.workspace.Returns
  | experience => Parser.experience.Returns
  | service => Parser.service.Returns
  | foreignModel => Parser.foreignModel.Returns
  | integration => Parser.integration.Returns
  | test => Parser.testCase.Returns
  | flow => Parser.flow.Returns
  | persona => Parser.persona.Returns
  | scenario => Parser.scenario.Returns
  | story => Parser.story.Returns
  | llmModel => Parser.llmModel.Returns
  | llmIntent => Parser.llmIntent.Returns
  | ledger => Parser.ledger.Returns
  | transaction => Parser.transaction.Returns
  | process => Parser.process.Returns
  | schedule => Parser.schedule.Returns
  | stream => Parser.stream.Returns
  | api => fun i => ∃ l, Parser.interfaces.Returns l ∧ i ∈ l
  | dataProduct => fun p => ∃ l, Parser.dataProducts.Returns l ∧ p ∈ l
  | approval => Parser.approval.Returns
  | sla => Parser.sla.Returns
  | webhook => Parser.webhook.Returns
  | view => Parser.view.Returns

namespace Parser

variable {α : Type} {p : Parser α} {P : α → Prop} {v : α}

theorem gives_returns (p : Parser α) : Gives p p.Returns :=
  fun scope ts _ rest h => ⟨scope, ts, rest, h⟩

theorem Returns.of_gives (h : p.Returns v) (hp : Gives p P) : P v := by
  obtain ⟨scope, ts, rest, h⟩ := h
  exact hp h

/-! ## Drafts of a file -/

namespace FileDraft

variable {d : FileDraft} {k : DeclKind}

/-- What has been declared so far is read. -/
def AllRead (d : FileDraft) : Prop := ∀ a ∈ d.named, a.kind.IsRead a.body

theorem AllRead.declareAll {bodies : List k.Body} (h : d.AllRead)
    (hb : ∀ body ∈ bodies, k.IsRead body) : (d.declareAll k bodies).AllRead := by
  intro a ha
  rcases List.mem_append.1 ha with ha | ha
  · exact h a ha
  · obtain ⟨body, hbody, rfl⟩ := List.mem_map.1 ha
    exact hb body hbody

theorem AllRead.declare {body : k.Body} (h : d.AllRead) (hb : k.IsRead body) :
    (d.declare k body).AllRead :=
  h.declareAll (List.forall_mem_singleton.2 hb)

theorem AllRead.declarations (h : d.AllRead) :
    ∀ k, ∀ body ∈ d.declarations.named k, k.IsRead body := by
  intro k body hbody
  obtain ⟨a, ha, he⟩ := List.mem_filterMap.1 hbody
  unfold Declaration.bodyOf? at he
  split at he
  · next hk =>
    subst hk
    cases he
    exact h a ha
  · cases he

end FileDraft

/-! ## Statements of a file -/

theorem construct?_gives {d : FileDraft} (h : d.AllRead) {k : Keyword} {p : Parser FileDraft}
    (hp : construct? d k = some p) : Gives p FileDraft.AllRead := by
  have hone (kind : DeclKind) {q : Parser kind.Body} (hq : kind.IsRead = q.Returns) :
      Gives (d.declare kind <$> q) FileDraft.AllRead :=
    .map ((gives_returns q).mono fun _ hb => h.declare (hq ▸ hb))
  have hall (kind : DeclKind) {q : Parser (List kind.Body)}
      (hq : kind.IsRead = fun body => ∃ l, q.Returns l ∧ body ∈ l) :
      Gives (d.declareAll kind <$> q) FileDraft.AllRead :=
    .map ((gives_returns q).mono fun l hl => h.declareAll fun _ hb => hq ▸ ⟨l, hl, hb⟩)
  unfold construct? at hp
  split at hp <;> cases hp
  case h_16 | h_23 | h_24 => exact .seq fun _ => .pure h
  case h_25 => exact hall .api rfl
  case h_26 => exact hall .dataProduct rfl
  all_goals exact hone _ rfl

theorem declarationStatement_gives {d : FileDraft} (h : d.AllRead) {k : Keyword} :
    Gives (declarationStatement d k) FileDraft.AllRead := by
  unfold declarationStatement
  refine .ite (fun _ => .seq fun _ => .pure h) fun _ => ?_
  split
  · next p hp => exact (construct?_gives h hp).bind fun _ h => .pure h
  · exact .unexpected

instance {d : FileDraft} : Keeps (useStatement d) (·.named) d.named := by
  unfold useStatement
  infer_instance

theorem fileStatement?_gives {d : FileDraft} (h : d.AllRead) :
    Gives (fileStatement? d) fun o => ∀ d', o = some d' → d'.AllRead := by
  unfold fileStatement?
  refine .seq fun _ => .seq fun t => ?_
  split
  · exact .none
  · exact .fail
  · have huse : Gives (useStatement d) (·.named = d.named) := Keeps.gives
    refine huse.bind fun d' hd => .some fun a ha => ?_
    rw [hd] at ha
    exact h a ha
  · exact (declarationStatement_gives h).bind fun _ h => .some h
  · exact .fail
  · exact .unexpected

theorem module_gives_read :
    Gives module fun m => ∀ k, ∀ body ∈ m.declarations.named k, k.IsRead body := by
  unfold module
  refine .seq fun declared => .withReader ?_
  refine .bind (.iterate (List.forall_mem_nil _) fun _ => fileStatement?_gives) fun d h => ?_
  exact .seq fun scope => .pure h.declarations

end Parser

/-! ## Modules -/

theorem parseModule_isRead {file text : String} {m : Module} (h : parseModule file text = .ok m) :
    ∀ k, ∀ body ∈ m.declarations.named k, k.IsRead body := by
  unfold parseModule at h
  rw [Except.mapError_eq_ok_iff, Except.bind_eq_ok_iff] at h
  obtain ⟨tokens, -, h⟩ := h
  exact Parser.module_gives_read.runOn h

end Blueprint
