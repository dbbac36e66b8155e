import Blueprint.Proofs.Grammar.Policies
import Blueprint.Proofs.Grammar.Services
import Blueprint.Proofs.Grammar.Stories
import Blueprint.Proofs.Grammar.Surfaces
import Blueprint.Proofs.Placing

/-!
# Declarations read the same up to their places
-/

namespace Blueprint.Parser

variable {σ : Type} {l : Location}

/-! ## Declarations that are made of drafts -/

instance {l l' : Location} {n : String} {d : ServiceDraft} :
    Alike (serviceBody l n d) (serviceBody l' n d) := by
  unfold serviceBody
  infer_instance

instance : Declares tenancy := by
  have hstill (l : Location) (d : TenancyDraft) : Still (match d.mode with
      | some mode =>
        pure { location := l, mode, isolation := d.isolation, provisioning := d.provisioning }
      | none => failIn l (.missingIn "tenancy" "mode") : Parser Tenancy) := by
    split <;> infer_instance
  have hmaps (l l' : Location) (d : TenancyDraft) : Maps (Placed.move l') (match d.mode with
      | some mode =>
        pure { location := l, mode, isolation := d.isolation, provisioning := d.provisioning }
      | none => failIn l (.missingIn "tenancy" "mode") : Parser Tenancy)
      (match d.mode with
      | some mode =>
        pure { location := l', mode, isolation := d.isolation, provisioning := d.provisioning }
      | none => failIn l' (.missingIn "tenancy" "mode")) := by
    split <;> infer_instance
  unfold tenancy
  infer_instance

instance : Declares experience := by
  unfold experience
  infer_instance

instance : Declares service := by
  unfold service
  infer_instance

instance : Declares testCase := by
  unfold testCase
  infer_instance

instance : Declares story := by
  unfold story
  infer_instance

instance : Declares llmModel := by
  unfold llmModel
  infer_instance

instance : Declares llmIntent := by
  unfold llmIntent
  infer_instance

instance : Declares ledger := by
  unfold ledger
  infer_instance

instance : Declares schedule := by
  unfold schedule
  infer_instance

instance : Declares webhook := by
  unfold webhook
  infer_instance

instance : Declares approval := by
  unfold approval
  infer_instance

instance : Declares sla := by
  unfold sla
  infer_instance

instance : Declares view := by
  unfold view
  infer_instance

instance : Declares enumDecl := by
  unfold enumDecl
  infer_instance

instance : Declares archetype := by
  unfold archetype
  infer_instance

instance : Declares app := by
  unfold app
  infer_instance

/-! ## Declarations that are read one directive after the other -/

instance {s : Surface} {a : SurfaceAction} :
    Maps (Placed.move l) (addAction s a) (addAction (Placed.move l s) a) := by
  unfold addAction
  infer_instance

instance {i : Integration} :
    Maps (Placed.move l) (integrationUse i) (integrationUse (Placed.move l i)) := by
  unfold integrationUse
  infer_instance

instance {v : Surface} :
    Maps (Placed.move l) (surfaceStatement v) (surfaceStatement (Placed.move l v)) := by
  unfold surfaceStatement
  refine .after fun k => ?_
  split <;> infer_instance

instance {v : Workspace} :
    Maps (Placed.move l) (workspaceStatement v) (workspaceStatement (Placed.move l v)) := by
  unfold workspaceStatement
  dsimp only
  refine .after fun b => ?_
  refine .after fun k => ?_
  split <;> infer_instance

instance {v : ForeignModel} :
    Maps (Placed.move l) (foreignDirective v) (foreignDirective (Placed.move l v)) := by
  unfold foreignDirective
  refine .after fun k => ?_
  split <;> infer_instance

instance {v : Integration} :
    Maps (Placed.move l) (integrationStatement v) (integrationStatement (Placed.move l v)) := by
  unfold integrationStatement
  refine .after fun k => ?_
  split <;> infer_instance

instance {v : Flow} : Maps (Placed.move l) (flowStatement v) (flowStatement (Placed.move l v)) := by
  unfold flowStatement
  refine .after fun k => ?_
  split <;> infer_instance

instance {v : Persona} :
    Maps (Placed.move l) (personaDirective v) (personaDirective (Placed.move l v)) := by
  unfold personaDirective
  refine .after fun k => ?_
  split <;> infer_instance

instance {v : Scenario} :
    Maps (Placed.move l) (scenarioStatement v) (scenarioStatement (Placed.move l v)) := by
  unfold scenarioStatement
  refine .after fun k => ?_
  split <;> infer_instance

instance {v : LlmConfig} :
    Maps (Placed.move l) (llmConfigStatement v) (llmConfigStatement (Placed.move l v)) := by
  unfold llmConfigStatement
  refine .after fun k => ?_
  split <;> infer_instance

instance {v : Transaction} :
    Maps (Placed.move l) (transactionStatement v) (transactionStatement (Placed.move l v)) := by
  unfold transactionStatement
  refine .after fun k => ?_
  split <;> infer_instance

instance {v : Process} :
    Maps (Placed.move l) (processDirective v) (processDirective (Placed.move l v)) := by
  unfold processDirective
  refine .after fun k => ?_
  split <;> infer_instance

instance {v : Stream} :
    Maps (Placed.move l) (streamStatement v) (streamStatement (Placed.move l v)) := by
  unfold streamStatement
  refine .after fun k => ?_
  split <;> infer_instance

instance {v : ApiInterface} :
    Maps (Placed.move l) (apiStatement v) (apiStatement (Placed.move l v)) := by
  unfold apiStatement
  refine .after fun k => ?_
  split <;> infer_instance

instance {v : DataProduct} :
    Maps (Placed.move l) (dataProductStatement v) (dataProductStatement (Placed.move l v)) := by
  unfold dataProductStatement
  refine .after fun k => ?_
  split <;> infer_instance

instance {v : Policies} :
    Maps (Placed.move l) (policiesStatement v) (policiesStatement (Placed.move l v)) := by
  unfold policiesStatement
  refine .after fun k => ?_
  split <;> infer_instance

instance {m : ForeignModel} :
    Maps (Placed.move l) (foreignStatement m) (foreignStatement (Placed.move l m)) := by
  unfold foreignStatement
  infer_instance

instance {p : Process} :
    Maps (Placed.move l) (processStatement p) (processStatement (Placed.move l p)) := by
  unfold processStatement
  refine .after fun s => ?_
  cases s <;> infer_instance

/-- The states that entities are read into, with the entity moved. -/
def moveState (l : Location) (s : Entity × List Transition) : Entity × List Transition :=
  (Placed.move l s.1, s.2)

instance {e : Entity} {found : List Transition} : Maps (moveState l) (entityDirective e found)
    (entityDirective (Placed.move l e) found) := by
  have hpure (e : Entity) (found : List Transition) :
      Maps (moveState l) (pure (e, found)) (pure (Placed.move l e, found)) :=
    inferInstanceAs (Maps (moveState l) _ (pure (moveState l (e, found))))
  unfold entityDirective
  refine .after fun k => ?_
  split <;> infer_instance

instance {s : Entity × List Transition} :
    Maps (moveState l) (entityStatement s) (entityStatement (moveState l s)) := by
  have hpure (e : Entity) (found : List Transition) :
      Maps (moveState l) (pure (e, found)) (pure (Placed.move l e, found)) :=
    inferInstanceAs (Maps (moveState l) _ (pure (moveState l (e, found))))
  obtain ⟨e, found⟩ := s
  refine .after fun m => ?_
  cases m <;> infer_instance

/-! ## Their constructs -/

instance : Declares surface := by
  unfold surface
  infer_instance

instance : Declares workspace := by
  unfold workspace
  infer_instance

set_option synthInstance.maxSize 512 in
instance : Declares foreignModel := by
  unfold foreignModel
  infer_instance

instance : Declares integration := by
  unfold integration
  infer_instance

instance : Declares flow := by
  unfold flow
  infer_instance

instance : Declares persona := by
  unfold persona
  infer_instance

instance : Declares scenario := by
  unfold scenario
  infer_instance

instance : Declares llmConfig := by
  unfold llmConfig
  infer_instance

instance : Declares api := by
  unfold api
  infer_instance

instance : Declares policies := by
  unfold policies
  infer_instance

/-! ## Their constructs, with a condition at the end -/

instance : Declares entity := by
  have hblock (l l' : Location) (n : String) (title : Option String) : Maps (Placed.move l')
      (block entityStatement ({ location := l, name := n, title }, []) >>= fun s =>
        pure { s.1 with stateMachine := StateMachine.of? s.1.fields s.2 })
      (block entityStatement ({ location := l', name := n, title }, []) >>= fun s =>
        pure { s.1 with stateMachine := StateMachine.of? s.1.fields s.2 }) :=
    .bind (.block (f := moveState l') ({ location := l, name := n, title }, [])) fun s =>
      inferInstanceAs
        (Maps (Placed.move l') (pure { s.1 with stateMachine := StateMachine.of? s.1.fields s.2 })
        (pure (Placed.move l' { s.1 with stateMachine := StateMachine.of? s.1.fields s.2 })))
  unfold entity
  infer_instance

instance : Declares transaction := by
  unfold transaction
  infer_instance

instance : Declares stream := by
  unfold stream
  infer_instance

instance : Declares dataProduct := by
  unfold dataProduct
  infer_instance

instance : Declares process := by
  have hstill (l : Location) (n : String) (p : Process) : Still (match p.repeatedStep? with
      | some s => failIn l (.repeatedStep "process" n s)
      | none => pure p : Parser Process) := by
    split <;> infer_instance
  have hmaps (l l' : Location) (n : String) (p : Process) : Maps (Placed.move l')
      (match p.repeatedStep? with
      | some s => failIn l (.repeatedStep "process" n s)
      | none => pure p : Parser Process)
      (match (Placed.move l' p).repeatedStep? with
      | some s => failIn l' (.repeatedStep "process" n s)
      | none => pure (Placed.move l' p)) := by
    show Maps _ _ (match p.repeatedStep? with
      | some s => failIn l' (.repeatedStep "process" n s)
      | none => pure (Placed.move l' p))
    split <;> infer_instance
  unfold process
  infer_instance

/-! ## Blocks of declarations -/

/-- What reads declarations from their keyword on agrees with itself, up to the places. -/
class DeclaresAll {α : Type} [Placed α] (p : Parser (List α)) : Prop where
  agree (r : Rereading) :
    Agree r .level true p p (List.map (Placed.relocate r.place)) fun _ => .ends

instance : DeclaresAll interfaces := ⟨fun _ => .expect .declared⟩

instance : DeclaresAll dataProducts := ⟨fun _ => .expect .declared⟩

end Blueprint.Parser
