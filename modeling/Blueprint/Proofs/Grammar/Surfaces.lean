import Blueprint.Experience.Grammar
import Blueprint.Proofs.Grammar.Expressions
import Blueprint.Surface.Grammar
import Blueprint.Workspace.Grammar

/-!
# Surfaces, workspaces and experiences read the same
-/

namespace Blueprint.Parser

variable {g : Ground} [g.Level] {plain : Bool} {α : Type} {e : Effect}

/-! ## Surfaces -/

instance : Reads g plain surfaceSection .ends := by
  unfold surfaceSection
  infer_instance

instance : Reads g plain outcome .stays := by
  unfold outcome
  infer_instance

instance : Reads g plain surfaceAction .ends := by
  unfold surfaceAction
  infer_instance

instance : Reads g plain sortKeys .stays := by
  unfold sortKeys sortKey
  infer_instance

instance {d : AttentionDraft} : Reads g plain (attentionStatement d) .ends := by
  unfold attentionStatement
  refine .keyword (fun k => ?_) ?_
  · split <;> infer_instance
  · infer_instance

instance : Reads g plain attentionSignal .ends := by
  unfold attentionSignal
  refine @Reads.here _ _ _ _ _ (fun l => ?_) fun l l' => inferInstance
  refine .current (fun t _ => ?_) (fun t _ _ => ?_) fun hk hx => ?_
  · infer_instance
  · infer_instance
  · rw [hx]
    exact .rfl

instance : Peeks g (endsAt 1) :=
  .next (q := fun k => match k with
    | .newline | .dedent | .endOfFile => pure true
    | _ => pure false) fun k => by split <;> infer_instance

instance : Reads g plain personaScope .stays := by
  have hends (scope : Scope) (ts : List Token) : ∃ b, endsAt 1 scope ts = .ok (b, ts) := by
    unfold endsAt
    rw [bind_eq_ok (peek_one_apply _ _)]
    cases (head scope ts.tail).kind <;> exact ⟨_, rfl⟩
  unfold personaScope
  rw [look_and_peek hends]
  infer_instance

instance {v : PersonaVariant} : Reads g plain (personaStatement v) .ends := by
  unfold personaStatement
  refine .keyword (fun k => ?_) ?_
  · split <;> infer_instance
  · infer_instance

instance : Reads g plain personaVariant .ends := by
  unfold personaVariant
  infer_instance

instance {p : Presentation} : Reads g plain (presentationStatement p) .ends := by
  unfold presentationStatement
  refine .keyword (fun k => ?_) ?_
  · split <;> infer_instance
  · infer_instance

instance {a : SurfaceAccess} : Reads g plain (surfaceAccessStatement a) .ends := by
  unfold surfaceAccessStatement
  refine .keyword (fun k => ?_) ?_
  · split <;> infer_instance
  · infer_instance

instance {s : Surface} {a : SurfaceAction} : Still (addAction s a) := by
  unfold addAction
  infer_instance

instance {s : Surface} : Reads g plain (surfaceStatement s) .ends := by
  unfold surfaceStatement
  refine .keyword (fun k => ?_) ?_
  · split <;> infer_instance
  · infer_instance

/-! ## Workspaces -/

set_option synthInstance.maxSize 512 in
instance : Reads g plain workspaceAccess .stays := by
  unfold workspaceAccess
  infer_instance

instance {r : Region} : Reads g plain (regionStatement r) .ends := by
  unfold regionStatement regionAggregate
  refine .keyword (fun k => ?_) ?_
  · split <;> infer_instance
  · infer_instance

instance {regions : List Region} : Reads g plain (region regions) .ends := by
  unfold region
  infer_instance

instance : Looks isAtRegion := by
  have hline : Peeks .any (peekIs 1 .colon >>= fun b =>
      if b = true then peekIs 2 .newline else pure false) :=
    .second fun _ _ hk => by rw [hk]
  have hregion : isAtRegion = isAtWord >>= fun b => if b = true then
      peekIs 1 .colon >>= fun b => if b = true then peekIs 2 .newline else pure false
      else pure false := by
    refine congrArg (isAtWord >>= ·) (funext fun b => funext fun scope => funext fun ts => ?_)
    cases b with
    | false => rfl
    | true =>
      rw [if_pos rfl, bind_eq_ok (peekIs_apply _ _ _ _), bind_eq_ok (peekIs_apply _ _ _ _),
        bind_eq_ok (peekIs_apply _ _ _ _)]
      cases (ts[1]?.getD scope.final).kind == .colon <;> rfl
  rw [hregion]
  infer_instance

/-- A look that can wait is taken later. -/
theorem peek_and_keyword {n : Nat} {k : TokenKind} {q : Bool → Option Keyword → Parser α} :
    (peekIs n k >>= fun b => keyword? >>= q b) = keyword? >>= fun k? => peekIs n k >>= fun b =>
      q b k? :=
  rfl

/-- How a line of a workspace is read may depend on what the next line starts with. -/
instance {w : Workspace} : Reads .block plain (workspaceStatement w) .ends := by
  unfold workspaceStatement
  dsimp only
  rw [peek_and_keyword]
  refine .keyword (fun k => ?_) ?_
  · split <;> infer_instance
  · exact inferInstanceAs (Reads .block false (do
      if ← isAtRegion then return { w with regions := ← region w.regions } else passOver w) .ends)

/-! ## Experiences -/

instance : Reads g plain stepTransition .stays := by
  unfold stepTransition
  infer_instance

instance {d : StepDraft} : Reads g plain (stepStatement d) .ends := by
  unfold stepStatement
  refine .keyword (fun k => ?_) ?_
  · split <;> infer_instance
  · infer_instance

instance {steps : List ExperienceStep} : Reads g plain (experienceStep steps) .ends := by
  unfold experienceStep
  infer_instance

instance {d : ExperienceDraft} : Reads g plain (experienceStatement d) .ends := by
  unfold experienceStatement
  refine .keyword (fun k => ?_) ?_
  · split <;> infer_instance
  · infer_instance

end Blueprint.Parser
