import Blueprint.Entity.Expansion
import Mathlib.Data.List.Nodup

/-!
# Well-formed declarations

What every declaration that is read from a text keeps to (`DeclKind.WellFormed`): things of one
owner have names of their own, what must not be empty is not, and the amounts are in bounds. Kinds
that are not listed have no such rules.
-/

namespace Blueprint

/-! ## Names -/

/-- Each has a name of its own. -/
def NamesApart {α : Type} (name : α → String) (l : List α) : Prop := (l.map name).Nodup

section

variable {α : Type} {name : α → String} {l : List α} {a : α}

theorem NamesApart.nil : NamesApart name [] := List.nodup_nil

/-- What was looked for in vain by its name can be added. -/
theorem NamesApart.concat (h : NamesApart name l)
    (ha : ¬ l.any (fun b => name b == name a) = true) : NamesApart name (l ++ [a]) := by
  unfold NamesApart
  rw [List.map_append, List.map_singleton, ← List.concat_eq_append]
  refine List.Nodup.concat (fun hmem => ha ?_) h
  obtain ⟨b, hb, e⟩ := List.mem_map.1 hmem
  exact List.any_eq_true.2 ⟨b, hb, beq_iff_eq.2 e⟩

/-- What has a name of its own is found by it. -/
theorem NamesApart.find?_eq_some_iff (h : NamesApart name l) {n : String} :
    l.find? (fun b => name b == n) = some a ↔ a ∈ l ∧ name a = n := by
  have hfound : ∀ b, l.find? (fun b => name b == n) = some b → b ∈ l ∧ name b = n := by
    intro b hb
    have hname := List.find?_some hb
    exact ⟨List.mem_of_find?_eq_some hb, eq_of_beq hname⟩
  refine ⟨hfound a, ?_⟩
  rintro ⟨ha, hname⟩
  have hsome : (l.find? fun b => name b == n).isSome = true :=
    List.find?_isSome.2 ⟨a, ha, beq_iff_eq.2 hname⟩
  obtain ⟨b, hb⟩ := Option.isSome_iff_exists.1 hsome
  obtain ⟨hmem, hname'⟩ := hfound b hb
  rw [hb, List.inj_on_of_nodup_map h hmem ha (hname'.trans hname.symm)]

theorem forall_mem_concat {P : α → Prop} (h : ∀ b ∈ l, P b) (ha : P a) : ∀ b ∈ l ++ [a], P b := by
  intro b hb
  rcases List.mem_append.1 hb with hb | hb
  · exact h b hb
  · rw [List.mem_singleton.1 hb]
    exact ha

end

/-! ## Fields -/

/-- A decimal has no more places than digits, an enum has values of its own, and only relations
that are keyed by their target go via one of its fields. -/
def FieldType.WellFormed : FieldType → Prop
  | decimal precision scale => scale ≤ precision
  | enum values => values ≠ [] ∧ values.Nodup
  | relation r => r.via.isSome → r.kind = .hasMany ∨ r.kind = .hasOne
  | _ => True

structure Field.WellFormed (f : Field) : Prop where
  fieldType : f.fieldType.WellFormed
  modifiers : f.modifiers.Nodup
  presence : ¬ (.required ∈ f.modifiers ∧ .optional ∈ f.modifiers)

/-- Well-formed fields with names of their own. -/
structure Fields.WellFormed (fields : List Field) : Prop where
  each : ∀ f ∈ fields, f.WellFormed
  names : NamesApart Field.name fields

theorem Fields.WellFormed.nil : Fields.WellFormed [] :=
  ⟨List.forall_mem_nil _, .nil⟩

/-- Well-formed fields; computed or not, each has a name of its own. -/
structure Members.WellFormed (m : Members) : Prop where
  each : ∀ f ∈ m.fields, f.WellFormed
  names : m.names.Nodup

structure EnumDecl.WellFormed (e : EnumDecl) : Prop where
  values : e.values ≠ []
  names : NamesApart EnumValue.name e.values

/-! ## Services and streams -/

def ServiceBody.WellFormed : ServiceBody → Prop
  | domain _ inputs outputs _ _ => Fields.WellFormed inputs ∧ Fields.WellFormed outputs
  | api .. => True

structure Stream.WellFormed (s : Stream) : Prop where
  schemas : s.schemas ≠ []
  names : NamesApart StreamSchema.name s.schemas
  fields : ∀ a ∈ s.schemas, Fields.WellFormed a.fields

/-! ## Steps -/

/-- If it is said how often something is tried, that is at least once. -/
def Attempts.WellFormed (retry : Option RetryPolicy) : Prop := ∀ p ∈ retry, 1 ≤ p.maxAttempts

/-- A step is tried at least once; a parallel step has at least two branches. -/
def ProcessStep.WellFormed : ProcessStep → Prop
  | single _ _ options => Attempts.WellFormed options.retry
  | parallel _ branches options => Attempts.WellFormed options.retry ∧ 2 ≤ branches.length

/-- The steps and all steps inside them are well-formed. -/
def Steps.WellFormed (steps : List ProcessStep) : Prop :=
  ∀ s ∈ ProcessStep.flattenAll steps, s.WellFormed

structure Process.WellFormed (p : Process) : Prop where
  inputs : Fields.WellFormed p.inputs
  outputs : Fields.WellFormed p.outputs
  steps : Steps.WellFormed p.steps
  /-- At any depth, a step has a name of its own. -/
  names : NamesApart ProcessStep.name p.allSteps

/-! ## Transactions and policies of work -/

structure Transaction.WellFormed (t : Transaction) : Prop where
  transfers : t.transfers ≠ []
  names : NamesApart Transfer.name t.transfers
  ledgers : ∀ r ∈ t.transfers, r.debit ≠ r.credit

structure Sla.WellFormed (s : Sla) : Prop where
  tiers : s.tiers ≠ []
  names : NamesApart SlaTier.name s.tiers

structure View.WellFormed (v : View) : Prop where
  fields : v.fields ≠ []
  names : NamesApart ViewField.name v.fields

structure Webhook.WellFormed (w : Webhook) : Prop where
  events : w.events ≠ []
  retry : Attempts.WellFormed w.retry

/-! ## Declarations -/

namespace DeclKind

def WellFormed : (k : DeclKind) → k.Body → Prop
  | entity => fun e : Entity => e.toMembers.WellFormed
  | archetype => fun a : Archetype => a.toMembers.WellFormed
  | enum => EnumDecl.WellFormed
  | surface => fun s : Surface => NamesApart SurfaceAction.name s.actions
  | workspace => fun w : Workspace => NamesApart Region.name w.regions
  | experience => fun e : Experience => NamesApart ExperienceStep.name e.steps
  | service => fun s : Service => s.body.WellFormed
  | foreignModel => fun m : ForeignModel => Fields.WellFormed m.fields
  | integration => fun i : Integration => NamesApart IntegrationAction.name i.actions
  | llmIntent => fun i : LlmIntent => Attempts.WellFormed i.retry
  | transaction => Transaction.WellFormed
  | process => Process.WellFormed
  | schedule => fun s : Schedule => Steps.WellFormed s.steps
  | stream => Stream.WellFormed
  | dataProduct => fun p : DataProduct => p.sources ≠ []
  | approval => fun a : Approval => 1 ≤ a.quorum
  | sla => Sla.WellFormed
  | webhook => Webhook.WellFormed
  | view => View.WellFormed
  | _ => fun _ => True

end DeclKind

def Declarations.WellFormed (d : Declarations) : Prop :=
  ∀ k, ∀ body ∈ d.named k, k.WellFormed body

end Blueprint
