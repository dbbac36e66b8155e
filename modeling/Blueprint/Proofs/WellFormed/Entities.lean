import Blueprint.Entity.Grammar
import Blueprint.Proofs.WellFormed.Fields
import Blueprint.Service.Grammar
import Blueprint.Stream.Grammar

/-!
# Owners of fields that are read are well-formed

Entities, archetypes, services, foreign models and streams have well-formed fields, each with a name
of its own; so do the values of an enum.
-/

namespace Blueprint

/-! ## Members -/

namespace Members.WellFormed

variable {m : Members}

theorem empty : Members.WellFormed {} := ⟨List.forall_mem_nil _, .nil⟩

theorem addField {f : Field} (h : m.WellFormed) (hf : f.WellFormed)
    (hn : ¬ m.declares f.name = true) : { m with fields := m.fields ++ [f] }.WellFormed := by
  rw [declares_iff] at hn
  refine ⟨forall_mem_concat h.each hf, ?_⟩
  unfold Members.names
  rw [List.map_append, List.map_singleton, List.append_assoc, List.singleton_append,
    List.nodup_middle]
  exact List.nodup_cons.2 ⟨hn, h.names⟩

theorem addComputed {c : ComputedField} (h : m.WellFormed) (hn : ¬ m.declares c.name = true) :
    { m with computedFields := m.computedFields ++ [c] }.WellFormed := by
  rw [declares_iff] at hn
  refine ⟨h.each, ?_⟩
  unfold Members.names
  rw [List.map_append, List.map_singleton, ← List.append_assoc, ← List.concat_eq_append]
  exact List.Nodup.concat hn h.names

end Members.WellFormed

namespace Parser

variable {m : Members}

theorem memberField_gives (h : m.WellFormed) : Gives (memberField m) Members.WellFormed := by
  unfold memberField
  refine .seq fun t => .bind field_gives fun f hf => ?_
  exact .ite (fun _ => .failAt) fun hn => .pure (h.addField hf hn)

theorem memberComputed_gives (h : m.WellFormed) :
    Gives (memberComputed m) Members.WellFormed := by
  unfold memberComputed
  refine .seq fun t => .seq fun n => .ite (fun _ => .failAt) fun hn => ?_
  exact .seq fun expr => .pure (h.addComputed hn)

theorem member?_gives (h : m.WellFormed) :
    Gives (member? m) fun o => ∀ m', o = some m' → m'.WellFormed := by
  unfold member?
  refine .seq fun _ => .ite (fun _ => ?_) fun _ => .seq fun _ => .ite (fun _ => ?_) fun _ => ?_
  · exact (memberField_gives h).bind fun _ h => .some h
  · exact .seq fun _ => (memberComputed_gives h).bind fun _ h => .some h
  · refine .seq fun _ => .ite (fun _ => ?_) fun _ => .none
    exact .seq fun _ => .seq fun _ => .seq fun _ => .some ⟨h.each, h.names⟩

/-! ## Statements without a member -/

section

variable {scope : Scope} {ts mid : List Token}

theorem exists_isAtKeyword (k : Keyword) (scope : Scope) (ts : List Token) {p : Parser Bool}
    (hp : ∃ b, p scope ts = .ok (b, ts)) :
    ∃ b, (isAtKeyword k >>= fun b => if b = true then p else pure false) scope ts =
      .ok (b, ts) := by
  rw [bind_eq_ok (isAtKeyword_apply k scope ts)]
  split
  · exact hp
  · exact ⟨false, rfl⟩

/-- Where no member comes next, nothing is read. -/
theorem eq_of_member?_none (h : member? m scope ts = .ok (none, mid)) : mid = ts := by
  have hread {p : Parser Members} {ts : List Token} :
      (p >>= fun v => pure (some v)) scope ts ≠ .ok (none, mid) := by
    intro h
    obtain ⟨_, _, _, h⟩ := bind_eq_ok_iff.1 h
    cases h
  obtain ⟨b, hb⟩ := exists_isAtField scope ts
  obtain ⟨b', hb'⟩ := exists_isAtKeyword .computed scope ts (p := do return !(← peekIs 1 .colon))
    ⟨_, rfl⟩
  obtain ⟨b'', hb''⟩ := exists_isAtKeyword .invariant scope ts (p := peekIs 1 .colon) ⟨_, rfl⟩
  unfold member? isAtUnkeyed isAtKeyed at h
  rw [bind_eq_ok hb] at h
  cases b with
  | true => exact absurd h hread
  | false =>
    rw [if_neg Bool.false_ne_true, bind_eq_ok hb'] at h
    cases b' with
    | true =>
      rw [if_pos rfl, bind_eq_ok (advance_apply _ _)] at h
      exact absurd h hread
    | false =>
      rw [if_neg Bool.false_ne_true, bind_eq_ok hb''] at h
      cases b'' with
      | true =>
        rw [if_pos rfl, bind_eq_ok (advance_apply _ _), bind_eq_ok (advance_apply _ _)] at h
        obtain ⟨_, _, _, h⟩ := bind_eq_ok_iff.1 h
        cases h
      | false =>
        cases h
        rfl

/-- Where no member comes next, no field does. -/
theorem isAtField_of_member?_none (h : member? m scope ts = .ok (none, mid)) :
    isAtField scope ts = .ok (false, ts) := by
  obtain ⟨b, hb⟩ := exists_isAtField scope ts
  cases b with
  | false => exact hb
  | true =>
    unfold member? at h
    rw [bind_eq_ok hb, if_pos rfl] at h
    obtain ⟨_, _, _, h⟩ := bind_eq_ok_iff.1 h
    cases h

end

/-! ## Entities -/

/-- Where no field stands, a directive leaves the members as they are. -/
theorem members_of_entityDirective {scope : Scope} {ts mid : List Token} {e : Entity}
    {found : List Transition} (hfield : isAtField scope ts = .ok (false, mid)) :
    GivesOn scope ts (entityDirective e found) fun s => s.1.toMembers = e.toMembers := by
  have hother : GivesOn scope ts (noField e.fields >>= fun fields =>
      pure ({ e with fields := fields }, found)) fun s => s.1.toMembers = e.toMembers :=
    .noField hfield rfl
  intro s rest h
  unfold entityDirective at h
  rw [bind_eq_ok (keyword?_apply scope ts)] at h
  refine (?_ : GivesOn scope ts _ fun s => s.1.toMembers = e.toMembers) h
  split
  case h_1 | h_2 => exact .ite_peekIs .of_keeps hother
  case h_12 => exact hother
  all_goals exact .of_keeps

theorem entityStatement_gives {s : Entity × List Transition} (h : s.1.toMembers.WellFormed) :
    Gives (entityStatement s) fun s => s.1.toMembers.WellFormed := by
  intro scope ts s' rest hs
  obtain ⟨e, found⟩ := s
  obtain ⟨o, mid, ho, hs'⟩ := bind_eq_ok_iff.1 hs
  cases o with
  | some m =>
    cases hs'
    exact member?_gives h ho m rfl
  | none =>
    obtain rfl := eq_of_member?_none ho
    rw [members_of_entityDirective (isAtField_of_member?_none ho) hs']
    exact h

theorem entity_gives : Gives entity fun e => e.toMembers.WellFormed := by
  unfold entity
  refine .seq fun _ => .seq fun _ => .seq fun (n, title) => ?_
  exact .bind (.block .empty fun _ => entityStatement_gives) fun (e, found) h => .pure h

theorem archetype_gives : Gives archetype fun a => a.toMembers.WellFormed := by
  unfold archetype
  refine .seq fun _ => .seq fun _ => .seq fun n => ?_
  refine .bind (.block .empty fun m h scope ts m' rest hm => ?_) fun _ h => .pure h
  obtain ⟨o, mid, ho, hm'⟩ := bind_eq_ok_iff.1 hm
  cases o with
  | some next =>
    cases hm'
    exact member?_gives h ho _ rfl
  | none =>
    obtain rfl := eq_of_member?_none ho
    exact GivesOn.noField (isAtField_of_member?_none ho) h hm'

theorem enumLine_gives {values : List EnumValue} (h : NamesApart EnumValue.name values) :
    Gives (enumLine values) (NamesApart EnumValue.name) := by
  unfold enumLine
  refine .seq fun t => .seq fun n => .ite (fun _ => .failAt) fun hn => ?_
  have hvalue : Gives (closing (do return (⟨n, ← string?⟩ : EnumValue))) (·.name = n) :=
    .closing (.seq fun _ => .pure rfl)
  refine hvalue.bind fun v hv => .pure (h.concat ?_)
  rwa [hv]

theorem enumDecl_gives : Gives enumDecl EnumDecl.WellFormed := by
  unfold enumDecl
  refine .seq fun _ => .seq fun _ => .seq fun (n, title) => ?_
  refine .bind (.block .nil fun _ => enumLine_gives) fun values h => ?_
  refine .ite (fun _ => .failIn) fun hne => .pure ⟨?_, h⟩
  rwa [List.isEmpty_iff] at hne

/-! ## Services -/

theorem serviceStatement_gives {d : ServiceDraft}
    (h : Fields.WellFormed d.inputs ∧ Fields.WellFormed d.outputs) :
    Gives (serviceStatement d) fun d =>
      Fields.WellFormed d.inputs ∧ Fields.WellFormed d.outputs := by
  unfold serviceStatement
  refine .seq fun k => ?_
  by_cases hinput : k = some .input
  · subst hinput
    exact .seq fun _ => fieldBlock_gives.bind fun _ hf => .pure ⟨hf, h.2⟩
  by_cases houtput : k = some .output
  · subst houtput
    exact .seq fun _ => fieldBlock_gives.bind fun _ hf => .pure ⟨h.1, hf⟩
  · refine Keeps.of (f := fun d : ServiceDraft => (d.inputs, d.outputs))
      (c := (d.inputs, d.outputs)) (Q := fun p => Fields.WellFormed p.1 ∧ Fields.WellFormed p.2)
      ?_ h
    split <;> first | exact absurd rfl hinput | exact absurd rfl houtput | infer_instance

theorem serviceBody_gives {l : Location} {n : String} {d : ServiceDraft}
    (h : Fields.WellFormed d.inputs ∧ Fields.WellFormed d.outputs) :
    Gives (serviceBody l n d) ServiceBody.WellFormed := by
  unfold serviceBody
  exact .ite (fun _ => .ite (fun _ => .failIn) fun _ => .seq fun _ => .pure h) fun _ =>
    .pure trivial

theorem service_gives : Gives service fun s => s.body.WellFormed := by
  unfold service
  refine .seq fun _ => .seq fun _ => .seq fun (n, title) => ?_
  refine .bind (.block ⟨.nil, .nil⟩ fun _ => serviceStatement_gives) fun d h => ?_
  exact (serviceBody_gives h).bind fun _ h => .pure h

/-- Where no field stands, a directive leaves the fields as they are. -/
theorem fields_of_foreignDirective {scope : Scope} {ts mid : List Token} {m : ForeignModel}
    (hfield : isAtField scope ts = .ok (false, mid)) :
    GivesOn scope ts (foreignDirective m) fun m' => m'.fields = m.fields := by
  intro m' rest h
  unfold foreignDirective at h
  rw [bind_eq_ok (keyword?_apply scope ts)] at h
  refine (?_ : GivesOn scope ts _ fun m' => m'.fields = m.fields) h
  split
  case h_3 => exact .noField hfield rfl
  all_goals exact .of_keeps

theorem foreignStatement_gives {m : ForeignModel} (h : Fields.WellFormed m.fields) :
    Gives (foreignStatement m) fun m => Fields.WellFormed m.fields := by
  intro scope ts m' rest hm
  unfold foreignStatement at hm
  obtain ⟨b, hb⟩ := exists_isAtField scope ts
  rw [bind_eq_ok hb] at hm
  cases b with
  | true =>
    obtain ⟨fields, _, hfields, hm⟩ := bind_eq_ok_iff.1 hm
    cases hm
    exact anotherField_gives h hfields
  | false =>
    rw [fields_of_foreignDirective hb hm]
    exact h

theorem foreignModel_gives : Gives foreignModel fun m => Fields.WellFormed m.fields := by
  unfold foreignModel
  refine .seq fun _ => .seq fun _ => .seq fun (n, early) => .seq fun _ => .seq fun _ => ?_
  have hfields {s : ForeignModel} (hs : s.fields = []) :
      Gives (block foreignStatement s) fun m => Fields.WellFormed m.fields :=
    .block (hs ▸ .nil) fun _ => foreignStatement_gives
  exact .ite (fun _ => .seq fun _ => hfields rfl) fun _ => .seq fun _ => hfields rfl

/-! ## Streams -/

/-- The schemas have names and fields of their own. -/
structure SchemasSoFar (schemas : List StreamSchema) : Prop where
  names : NamesApart StreamSchema.name schemas
  fields : ∀ a ∈ schemas, Fields.WellFormed a.fields

theorem anotherSchema_gives {schemas : List StreamSchema} (h : SchemasSoFar schemas) :
    Gives (anotherSchema schemas) SchemasSoFar := by
  unfold anotherSchema
  refine .seq fun t => .seq fun n => .ite (fun _ => .failAt) fun hn => ?_
  exact fieldBlock_gives.bind fun fields hf =>
    .pure ⟨h.names.concat hn, forall_mem_concat h.fields hf⟩

theorem streamStatement_gives {s : Stream} (h : SchemasSoFar s.schemas) :
    Gives (streamStatement s) fun s => SchemasSoFar s.schemas := by
  unfold streamStatement
  refine .statement .schema h ?_ fun k hk => ?_
  · refine .seq fun _ => .ite (fun _ => .passOver h) fun _ => .seq fun _ => ?_
    exact (anotherSchema_gives h).bind fun _ h => .pure h
  · split <;> first | exact absurd rfl hk | infer_instance

theorem stream_gives : Gives stream Stream.WellFormed := by
  unfold stream
  refine .seq fun _ => .seq fun _ => .seq fun (n, title) => ?_
  refine .bind (.block ⟨.nil, List.forall_mem_nil _⟩ fun _ => streamStatement_gives) fun s h => ?_
  refine .ite (fun _ => .failIn) fun hne => .ite (fun _ => .failIn) fun _ => .pure ?_
  rw [List.isEmpty_iff] at hne
  exact ⟨hne, h.names, h.fields⟩

end Parser

end Blueprint
