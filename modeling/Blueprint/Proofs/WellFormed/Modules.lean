import Blueprint.Proofs.ReadDeclarations
import Blueprint.Proofs.WellFormed.Entities
import Blueprint.Proofs.WellFormed.Parts
import Blueprint.Proofs.WellFormed.Steps

/-!
# Modules that are read are well-formed

Whatever is declared in a text that is read keeps to the rules of its kind
(`parseModule_wellFormed`).
-/

namespace Blueprint

namespace Parser

/-- What the parser of a kind returns is well-formed. -/
theorem wellFormed_of_isRead {k : DeclKind} {body : k.Body} (h : k.IsRead body) :
    k.WellFormed body := by
  cases k with
  | entity => exact h.of_gives entity_gives
  | archetype => exact h.of_gives archetype_gives
  | enum => exact h.of_gives enumDecl_gives
  | surface => exact h.of_gives surface_gives
  | workspace => exact h.of_gives workspace_gives
  | experience => exact h.of_gives experience_gives
  | service => exact h.of_gives service_gives
  | foreignModel => exact h.of_gives foreignModel_gives
  | integration => exact h.of_gives integration_gives
  | llmIntent => exact h.of_gives llmIntent_gives
  | transaction => exact h.of_gives transaction_gives
  | process => exact h.of_gives process_gives
  | schedule => exact h.of_gives schedule_gives
  | stream => exact h.of_gives stream_gives
  | dataProduct =>
    obtain ⟨l, hl, hmem⟩ := h
    exact hl.of_gives dataProducts_gives body hmem
  | approval => exact h.of_gives approval_gives
  | sla => exact h.of_gives sla_gives
  | webhook => exact h.of_gives webhook_gives
  | view => exact h.of_gives view_gives
  | test | flow | persona | scenario | story | llmModel | ledger | api => trivial

theorem module_gives : Gives module fun m => m.declarations.WellFormed :=
  module_gives_read.mono fun _ h k body hbody => wellFormed_of_isRead (h k body hbody)

end Parser

/-- Whatever is declared in a text that is read is well-formed. -/
theorem parseModule_wellFormed {file text : String} {m : Module}
    (h : parseModule file text = .ok m) : m.declarations.WellFormed := by
  unfold parseModule at h
  rw [Except.mapError_eq_ok_iff, Except.bind_eq_ok_iff] at h
  obtain ⟨tokens, -, h⟩ := h
  exact Parser.module_gives.runOn h

/-- The rules, kept by a text with one entity. -/
theorem parseModule_wellFormed_shop : ∃ m,
    parseModule "shop.dsl" ("entity Order:\n  total: decimal(10,2) required\n" ++
      "  state: enum[open, paid]\n") = .ok m ∧
    m.declarations.WellFormed ∧ m.declarations.entities.length = 1 := by
  obtain ⟨m, hm, hlength⟩ := Except.exists_eq_ok_of_any
    (x := parseModule "shop.dsl" ("entity Order:\n  total: decimal(10,2) required\n" ++
      "  state: enum[open, paid]\n"))
    (p := fun m => m.declarations.entities.length = 1) (by decide +kernel)
  exact ⟨m, hm, parseModule_wellFormed hm, of_decide_eq_true hlength⟩

end Blueprint
