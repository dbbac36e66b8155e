/-!
# Success of a chain of stages

A chain of stages succeeds exactly if each stage succeeds on what the last one leaves. Two chains
are alike if, stage by stage, both succeed or both fail, and what they leave or report is related
(`Alike.bind`).
-/

namespace Except

variable {ε ε' α β : Type}

theorem bind_eq_ok_iff {x : Except ε α} {f : α → Except ε β} {b : β} :
    (x >>= f) = .ok b ↔ ∃ a, x = .ok a ∧ f a = .ok b := by
  cases x with
  | error e =>
    constructor
    · intro h; cases h
    · rintro ⟨a, h, _⟩; cases h
  | ok a =>
    constructor
    · intro h; exact ⟨a, rfl, h⟩
    · rintro ⟨a', h, hf⟩; cases h; exact hf

theorem mapError_eq_ok_iff {x : Except ε α} {f : ε → ε'} {a : α} :
    x.mapError f = .ok a ↔ x = .ok a := by
  cases x with
  | error e => exact iff_of_false nofun nofun
  | ok a' =>
    constructor
    · intro h; cases h; rfl
    · intro h; cases h; rfl

theorem exists_eq_ok_of_any {x : Except ε α} {p : α → Bool} (h : x.toOption.any p = true) :
    ∃ a, x = .ok a ∧ p a = true := by
  cases x with
  | error e => cases h
  | ok a => exact ⟨a, rfl, h⟩

/-- A stage that refuses whatever it has found succeeds exactly if it finds nothing. -/
theorem ite_isEmpty_eq_ok_iff {l : List β} {e : ε} :
    (if l.isEmpty then (.ok () : Except ε Unit) else .error e) = .ok () ↔ l = [] := by
  cases l <;> simp

/-! ## Two chains -/

section

variable {ι ι' α' β' : Type}

/-- Both succeed with related results, or both fail with related errors. -/
inductive Alike (R : ε → ε' → Prop) (S : α → β → Prop) : Except ε α → Except ε' β → Prop where
  | error {e : ε} {e' : ε'} (h : R e e') : Alike R S (.error e) (.error e')
  | ok {a : α} {b : β} (h : S a b) : Alike R S (.ok a) (.ok b)

namespace Alike

variable {R : ε → ε' → Prop} {S : α → β → Prop} {T : α' → β' → Prop} {x : Except ε α}
  {y : Except ε' β}

theorem of_iff (hok : (∃ a, x = .ok a) ↔ ∃ b, y = .ok b)
    (hS : ∀ a b, x = .ok a → y = .ok b → S a b)
    (hR : ∀ e e', x = .error e → y = .error e' → R e e') : Alike R S x y := by
  cases x with
  | ok a =>
    obtain ⟨b, rfl⟩ := hok.1 ⟨a, rfl⟩
    exact .ok (hS a b rfl rfl)
  | error e =>
    cases y with
    | ok b => exact nomatch hok.2 ⟨b, rfl⟩
    | error e' => exact .error (hR e e' rfl rfl)

/-- Of checks that leave nothing, it is enough that both succeed or both fail. -/
theorem of_check_iff {x : Except ε Unit} {y : Except ε' Unit} (hok : x = .ok () ↔ y = .ok ())
    (hR : ∀ e e', x = .error e → y = .error e' → R e e') :
    Alike R (fun _ _ => True) x y :=
  of_iff ⟨fun ⟨_, h⟩ => ⟨(), hok.1 h⟩, fun ⟨_, h⟩ => ⟨(), hok.2 h⟩⟩ (fun _ _ _ _ => trivial) hR

theorem bind (h : Alike R S x y) {f : α → Except ε α'} {g : β → Except ε' β'}
    (hf : ∀ a b, S a b → Alike R T (f a) (g b)) : Alike R T (x >>= f) (y >>= g) := by
  cases h with
  | error h => exact .error h
  | ok h => exact hf _ _ h

theorem mapError (h : Alike R S x y) {Q : ι → ι' → Prop} {f : ε → ι} {g : ε' → ι'}
    (hR : ∀ e e', R e e' → Q (f e) (g e')) : Alike Q S (x.mapError f) (y.mapError g) := by
  cases h with
  | error h => exact .error (hR _ _ h)
  | ok h => exact .ok h

theorem exists_error (h : Alike R S x y) {e : ε} (he : x = .error e) :
    ∃ e', y = .error e' ∧ R e e' := by
  cases h with
  | error h => cases he; exact ⟨_, rfl, h⟩
  | ok h => cases he

theorem exists_ok (h : Alike R S x y) {a : α} (ha : x = .ok a) : ∃ b, y = .ok b ∧ S a b := by
  cases h with
  | error h => cases ha
  | ok h => cases ha; exact ⟨_, rfl, h⟩

theorem refl (x : Except ε α) : Alike Eq Eq x x := by
  cases x with
  | error e => exact .error rfl
  | ok a => exact .ok rfl

end Alike

/-- A chain is mapped to another if they report the same and what they leave is mapped. -/
theorem alike_map_iff {f : α → β} {x : Except ε α} {y : Except ε β} :
    Alike Eq (fun a b => f a = b) x y ↔ x.map f = y := by
  constructor
  · rintro (⟨⟨⟩⟩ | ⟨⟨⟩⟩) <;> rfl
  · rintro rfl
    cases x with
    | error e => exact .error rfl
    | ok a => exact .ok rfl

end

end Except
