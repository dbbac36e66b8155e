import Blueprint.Expr.Grammar
import Blueprint.Proofs.Running
import Mathlib.Data.List.Induction

/-!
# Written words

How names, and items with separators between them, are written as tokens, and that the parser reads
them back (`Recovers`). Only the class of a sign or of a keyword counts, not the text of its token.
-/

namespace Blueprint

/-- The class of a word, which its spelling decides. -/
def TokenKind.ofWord (s : String) : TokenKind :=
  match Keyword.ofSpelling? s with
  | some k => .keyword k
  | none => .identifier

/-- The token is the word `s`. -/
structure Token.Spells (t : Token) (s : String) : Prop where
  kind : t.kind = .ofWord s
  text : t.text = s

/-- The word is not reserved. -/
def CanName (s : String) : Prop := (Keyword.ofSpelling? s).all Keyword.canName = true

instance : DecidablePred CanName := fun s =>
  inferInstanceAs (Decidable ((Keyword.ofSpelling? s).all Keyword.canName = true))

/-- The tokens of items, one at least, with a separator between two of them. -/
inductive Separated {α : Type} (separator : TokenKind) (W : α → List Token → Prop) :
    List α → List Token → Prop where
  | one {a : α} {ts : List Token} (h : W a ts) : Separated separator W [a] ts
  | more {as : List α} {a : α} {t : Token} {ts us : List Token} (h : Separated separator W as ts)
    (ht : t.kind = separator) (ha : W a us) : Separated separator W (as ++ [a]) (ts ++ t :: us)

/-- The token of a word. -/
def WordWritten (s : String) (ts : List Token) : Prop := ∃ t : Token, t.Spells s ∧ ts = [t]

namespace Separated

variable {α : Type} {separator : TokenKind} {W : α → List Token → Prop} {as : List α}
  {ts : List Token}

theorem and {P : α → Prop} (h : Separated separator W as ts) (has : ∀ a ∈ as, P a) :
    Separated separator (fun a us => P a ∧ W a us) as ts := by
  induction h with
  | one ha => exact .one ⟨has _ (List.mem_singleton.2 rfl), ha⟩
  | more _ ht ha ih =>
    rw [List.forall_mem_append, List.forall_mem_singleton] at has
    exact .more (ih has.1) ht ⟨has.2, ha⟩

/-- The first item stands at the front, and a separator behind it unless it is the only one. -/
theorem exists_first (h : Separated separator W as ts) :
    ∃ a as' us vs, as = a :: as' ∧ ts = us ++ vs ∧ W a us ∧
      (vs = [] ∨ ∃ t more, vs = t :: more ∧ t.kind = separator) := by
  induction h with
  | one ha => exact ⟨_, [], _, [], rfl, (List.append_nil _).symm, ha, .inl rfl⟩
  | more _ ht _ ih =>
    obtain ⟨a, as', us, vs, rfl, rfl, ha, hvs⟩ := ih
    refine ⟨a, _, us, _, rfl, List.append_assoc .., ha, .inr ?_⟩
    rcases hvs with rfl | ⟨s, more, rfl, hs⟩
    · exact ⟨_, _, rfl, ht⟩
    · exact ⟨s, _, rfl, hs⟩

theorem exists_of_forall (separator : TokenKind) (hne : as ≠ []) (has : ∀ a ∈ as, ∃ us, W a us) :
    ∃ ts, Separated separator W as ts := by
  induction as using List.reverseRecOn with
  | nil => exact absurd rfl hne
  | append_singleton as a ih =>
    rw [List.forall_mem_append, List.forall_mem_singleton] at has
    obtain ⟨us, hus⟩ := has.2
    by_cases hnil : as = []
    · rw [hnil]
      exact ⟨us, .one hus⟩
    · obtain ⟨ts, hts⟩ := ih hnil has.1
      exact ⟨_, .more (t := ⟨separator, "", 0, 0⟩) hts rfl hus⟩

end Separated

/-! ## Words -/

theorem Token.Spells.isWord {t : Token} {s : String} (h : t.Spells s) : t.isWord = true := by
  unfold Token.isWord
  rw [h.kind]
  unfold TokenKind.ofWord
  cases Keyword.ofSpelling? s <;> rfl

theorem Keyword.spelling_of_ofSpelling? {s : String} {k : Keyword}
    (h : Keyword.ofSpelling? s = some k) : k.spelling = s := by
  unfold Keyword.ofSpelling? at h
  have hspelled := List.find?_some h
  exact beq_iff_eq.1 hspelled

namespace CanName

variable {s : String} {k : Keyword}

/-- The class of a name is that of no reserved word, and of no sign. -/
theorem ofWord_cases (h : CanName s) : TokenKind.ofWord s = .identifier ∨
    ∃ k : Keyword, TokenKind.ofWord s = .keyword k ∧ k.spelling = s ∧ k.canName = true := by
  unfold TokenKind.ofWord
  unfold CanName at h
  cases hk : Keyword.ofSpelling? s with
  | none => exact .inl rfl
  | some k =>
    rw [hk] at h
    exact .inr ⟨k, rfl, Keyword.spelling_of_ofSpelling? hk, h⟩

theorem ofWord_ne_keyword (h : CanName s) (hk : k.canName = false ∨ s ≠ k.spelling) :
    TokenKind.ofWord s ≠ .keyword k := by
  intro e
  obtain hid | ⟨k', hword, hs, hcan⟩ := h.ofWord_cases
  · cases hid.symm.trans e
  · cases hword.symm.trans e
    rcases hk with hk | hk
    · rw [hcan] at hk
      cases hk
    · exact hk hs.symm

theorem ofWord_ne_sign (hs : CanName s) {k : TokenKind} (hid : k ≠ .identifier)
    (hk : ∀ w, k ≠ .keyword w) : TokenKind.ofWord s ≠ k := by
  obtain h | ⟨w, h, -⟩ := hs.ofWord_cases
  · rw [h]
    exact hid.symm
  · rw [h]
    exact (hk w).symm

end CanName

theorem exists_wordWritten (s : String) : ∃ ts, WordWritten s ts :=
  ⟨[⟨.ofWord s, s, 0, 0⟩], ⟨.ofWord s, s, 0, 0⟩, ⟨rfl, rfl⟩, rfl⟩

namespace Parser

variable {α : Type} {scope : Scope} {ts rest : List Token} {t : Token} {s : String}

theorem name_of_spells (ht : t.Spells s) (hs : CanName s) :
    name scope (t :: ts) = .ok (s, ts) := by
  unfold name
  rw [bind_eq_ok (current_apply _ _), head_cons, ht.kind]
  have hread : (advance >>= fun t => pure t.text : Parser String) scope (t :: ts) =
      .ok (s, ts) := by
    rw [bind_eq_ok (advance_apply _ _), ← ht.text]
    rfl
  obtain hid | ⟨k, hword, -, hcan⟩ := hs.ofWord_cases
  · rw [hid]
    exact hread
  · rw [hword]
    dsimp only
    rw [if_pos hcan]
    exact hread

/-! ## Items with separators -/

/-- Of at most `n` tokens, the parser reads the written value at their front, in front of whatever
may stand behind it. -/
def Recovers (p : Parser α) (scope : Scope) (n : Nat) (ends : List Token → Prop)
    (W : α → List Token → Prop) : Prop :=
  ∀ a ts rest, W a ts → ends rest → (ts ++ rest).length ≤ n →
    p scope (ts ++ rest) = .ok (a, rest)

section

variable {σ : Type} {separator : TokenKind} {item : σ → Parser σ} {s s' : σ}

/-- One round of `separatedFold`. -/
def separatedStep (separator : TokenKind) (item : σ → Parser σ) (s : σ) : Parser (Option σ) := do
  if ← accept separator then return some (← item s) else return none

theorem separatedFold_of_item (h : item s scope ts = .ok (s', rest)) :
    separatedFold separator item s scope ts =
      iterateOn (separatedStep separator item) scope s' rest := by
  unfold separatedFold
  rw [bind_eq_ok h]
  rfl

theorem separatedStep_of_item (ht : t.kind = separator) (h : item s scope ts = .ok (s', rest)) :
    separatedStep separator item s scope (t :: ts) = .ok (some s', rest) := by
  unfold separatedStep
  rw [bind_eq_ok (accept_of_eq ht), if_pos rfl, bind_eq_ok h]
  rfl

theorem separatedStep_of_stop (h : (head scope ts).kind ≠ separator) :
    separatedStep separator item s scope ts = .ok (none, ts) := by
  unfold separatedStep
  rw [bind_eq_ok (accept_apply _ _ _ ▸ if_neg h)]
  rfl

/-- Items that are read are a state of the loop: the induction is on the items, from the left. It
needs of them what is kept when the last one is left out. -/
theorem separatedFold_eq_iterateOn (state : List α → σ) (I : List α → Prop)
    (ends : List Token → Prop) {as : List α} {n : Nat} {W : α → List Token → Prop}
    (hitem : ∀ as a us rest, I (as ++ [a]) → W a us → ends rest → (us ++ rest).length ≤ n →
      item (state as) scope (us ++ rest) = .ok (state (as ++ [a]), rest))
    (hI : ∀ as a, I (as ++ [a]) → I as) (hends : ∀ t us, t.kind = separator → ends (t :: us))
    (h : Separated separator W as ts) (has : I as) (hrest : ends rest)
    (hn : (ts ++ rest).length ≤ n) :
    separatedFold separator item (state []) scope (ts ++ rest) =
      iterateOn (separatedStep separator item) scope (state as) rest := by
  induction h generalizing rest with
  | one ha => exact separatedFold_of_item (hitem [] _ _ _ has ha hrest hn)
  | @more as a t ts us _ ht ha ih =>
    rw [List.append_assoc, List.cons_append] at hn ⊢
    rw [ih (hI as a has) (hends t _ ht) hn]
    have hlength : (us ++ rest).length ≤ n := by
      simp only [List.length_append, List.length_cons] at hn ⊢
      omega
    have hnext := hitem as a us rest has ha hrest hlength
    rw [iterateOn_of_some (separatedStep_of_item ht hnext), if_pos]
    simp only [List.length_append, List.length_cons]
    omega

end

section

variable {separator : TokenKind} {item : Parser α} {a : α} {as : List α} {n : Nat}
  {ends : List Token → Prop} {W : α → List Token → Prop}

theorem concat_of_item (h : item scope ts = .ok (a, rest)) (as : List α) :
    (do return as ++ [← item] : Parser (List α)) scope ts = .ok (as ++ [a], rest) := by
  rw [bind_eq_ok h]
  rfl

/-- Items with separators between them are read back, unless another separator follows. -/
theorem recovers_separated (hitem : Recovers item scope n ends W)
    (hends : ∀ t us, t.kind = separator → ends (t :: us)) :
    Recovers (separated separator item) scope n
      (fun rest => ends rest ∧ (head scope rest).kind ≠ separator) (Separated separator W) := by
  intro as ts rest h hrest hn
  have hstep (as : List α) (a : α) (us rest : List Token) (ha : W a us) (hrest : ends rest)
      (hn : (us ++ rest).length ≤ n) :
      (do return as ++ [← item] : Parser (List α)) scope (us ++ rest) = .ok (as ++ [a], rest) :=
    concat_of_item (hitem a us rest ha hrest hn) as
  have hread : separated separator item scope (ts ++ rest) =
      iterateOn (separatedStep separator fun as => do return as ++ [← item]) scope as rest :=
    separatedFold_eq_iterateOn id (fun _ => True) ends (fun as a us rest _ => hstep as a us rest)
      (fun _ _ _ => trivial) hends h trivial hrest.1 hn
  exact hread.trans (iterateOn_of_none (separatedStep_of_stop hrest.2))

end

end Parser

/-! ## Paths -/

namespace FieldPath

variable {p : FieldPath} {ts : List Token}

/-- Words with points between them. -/
def Written (p : FieldPath) (ts : List Token) : Prop := Separated .dot WordWritten p.segments ts

/-- Names, one at least. -/
structure Writable (p : FieldPath) : Prop where
  nonempty : p.segments ≠ []
  names : ∀ s ∈ p.segments, CanName s

theorem Writable.exists_written (h : p.Writable) : ∃ ts, p.Written ts :=
  Separated.exists_of_forall .dot h.nonempty fun s _ => exists_wordWritten s

/-- A path starts with its root, and goes on with a point if at all. -/
theorem Written.exists_root (h : p.Written ts) : ∃ t us, ts = t :: us ∧ t.Spells p.root ∧
    (us = [] ∨ ∃ d more, us = d :: more ∧ d.kind = .dot) := by
  obtain ⟨s, ss, us, vs, hs, rfl, ⟨t, ht, rfl⟩, hvs⟩ := h.exists_first
  refine ⟨t, vs, rfl, ?_, hvs⟩
  unfold FieldPath.root
  rw [hs]
  exact ht

theorem Writable.root (h : p.Writable) : CanName p.root := by
  obtain ⟨s, ss, hs⟩ := List.exists_cons_of_ne_nil h.nonempty
  unfold FieldPath.root
  rw [hs]
  exact h.names s (hs ▸ List.mem_cons_self)

end FieldPath

namespace Parser

variable {scope : Scope} {ts rest : List Token} {p : FieldPath}

theorem fieldPath_of_written (h : p.Written ts) (hp : p.Writable)
    (hrest : (head scope rest).kind ≠ .dot) : fieldPath scope (ts ++ rest) = .ok (p, rest) := by
  have hname : Recovers name scope (ts ++ rest).length (fun _ => True)
      (fun s us => CanName s ∧ WordWritten s us) := by
    rintro s us more ⟨hs, t, ht, rfl⟩ - -
    exact name_of_spells ht hs
  unfold fieldPath
  rw [bind_eq_ok (recovers_separated hname (fun _ _ _ => trivial) p.segments ts rest
    (h.and hp.names) ⟨trivial, hrest⟩ (Nat.le_refl _))]
  rfl

end Parser

end Blueprint
