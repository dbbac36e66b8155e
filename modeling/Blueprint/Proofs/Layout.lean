import Blueprint.Parser.Block
import Mathlib.Data.List.Forall2

/-!
# The layout of tokens

A `Position` between two tokens says how many blocks are open and whether a line has begun.
`Position.ClosedBy` says of the tokens behind it that they end whatever is open there and whatever
they open themselves. This is all that a parser relies on to stop in time: as long as anything is
open, there is a token to look at (`ClosedBy.exists_cons`), and passing over a statement ends at the
end of its line or block, whatever stands behind (`skipStatement_of_closedBy`).
-/

namespace Blueprint

/-- A place between tokens. -/
structure Position where
  /-- The number of open blocks. -/
  depth : Nat
  /-- Whether a line has begun and not ended. -/
  inLine : Bool
  deriving DecidableEq

namespace Position

/-- The start of a file, or its end. -/
def outside : Position := ⟨0, false⟩

theorem inLine_ne_outside {depth : Nat} : (⟨depth, true⟩ : Position) ≠ outside := by
  intro e
  cases congrArg inLine e

theorem ne_outside_of_pos {s : Position} (h : 0 < s.depth) : s ≠ outside := by
  rintro rfl
  exact Nat.lt_irrefl 0 h

/-- The tokens end what is open at the position. -/
inductive ClosedBy : Position → List Token → Prop where
  | nil : ClosedBy outside []
  | plain {depth inLine t ts} (ht : t.kind.endsStatement = false) :
    ClosedBy ⟨depth, true⟩ ts → ClosedBy ⟨depth, inLine⟩ (t :: ts)
  | newline {depth inLine t ts} (ht : t.kind = .newline) (hx : t.text = "") :
    ClosedBy ⟨depth, false⟩ ts → ClosedBy ⟨depth, inLine⟩ (t :: ts)
  | indent {depth t ts} (ht : t.kind = .indent) (hx : t.text = "") :
    ClosedBy ⟨depth + 1, false⟩ ts → ClosedBy ⟨depth, false⟩ (t :: ts)
  | dedent {depth t ts} (ht : t.kind = .dedent) (hx : t.text = "") :
    ClosedBy ⟨depth, false⟩ ts → ClosedBy ⟨depth + 1, false⟩ (t :: ts)

namespace ClosedBy

variable {s : Position} {t : Token} {ts : List Token}

/-- As long as anything is open, there is a token. -/
theorem exists_cons (h : s.ClosedBy ts) (hs : s ≠ outside) : ∃ t rest, ts = t :: rest := by
  cases h with
  | nil => exact absurd rfl hs
  | _ => exact ⟨_, _, rfl⟩

theorem eq_outside (h : s.ClosedBy []) : s = outside := by
  cases h
  rfl

theorem kind_ne_endOfFile (h : s.ClosedBy (t :: ts)) : t.kind ≠ .endOfFile := by
  intro e
  cases h with
  | plain ht => rw [e] at ht; cases ht
  | newline ht | indent ht | dedent ht => rw [e] at ht; cases ht

/-- Marks of layout have no text. -/
theorem text_of_endsStatement (h : s.ClosedBy (t :: ts)) (ht : t.kind.endsStatement = true) :
    t.text = "" := by
  cases h with
  | plain hp => rw [hp] at ht; cases ht
  | newline _ hx | indent _ hx | dedent _ hx => exact hx

/-- Inside a line, only its end can stand. -/
theorem of_endsStatement (h : s.ClosedBy (t :: ts)) (ht : t.kind.endsStatement = true) :
    t.kind = .newline ∨ s.inLine = false := by
  cases h with
  | plain hp => rw [hp] at ht; cases ht
  | newline hk => exact .inl hk
  | indent | dedent => exact .inr rfl

theorem of_plain (h : s.ClosedBy (t :: ts)) (ht : t.kind.endsStatement = false) :
    (⟨s.depth, true⟩ : Position).ClosedBy ts := by
  cases h with
  | plain _ h => exact h
  | newline hk | indent hk | dedent hk => rw [hk] at ht; cases ht

theorem of_newline (h : s.ClosedBy (t :: ts)) (ht : t.kind = .newline) :
    (⟨s.depth, false⟩ : Position).ClosedBy ts := by
  cases h with
  | plain hk => rw [ht] at hk; cases hk
  | newline _ _ h => exact h
  | indent hk | dedent hk => rw [ht] at hk; cases hk

theorem of_indent (h : s.ClosedBy (t :: ts)) (ht : t.kind = .indent) :
    s.inLine = false ∧ (⟨s.depth + 1, false⟩ : Position).ClosedBy ts := by
  cases h with
  | plain hk => rw [ht] at hk; cases hk
  | indent _ _ h => exact ⟨rfl, h⟩
  | newline hk | dedent hk => rw [ht] at hk; cases hk

theorem of_dedent (h : s.ClosedBy (t :: ts)) (ht : t.kind = .dedent) :
    s.inLine = false ∧ ∃ depth, s.depth = depth + 1 ∧
      (⟨depth, false⟩ : Position).ClosedBy ts := by
  cases h with
  | plain hk => rw [ht] at hk; cases hk
  | dedent _ _ h => exact ⟨rfl, _, rfl, h⟩
  | newline hk | indent hk => rw [ht] at hk; cases hk

/-- What ends some of the open blocks, and then what ends the others. -/
theorem append {depth : Nat} {us : List Token} (h : s.ClosedBy ts)
    (h' : (⟨depth, false⟩ : Position).ClosedBy us) :
    (⟨s.depth + depth, s.inLine⟩ : Position).ClosedBy (ts ++ us) := by
  induction h with
  | nil =>
    rw [List.nil_append]
    show (⟨0 + depth, false⟩ : Position).ClosedBy us
    rwa [Nat.zero_add]
  | plain ht _ ih => exact .plain ht ih
  | newline ht hx _ ih => exact .newline ht hx ih
  | @indent d t ts ht hx _ ih =>
    refine .indent ht hx ?_
    have hd : d + depth + 1 = d + 1 + depth := by omega
    rw [hd]
    exact ih
  | @dedent d t ts ht hx _ ih =>
    show (⟨d + 1 + depth, false⟩ : Position).ClosedBy _
    have hd : d + 1 + depth = d + depth + 1 := by omega
    rw [hd]
    exact .dedent ht hx ih

/-- Only classes and texts matter. -/
theorem of_forall₂ {r : Token → Token → Prop} {ts' : List Token}
    (hr : ∀ t t', r t t' → t'.kind = t.kind ∧ t'.text = t.text) (h : s.ClosedBy ts)
    (he : List.Forall₂ r ts ts') : s.ClosedBy ts' := by
  induction h generalizing ts' with
  | nil => cases he; exact .nil
  | plain ht _ ih =>
    cases he with
    | cons hd hrest => exact .plain ((hr _ _ hd).1 ▸ ht) (ih hrest)
  | newline ht hx _ ih =>
    cases he with
    | cons hd hrest =>
      exact .newline ((hr _ _ hd).1.trans ht) ((hr _ _ hd).2.trans hx) (ih hrest)
  | indent ht hx _ ih =>
    cases he with
    | cons hd hrest =>
      exact .indent ((hr _ _ hd).1.trans ht) ((hr _ _ hd).2.trans hx) (ih hrest)
  | dedent ht hx _ ih =>
    cases he with
    | cons hd hrest =>
      exact .dedent ((hr _ _ hd).1.trans ht) ((hr _ _ hd).2.trans hx) (ih hrest)

end ClosedBy

end Position

/-! ## Passing over statements -/

open Position

theorem skipBlock_of_plain {t : Token} (h : t.kind.endsStatement = false) (n : Nat)
    (ts : List Token) : skipBlock n (t :: ts) = skipBlock n ts := by
  rw [skipBlock]
  split <;> simp_all [TokenKind.endsStatement]

theorem skipBlock_of_newline {t : Token} (h : t.kind = .newline) (n : Nat) (ts : List Token) :
    skipBlock n (t :: ts) = skipBlock n ts := by
  rw [skipBlock, h]

theorem skipBlock_of_indent {t : Token} (h : t.kind = .indent) (n : Nat) (ts : List Token) :
    skipBlock n (t :: ts) = skipBlock (n + 1) ts := by
  rw [skipBlock, h]

theorem skipBlock_of_dedent {t : Token} (h : t.kind = .dedent) (n : Nat) (ts : List Token) :
    skipBlock n (t :: ts) = if n ≤ 1 then ts else skipBlock (n - 1) ts := by
  rw [skipBlock, h]

/-- Blocks that are passed over end where their tokens say, whatever stands behind. -/
theorem skipBlock_of_closedBy {s : Position} {ts : List Token} (h : s.ClosedBy ts)
    {depth n : Nat} (hd : s.depth = depth + n) (hn : 0 < n) (next : List Token) :
    (⟨depth, false⟩ : Position).ClosedBy (skipBlock n ts) ∧
      skipBlock n (ts ++ next) = skipBlock n ts ++ next := by
  induction h generalizing n with
  | nil =>
    have : 0 = depth + n := hd
    omega
  | @plain _ _ t ts ht _ ih =>
    rw [List.cons_append, skipBlock_of_plain ht, skipBlock_of_plain ht]
    exact ih hd hn
  | @newline _ _ t ts ht _ _ ih =>
    rw [List.cons_append, skipBlock_of_newline ht, skipBlock_of_newline ht]
    exact ih hd hn
  | @indent d t ts ht _ _ ih =>
    rw [List.cons_append, skipBlock_of_indent ht, skipBlock_of_indent ht]
    refine ih ?_ (by omega)
    show d + 1 = depth + (n + 1)
    have : d = depth + n := hd
    omega
  | @dedent d t ts ht _ hrest ih =>
    have hd : d + 1 = depth + n := hd
    rw [List.cons_append, skipBlock_of_dedent ht, skipBlock_of_dedent ht]
    by_cases hone : n ≤ 1
    · rw [if_pos hone, if_pos hone]
      obtain rfl : d = depth := by omega
      exact ⟨hrest, rfl⟩
    · rw [if_neg hone, if_neg hone]
      exact ih (show d = depth + (n - 1) by omega) (by omega)

/-- Blocks that are closed make no difference to where a block around them ends. -/
theorem skipBlock_of_closed {s : Position} {n : Nat} {ts : List Token} (h : s.ClosedBy ts)
    (hn : 0 < n) (next : List Token) : skipBlock (n + s.depth) (ts ++ next) = skipBlock n next := by
  induction h with
  | nil => rfl
  | plain ht _ ih => rwa [List.cons_append, skipBlock_of_plain ht]
  | newline ht _ _ ih => rwa [List.cons_append, skipBlock_of_newline ht]
  | indent ht _ _ ih => rwa [List.cons_append, skipBlock_of_indent ht]
  | @dedent d t ts ht _ _ ih =>
    rw [List.cons_append, skipBlock_of_dedent ht, if_neg (by show ¬ n + (d + 1) ≤ 1; omega)]
    exact ih

/-- Whole blocks in front make no difference to what blocks around them are passed over. -/
theorem skipBlock_skipBlock {n : Nat} (hn : 0 < n) (m : Nat) (ts : List Token) :
    skipBlock n (skipBlock (m + 1) ts) = skipBlock (n + (m + 1)) ts := by
  induction ts generalizing m with
  | nil => rfl
  | cons t ts ih =>
    rw [skipBlock, skipBlock]
    split
    · exact ih (m + 1)
    · rw [if_neg (by omega : ¬ n + (m + 1) ≤ 1)]
      cases m with
      | zero => rw [if_pos (Nat.le_refl 1)]; rfl
      | succ m =>
        rw [if_neg (by omega : ¬ m + 1 + 1 ≤ 1)]
        exact ih m
    · next hk => rw [skipBlock, hk]
    · exact ih m

/-! ## Statements -/

/-- The tokens behind the line in front of them. -/
def lineBehind (ts : List Token) : List Token :=
  skipLineEnd (ts.dropWhile fun t => !t.kind.endsStatement)

/-- Behind the end of a line, only a block that stands under it is passed over. -/
def skipUnder : List Token → List Token
  | [] => []
  | t :: ts => if t.kind = .indent then skipBlock 1 ts else t :: ts

/-- No block is opened at the front of the tokens. -/
def NoIndent (ts : List Token) : Prop := ∀ t us, ts = t :: us → t.kind ≠ .indent

theorem NoIndent.nil : NoIndent [] := fun _ _ e => by cases e

theorem NoIndent.cons {t : Token} {ts : List Token} (h : t.kind ≠ .indent) :
    NoIndent (t :: ts) := by
  intro _ _ e
  cases e
  exact h

theorem NoIndent.append {ts us : List Token} (h : ∀ t ∈ ts, t.kind ≠ .indent) (h' : NoIndent us) :
    NoIndent (ts ++ us) := by
  cases ts with
  | nil => exact h'
  | cons t ts => exact .cons (h t List.mem_cons_self)

theorem NoIndent.of_forall₂ {r : Token → Token → Prop} (hr : ∀ t t', r t t' → t'.kind = t.kind)
    {ts ts' : List Token} (h : NoIndent ts) (he : List.Forall₂ r ts ts') : NoIndent ts' := by
  cases he with
  | nil => exact .nil
  | @cons t t' ts ts' ht _ => exact .cons (hr t t' ht ▸ h t ts rfl)

theorem skipUnder_cons (t : Token) (ts : List Token) :
    skipUnder (t :: ts) = if t.kind = .indent then skipBlock 1 ts else t :: ts := rfl

theorem skipUnder_of_noIndent {ts : List Token} (h : NoIndent ts) : skipUnder ts = ts := by
  cases ts with
  | nil => rfl
  | cons t ts => rw [skipUnder_cons, if_neg (h t ts rfl)]

theorem skipLineEnd_cons (t : Token) (ts : List Token) :
    skipLineEnd (t :: ts) = if t.kind = .newline then ts else t :: ts := rfl

theorem skipStatement_eq (ts : List Token) : skipStatement ts = skipUnder (lineBehind ts) := by
  unfold skipStatement skipUnder lineBehind
  rfl

theorem lineBehind_of_ends {t : Token} (h : t.kind.endsStatement = true) (ts : List Token) :
    lineBehind (t :: ts) = skipLineEnd (t :: ts) := by
  unfold lineBehind
  rw [List.dropWhile_cons_of_neg (by rw [h]; decide)]

theorem lineBehind_of_plain {t : Token} (h : t.kind.endsStatement = false) (ts : List Token) :
    lineBehind (t :: ts) = lineBehind ts := by
  unfold lineBehind
  rw [List.dropWhile_cons_of_pos (by rw [h]; rfl)]

theorem lineBehind_of_newline {t : Token} (h : t.kind = .newline) (ts : List Token) :
    lineBehind (t :: ts) = ts := by
  rw [lineBehind_of_ends (by rw [h]; rfl), skipLineEnd_cons, if_pos h]

theorem lineBehind_of_mark {t : Token} (h : t.kind.endsStatement = true) (hn : t.kind ≠ .newline)
    (ts : List Token) : lineBehind (t :: ts) = t :: ts := by
  rw [lineBehind_of_ends h, skipLineEnd_cons, if_neg hn]

/-- A part of a line in front is passed over with it. -/
theorem lineBehind_append {read : List Token} (h : ∀ t ∈ read, t.kind.endsStatement = false)
    (ts : List Token) : lineBehind (read ++ ts) = lineBehind ts := by
  unfold lineBehind
  rw [List.dropWhile_append_of_pos fun t ht => by rw [h t ht]; rfl]

theorem skipStatement_append {read : List Token} (h : ∀ t ∈ read, t.kind.endsStatement = false)
    (ts : List Token) : skipStatement (read ++ ts) = skipStatement ts := by
  rw [skipStatement_eq, skipStatement_eq, lineBehind_append h]

/-- Of a line that ends, the end is left in front, or the mark that ends its block. -/
theorem lineBehind_of_closedBy {s : Position} {ts : List Token} (h : s.ClosedBy ts)
    (hne : ts ≠ []) (next : List Token) :
    (⟨s.depth, false⟩ : Position).ClosedBy (lineBehind ts) ∧
      lineBehind (ts ++ next) = lineBehind ts ++ next ∧ (lineBehind ts = [] → s.depth = 0) := by
  induction ts generalizing s with
  | nil => exact absurd rfl hne
  | cons t ts ih =>
    rw [List.cons_append]
    by_cases ht : t.kind.endsStatement = true
    · by_cases hline : t.kind = .newline
      · rw [lineBehind_of_newline hline, lineBehind_of_newline hline]
        refine ⟨h.of_newline hline, rfl, fun e => ?_⟩
        exact congrArg depth (e ▸ h.of_newline hline).eq_outside
      · rw [lineBehind_of_mark ht hline, lineBehind_of_mark ht hline]
        refine ⟨?_, rfl, fun e => by cases e⟩
        have hs := (h.of_endsStatement ht).resolve_left hline
        rw [← hs]
        exact h
    · have hplain := Bool.eq_false_iff.2 ht
      have hc := h.of_plain hplain
      obtain ⟨u, us, rfl⟩ := hc.exists_cons inLine_ne_outside
      rw [lineBehind_of_plain hplain, lineBehind_of_plain hplain]
      exact @ih ⟨s.depth, true⟩ hc (List.cons_ne_nil u us)

theorem skipUnder_of_closedBy {depth : Nat} {t : Token} {ts : List Token}
    (h : (⟨depth, false⟩ : Position).ClosedBy (t :: ts)) (next : List Token) :
    (⟨depth, false⟩ : Position).ClosedBy (skipUnder (t :: ts)) ∧
      skipUnder (t :: ts ++ next) = skipUnder (t :: ts) ++ next := by
  rw [List.cons_append]
  rw [skipUnder_cons, skipUnder_cons]
  by_cases ht : t.kind = .indent
  · rw [if_pos ht, if_pos ht]
    exact skipBlock_of_closedBy (h.of_indent ht).2 rfl Nat.one_pos next
  · rw [if_neg ht, if_neg ht]
    exact ⟨h, rfl⟩

/-- Passing over a statement leads to the start of a line. What stands behind the tokens does not
matter, unless they end with the line of the statement, and a block stands behind it. -/
theorem skipStatement_of_closedBy {s : Position} {ts : List Token} (h : s.ClosedBy ts)
    (hne : ts ≠ []) {next : List Token} (hnext : 0 < s.depth ∨ NoIndent next) :
    (⟨s.depth, false⟩ : Position).ClosedBy (skipStatement ts) ∧
      skipStatement (ts ++ next) = skipStatement ts ++ next := by
  obtain ⟨hc, happend, hnil⟩ := lineBehind_of_closedBy h hne next
  rw [skipStatement_eq, skipStatement_eq, happend]
  cases hline : lineBehind ts with
  | nil =>
    rw [hline] at hc
    have hd : s.depth = 0 := hnil hline
    refine ⟨hc, ?_⟩
    rw [List.nil_append]
    exact skipUnder_of_noIndent (hnext.resolve_left (by rw [hd]; exact Nat.lt_irrefl 0))
  | cons t us =>
    rw [hline] at hc
    exact skipUnder_of_closedBy hc next

theorem length_skipUnder_le (ts : List Token) : (skipUnder ts).length ≤ ts.length := by
  cases ts with
  | nil => exact Nat.le_refl 0
  | cons t ts =>
    rw [skipUnder_cons]
    split
    · exact Nat.le_succ_of_le (skipBlock_suffix 1 ts).length_le
    · exact Nat.le_refl _

theorem length_lineBehind_le (ts : List Token) : (lineBehind ts).length ≤ ts.length :=
  ((skipLineEnd_suffix _).trans (List.dropWhile_suffix _)).length_le

/-- Passing over a line that is there reads something. -/
theorem length_lineBehind_lt {t : Token} (ht : t.kind.endsStatement = false) (ts : List Token) :
    (lineBehind (t :: ts)).length < (t :: ts).length := by
  rw [lineBehind_of_plain ht]
  exact Nat.lt_succ_of_le (length_lineBehind_le ts)

/-- Passing over a statement that is there reads something. -/
theorem length_skipStatement_lt {t : Token} {ts : List Token} (hd : t.kind ≠ .dedent)
    (he : t.kind ≠ .endOfFile) : (skipStatement (t :: ts)).length < (t :: ts).length := by
  rw [skipStatement_eq]
  by_cases ht : t.kind.endsStatement = true
  · by_cases hn : t.kind = .newline
    · rw [lineBehind_of_newline hn]
      exact Nat.lt_succ_of_le (length_skipUnder_le ts)
    · have hi : t.kind = .indent := by
        cases hk : t.kind <;> rw [hk] at ht hd he hn <;> first | rfl | contradiction
      rw [lineBehind_of_mark ht hn, skipUnder_cons, if_pos hi]
      exact Nat.lt_succ_of_le (skipBlock_suffix 1 ts).length_le
  · exact Nat.lt_of_le_of_lt (length_skipUnder_le _)
      (length_lineBehind_lt (Bool.eq_false_iff.2 ht) ts)

/-! ## Statements of a block -/

section

variable {n : Nat} {ts : List Token}

/-- A line in front makes no difference to where the block around it ends. -/
theorem skipBlock_lineBehind (n : Nat) (ts : List Token) :
    skipBlock n (lineBehind ts) = skipBlock n ts := by
  induction ts with
  | nil => rfl
  | cons t ts ih =>
    by_cases ht : t.kind.endsStatement = true
    · by_cases hn : t.kind = .newline
      · rw [lineBehind_of_newline hn, skipBlock_of_newline hn]
      · rw [lineBehind_of_mark ht hn]
    · have hplain := Bool.eq_false_iff.2 ht
      rw [lineBehind_of_plain hplain, skipBlock_of_plain hplain, ih]

/-- A statement in front makes no difference to where the block around it ends. -/
theorem skipBlock_skipStatement (hn : 0 < n) (ts : List Token) :
    skipBlock n (skipStatement ts) = skipBlock n ts := by
  rw [skipStatement_eq, ← skipBlock_lineBehind n ts]
  cases lineBehind ts with
  | nil => rfl
  | cons t us =>
    rw [skipUnder_cons]
    split
    · next hi => rw [skipBlock_of_indent hi, skipBlock_skipBlock hn 0]
    · rfl

end

/-! ## Tokens of the same classes -/

section

variable {r : Token → Token → Prop} (hr : ∀ t t', r t t' → t'.kind = t.kind) {ts ts' : List Token}

include hr

theorem forall₂_skipBlock (h : List.Forall₂ r ts ts') (n : Nat) :
    List.Forall₂ r (skipBlock n ts) (skipBlock n ts') := by
  induction h generalizing n with
  | nil => exact .nil
  | @cons t t' ts ts' ht hrest ih =>
    rw [skipBlock, skipBlock, hr t t' ht]
    split
    · exact ih _
    · split
      · exact hrest
      · exact ih _
    · exact .cons ht hrest
    · exact ih _

theorem forall₂_lineBehind (h : List.Forall₂ r ts ts') :
    List.Forall₂ r (lineBehind ts) (lineBehind ts') := by
  induction h with
  | nil => exact .nil
  | @cons t t' ts ts' ht hrest ih =>
    have hkind := hr t t' ht
    by_cases hends : t.kind.endsStatement = true
    · have hends' : t'.kind.endsStatement = true := by rw [hkind, hends]
      rw [lineBehind_of_ends hends, lineBehind_of_ends hends', skipLineEnd_cons, skipLineEnd_cons,
        hkind]
      split
      · exact hrest
      · exact .cons ht hrest
    · have hplain := Bool.eq_false_iff.2 hends
      have hplain' : t'.kind.endsStatement = false := by rw [hkind, hplain]
      rw [lineBehind_of_plain hplain, lineBehind_of_plain hplain']
      exact ih

theorem forall₂_skipStatement (h : List.Forall₂ r ts ts') :
    List.Forall₂ r (skipStatement ts) (skipStatement ts') := by
  have hunder : ∀ {us us'}, List.Forall₂ r us us' →
      List.Forall₂ r (skipUnder us) (skipUnder us') := by
    intro us us' hu
    cases hu with
    | nil => exact .nil
    | @cons t t' us us' ht hrest =>
      rw [skipUnder_cons, skipUnder_cons, hr t t' ht]
      split
      · exact forall₂_skipBlock hr hrest 1
      · exact .cons ht hrest
  rw [skipStatement_eq, skipStatement_eq]
  exact hunder (forall₂_lineBehind hr h)

end

end Blueprint
