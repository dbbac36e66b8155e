import Blueprint.Proofs.Concatenation
import Blueprint.Proofs.Indentation

/-!
# Balance

Reading a file keeps to its blocks. Whatever has been read at the start of a round of the loop over
the statements of a file closes the blocks that it opens (`Balanced`), and each round reads ends of
lines and then one statement: a line, or a line and the block under it (`IsStatement`). So a file
that can be read is read to its end (`reaches_balanced`).
-/

namespace Blueprint

/-- The tokens close the blocks that they open, and no others. -/
structure Balanced (ts : List Token) : Prop where
  settled : closed ts = opened ts
  le_of_prefix : ∀ us, us <+: ts → closed us ≤ opened us

/-- The tokens of a line that ends, with or without a block under it. -/
inductive IsStatement : List Token → Prop where
  | line {content : List Token} {newline : Token}
    (hcontent : ∀ t ∈ content, t.kind.endsStatement = false) (hnewline : newline.kind = .newline) :
    IsStatement (content ++ [newline])
  | block {content body : List Token} {newline indent dedent : Token}
    (hcontent : ∀ t ∈ content, t.kind.endsStatement = false) (hnewline : newline.kind = .newline)
    (hindent : indent.kind = .indent) (hbody : Balanced body) (hdedent : dedent.kind = .dedent) :
    IsStatement (content ++ newline :: indent :: body ++ [dedent])

/-- The tokens close all but one of `n` blocks that are open in front of them, and those that they
open. -/
structure Closes (n : Nat) (ts : List Token) : Prop where
  settled : closed ts + 1 = opened ts + n
  lt_of_prefix : ∀ us, us <+: ts → closed us < opened us + n

theorem Closes.nil : Closes 1 [] := by
  refine ⟨rfl, fun us hus => ?_⟩
  rw [List.prefix_nil.1 hus]
  exact Nat.one_pos

/-- With one more token in front, the number of open blocks is what it was there. -/
theorem Closes.cons {n m : Nat} {t : Token} {ts : List Token} (h : Closes m ts) (hn : 0 < n)
    (hm : closed [t] + m = opened [t] + n) : Closes n (t :: ts) where
  settled := by
    have hsettled := h.settled
    rw [← List.singleton_append, closed_append, opened_append]
    omega
  lt_of_prefix us hus := by
    rcases List.prefix_cons_iff.1 hus with rfl | ⟨vs, rfl, hvs⟩
    · show 0 < 0 + n
      omega
    · have hlt := h.lt_of_prefix vs hvs
      rw [← List.singleton_append, closed_append, opened_append]
      omega

theorem Closes.balanced {ts : List Token} (h : Closes 1 ts) : Balanced ts :=
  ⟨Nat.succ.inj h.settled, fun us hus => Nat.le_of_lt_succ (h.lt_of_prefix us hus)⟩

open Blueprint.Parser

/-- How far the loop over the statements of a file gets: the declared name of the module, what has
been declared, and the tokens that are left. -/
inductive Reaches (file : String) (final : Token) (ts : List Token) :
    Option String → FileDraft → List Token → Prop where
  | header {declared rest} (h : moduleName? ⟨file, none, final⟩ ts = .ok (declared, rest)) :
    Reaches file final ts declared {} rest
  | statement {declared d v mid rest} :
    Reaches file final ts declared d mid →
    fileStatement? d ⟨file, declared, final⟩ mid = .ok (some v, rest) →
    Reaches file final ts declared v rest

/-! ## Statements -/

section

variable {depth : Nat} {s : Position} {t : Token} {ts us rest : List Token}

namespace Position.ClosedBy

/-- A line that has begun ends. -/
theorem exists_line (h : (⟨depth, true⟩ : Position).ClosedBy ts) : ∃ content newline,
    ts = content ++ newline :: lineBehind ts ∧ (∀ t ∈ content, t.kind.endsStatement = false) ∧
      newline.kind = .newline ∧ (⟨depth, false⟩ : Position).ClosedBy (lineBehind ts) := by
  induction ts with
  | nil => exact absurd rfl h.ne_nil
  | cons t ts ih =>
    by_cases ht : t.kind.endsStatement = true
    · have hn : t.kind = .newline := (h.of_endsStatement ht).resolve_right nofun
      rw [lineBehind_of_newline hn]
      exact ⟨[], t, rfl, List.forall_mem_nil _, hn, h.of_newline hn⟩
    · have hplain := Bool.eq_false_iff.2 ht
      obtain ⟨content, newline, e, hcontent, hn, hc⟩ := ih (h.of_plain hplain)
      rw [lineBehind_of_plain hplain]
      refine ⟨t :: content, newline, congrArg (t :: ·) e, fun u hu => ?_, hn, hc⟩
      rcases List.mem_cons.1 hu with rfl | hu
      · exact hplain
      · exact hcontent u hu

/-- Open blocks end with the mark that closes the outermost of them. The induction is on the tokens;
the number of open blocks changes with them. -/
theorem exists_block {n : Nat} (h : s.ClosedBy ts) (hs : s.depth = depth + n) (hn : 0 < n) :
    ∃ body dedent, ts = body ++ dedent :: skipBlock n ts ∧ dedent.kind = .dedent ∧
      Closes n body := by
  induction h generalizing n with
  | nil =>
    have hs : 0 = depth + n := hs
    omega
  | @plain _ _ t ts ht _ ih =>
    obtain ⟨body, dedent, e, hd, hb⟩ := ih hs hn
    have hplain : ∀ u ∈ [t], u.kind.endsStatement = false := fun u hu => by
      rwa [List.eq_of_mem_singleton hu]
    obtain ⟨ho, hc⟩ := balance_of_plain hplain
    have hm : closed [t] + n = opened [t] + n := by rw [ho, hc]
    rw [skipBlock_of_plain ht]
    exact ⟨t :: body, dedent, congrArg (t :: ·) e, hd, hb.cons hn hm⟩
  | @newline _ _ t ts ht _ _ ih =>
    obtain ⟨body, dedent, e, hd, hb⟩ := ih hs hn
    have hm : closed [t] + n = opened [t] + n := by simp [opened, closed, ht]
    rw [skipBlock_of_newline ht]
    exact ⟨t :: body, dedent, congrArg (t :: ·) e, hd, hb.cons hn hm⟩
  | @indent d t ts ht _ _ ih =>
    have hs : d = depth + n := hs
    obtain ⟨body, dedent, e, hd, hb⟩ := ih (n := n + 1) (by show d + 1 = _; omega) (by omega)
    have hm : closed [t] + (n + 1) = opened [t] + n := by simp [opened, closed, ht]; omega
    rw [skipBlock_of_indent ht]
    exact ⟨t :: body, dedent, congrArg (t :: ·) e, hd, hb.cons hn hm⟩
  | @dedent d t ts ht _ _ ih =>
    have hs : d + 1 = depth + n := hs
    rw [skipBlock_of_dedent ht]
    by_cases hone : n ≤ 1
    · rw [if_pos hone]
      obtain rfl : n = 1 := by omega
      exact ⟨[], t, rfl, ht, .nil⟩
    · obtain ⟨body, dedent, e, hd, hb⟩ := ih (n := n - 1) (by show d = _; omega) (by omega)
      have hm : closed [t] + (n - 1) = opened [t] + n := by simp [opened, closed, ht]; omega
      rw [if_neg hone]
      exact ⟨t :: body, dedent, congrArg (t :: ·) e, hd, hb.cons hn hm⟩

end Position.ClosedBy

/-- What stands in front of the tokens behind a statement is one statement. -/
theorem exists_isStatement (hc : (⟨depth, true⟩ : Position).ClosedBy ts)
    (h : EndsStatement ts rest) : ∃ statement, ts = statement ++ rest ∧ IsStatement statement := by
  obtain ⟨content, newline, e, hcontent, hnewline, hc'⟩ := hc.exists_line
  have hline : ts = content ++ [newline] ++ lineBehind ts := by
    rw [List.append_assoc]
    exact e
  rcases h with rfl | rfl
  · exact ⟨content ++ [newline], hline, .line hcontent hnewline⟩
  rw [skipStatement_eq]
  cases hus : lineBehind ts with
  | nil =>
    rw [hus] at hline
    exact ⟨content ++ [newline], hline, .line hcontent hnewline⟩
  | cons t us =>
    rw [hus] at hline e hc'
    rw [skipUnder_cons]
    split
    · next hi =>
      obtain ⟨body, dedent, hbody, hd, hcloses⟩ :=
        (hc'.of_indent hi).2.exists_block rfl Nat.one_pos
      refine ⟨content ++ newline :: t :: body ++ [dedent], ?_,
        .block hcontent hnewline hi hcloses.balanced hd⟩
      rw [e]
      simp only [List.append_assoc, List.cons_append, List.nil_append]
      rw [← hbody]
    · exact ⟨content ++ [newline], hline, .line hcontent hnewline⟩

end

/-! ## Rounds -/

section

variable {file : String} {final : Token} (hf : final.kind = .endOfFile) {ts mid rest : List Token}
  {declared : Option String} {d v : FileDraft}

include hf

/-- The header of a file leaves tokens that end whatever they open. -/
theorem closedBy_of_moduleName? (hc : Position.outside.ClosedBy ts)
    (h : moduleName? ⟨file, none, final⟩ ts = .ok (declared, rest)) :
    rest <:+ ts ∧ Position.outside.ClosedBy rest := by
  by_cases hne : behindNewlines ts = []
  · rw [moduleName?_of_nil hf hne] at h
    cases h
    exact ⟨List.nil_suffix, .nil⟩
  · rw [← List.append_nil ts] at h
    obtain ⟨b, -, e, hsuf, hb, -⟩ := moduleName?_agree (r := .self ⟨file, none, final⟩ [] hf) hc
      (Rereading.forall₂_self _ _ _ ts) hne h
    obtain rfl : rest = b := e.trans (List.append_nil b)
    exact ⟨hsuf, hb⟩

/-- One round reads ends of lines and one statement, from its keyword on. -/
theorem exists_of_round {scope : Scope} (hs : scope.final = final)
    (hc : Position.outside.ClosedBy mid) (h : fileStatement? d scope mid = .ok (some v, rest)) :
    ∃ newlines statement, mid = newlines ++ statement ++ rest ∧
      (∀ t ∈ newlines, t.kind = .newline) ∧
      (∃ k t us, statement = t :: us ∧ t.kind = .keyword k) ∧ IsStatement statement ∧
      Position.outside.ClosedBy rest := by
  subst hs
  obtain ⟨newlines, hsplit, hnewlines⟩ := exists_newlines mid
  have hclosed := closedBy_behindNewlines_of_start hc
  cases hus : behindNewlines mid with
  | nil =>
    rw [fileStatement?_of_final hf hus] at h
    cases h
  | cons t us =>
    rw [hus] at hclosed hsplit
    obtain ⟨k, _, hk, e, hw⟩ := exists_of_fileStatement? hf hus hclosed.kind_ne_endOfFile h
    cases e
    have hplain : t.kind.endsStatement = false := by rw [hk]; rfl
    have hline : (⟨0, true⟩ : Position).ClosedBy (t :: us) :=
      .plain hplain (hclosed.of_plain hplain)
    rw [← List.append_nil (t :: us)] at hw
    obtain ⟨b, e, hends, hb⟩ := keywordStatement_ends hf hplain hline .nil hw
    obtain rfl : rest = b := e.trans (List.append_nil b)
    obtain ⟨statement, hstatement, his⟩ := exists_isStatement hline hends
    refine ⟨_, statement, ?_, hnewlines, ?_, his, hb⟩
    · rw [List.append_assoc, ← hstatement]
      exact hsplit
    · cases statement with
      | nil =>
        have hlt := hends.length_lt hplain
        rw [hstatement] at hlt
        exact absurd hlt (Nat.lt_irrefl _)
      | cons u vs =>
        cases hstatement
        exact ⟨k, t, vs, rfl, hk⟩

/-- Wherever the loop gets, the tokens that are left end whatever they open. -/
theorem Reaches.closedBy (hc : Position.outside.ClosedBy ts)
    (h : Reaches file final ts declared d rest) : rest <:+ ts ∧ Position.outside.ClosedBy rest := by
  induction h with
  | header h => exact closedBy_of_moduleName? hf hc h
  | statement _ hround ih =>
    obtain ⟨newlines, statement, rfl, -, -, -, hrest⟩ := exists_of_round hf rfl ih.2 hround
    exact ⟨(List.suffix_append _ _).trans ih.1, hrest⟩

/-- The last round reads ends of lines only, and then no token is left. -/
theorem newlines_of_fileStatement? {scope : Scope} (hs : scope.final = final)
    (hc : Position.outside.ClosedBy mid) (h : fileStatement? d scope mid = .ok (none, rest)) :
    rest = [] ∧ ∀ t ∈ mid, t.kind = .newline := by
  subst hs
  obtain ⟨newlines, hsplit, hnewlines⟩ := exists_newlines mid
  cases hus : behindNewlines mid with
  | nil =>
    rw [fileStatement?_of_final hf hus] at h
    cases h
    rw [hus, List.append_nil] at hsplit
    exact ⟨rfl, hsplit ▸ hnewlines⟩
  | cons t us =>
    have hclosed := hus ▸ closedBy_behindNewlines_of_start hc
    obtain ⟨_, _, -, e, -⟩ := exists_of_fileStatement? hf hus hclosed.kind_ne_endOfFile h
    cases e

/-- A loop that succeeds goes on until no token is left. The induction is on the number of tokens
left. -/
theorem Reaches.exists_last (hc : Position.outside.ClosedBy ts)
    (hmid : Reaches file final ts declared d mid)
    (h : iterateOn fileStatement? ⟨file, declared, final⟩ d mid = .ok (v, rest)) :
    ∃ last, Reaches file final ts declared v last ∧
      fileStatement? v ⟨file, declared, final⟩ last = .ok (none, []) ∧
      ∀ t ∈ last, t.kind = .newline := by
  induction hn : mid.length using Nat.strongRecOn generalizing d mid with
  | ind n ih =>
    obtain ⟨next, tail, hs⟩ := exists_step_of_iterateOn h
    cases next with
    | none =>
      rw [iterateOn_of_none hs] at h
      cases h
      obtain ⟨rfl, hnewlines⟩ := newlines_of_fileStatement? hf rfl (hmid.closedBy hf hc).2 hs
      exact ⟨mid, hmid, hs, hnewlines⟩
    | some w =>
      have hlt : tail.length < mid.length := by
        obtain ⟨newlines, statement, rfl, -, ⟨k, t, us, rfl, -⟩, -⟩ :=
          exists_of_round hf rfl (hmid.closedBy hf hc).2 hs
        simp only [List.length_append, List.length_cons]
        omega
      rw [iterateOn_of_some hs, if_pos hlt] at h
      exact ih tail.length (hn ▸ hlt) (.statement hmid hs) h rfl

end

/-- Between two places outside of every block, blocks are closed as they are opened. -/
theorem balanced_of_closedBy {us vs : List Token} (h : Position.outside.ClosedBy (us ++ vs))
    (hvs : Position.outside.ClosedBy vs) : Balanced us := by
  have hall := h.closed_eq
  have hbehind := hvs.closed_eq
  rw [closed_append, opened_append] at hall
  have hdepth : Position.outside.depth = 0 := rfl
  refine ⟨by omega, fun ws hws => ?_⟩
  exact h.closed_le (hws.trans (List.prefix_append us vs))

/-- Whatever is read of a text by the rounds of its loop is balanced, and each round reads one
statement, from its keyword on. If the text can be read, the last round finds nothing but ends of
lines, and no token is left behind it. -/
theorem reaches_balanced {file text : String} {ts : List Token} {final : Token}
    (h : tokenize file text = .ok (ts ++ [final])) : final.kind = .endOfFile ∧
    (∀ declared d rest, Reaches file final ts declared d rest →
      ∃ read, ts = read ++ rest ∧ Balanced read) ∧
    (∀ declared d v mid rest, Reaches file final ts declared d mid →
      fileStatement? d ⟨file, declared, final⟩ mid = .ok (some v, rest) →
      ∃ newlines statement, mid = newlines ++ statement ++ rest ∧
        (∀ t ∈ newlines, t.kind = .newline) ∧
        (∃ k t us, statement = t :: us ∧ t.kind = .keyword k) ∧ IsStatement statement) ∧
    (∀ m, parseModule file text = .ok m → ∃ declared d rest,
      Reaches file final ts declared d rest ∧
      fileStatement? d ⟨file, declared, final⟩ rest = .ok (none, []) ∧
      (∀ t ∈ rest, t.kind = .newline) ∧ m = d.toModule declared file) := by
  obtain ⟨ts', final', e, hf, hc⟩ := tokenize_closed h
  obtain ⟨rfl, elast⟩ := List.append_inj' e rfl
  obtain rfl := List.singleton_inj.1 elast
  refine ⟨hf, fun declared d rest hreach => ?_, fun declared d v mid rest hreach hround => ?_,
    fun m hm => ?_⟩
  · obtain ⟨⟨read, rfl⟩, hrest⟩ := hreach.closedBy hf hc
    exact ⟨read, rfl, balanced_of_closedBy hc hrest⟩
  · obtain ⟨newlines, statement, hmid, hnewlines, hkeyword, his, -⟩ :=
      exists_of_round hf rfl (hreach.closedBy hf hc).2 hround
    exact ⟨newlines, statement, hmid, hnewlines, hkeyword, his⟩
  · obtain ⟨us, f, rest, htokens, -, -, hmodule⟩ := exists_of_parseModule hm
    rw [h] at htokens
    obtain ⟨rfl, elast⟩ := List.append_inj' (Except.ok.inj htokens) rfl
    obtain rfl := List.singleton_inj.1 elast
    obtain ⟨declared, mid, d, hname, hd, rfl⟩ := module_eq_ok_iff.1 hmodule
    obtain ⟨last, hlast, hend, hnewlines⟩ := (Reaches.header hname).exists_last hf hc hd
    exact ⟨declared, d, last, hlast, hend, hnewlines, rfl⟩

/-- The rounds of a text with a header, an entity whose block holds another one, and an enumeration
go on to its end. -/
theorem reaches_balanced_notes :
    let text := "module notes\n\nentity Note \"Note\":\n  label: str(20)\n" ++
      "  invariant: label != \"\"\n    message: \"No label\"\n\nenum Tone \"Tone\":\n  calm\n"
    ∃ ts final m, tokenize "notes.dsl" text = .ok (ts ++ [final]) ∧
      parseModule "notes.dsl" text = .ok m ∧ m.name = "notes" ∧
      (m.declarations.named .entity).map (·.name) = ["Note"] ∧
      (m.declarations.named .enum).map (·.name) = ["Tone"] ∧ opened ts = 3 ∧
      (∀ declared d rest, Reaches "notes.dsl" final ts declared d rest →
        ∃ read, ts = read ++ rest ∧ Balanced read) ∧
      ∃ declared d rest, Reaches "notes.dsl" final ts declared d rest ∧
        fileStatement? d ⟨"notes.dsl", declared, final⟩ rest = .ok (none, []) ∧
        (∀ t ∈ rest, t.kind = .newline) ∧ m = d.toModule declared "notes.dsl" := by
  intro text
  obtain ⟨m, hm, hnames⟩ := Except.exists_eq_ok_of_any (x := parseModule "notes.dsl" text)
    (p := fun m => decide (m.name = "notes" ∧
      (m.declarations.named .entity).map (·.name) = ["Note"] ∧
      (m.declarations.named .enum).map (·.name) = ["Tone"])) (by decide +kernel)
  obtain ⟨hname, hentities, henums⟩ := of_decide_eq_true hnames
  obtain ⟨tokens, htokens, hopened⟩ := Except.exists_eq_ok_of_any (x := tokenize "notes.dsl" text)
    (p := fun ts => opened ts.dropLast == 3) (by decide +kernel)
  obtain ⟨ts, final, rfl, -, -⟩ := tokenize_closed htokens
  rw [List.dropLast_concat] at hopened
  obtain ⟨-, hbalanced, -, hend⟩ := reaches_balanced htokens
  exact ⟨ts, final, m, htokens, hm, hname, hentities, henums, beq_iff_eq.1 hopened, hbalanced,
    hend m hm⟩

end Blueprint
