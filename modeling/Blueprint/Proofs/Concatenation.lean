import Blueprint.Proofs.Files
import Blueprint.Proofs.OpenBlocks

/-!
# Two texts behind each other

A text behind another one declares what both declare (`parseModule_append`): neither reaches into
the other. The first text gives the module its name and its uses.
-/

namespace Blueprint

/-- The place in a text that stands `n` lines below, in the module of the given name. -/
def Location.below (n : Nat) (inModule : Option String) (l : Location) : Location :=
  { l with line := l.line + n, inModule }

namespace Parser

variable {scope : Scope} {ts rest : List Token}

/-! ## Running a file -/

/-- What a file declares, as a module. -/
def FileDraft.toModule (d : FileDraft) (declared : Option String) (file : String) : Module where
  name := declared.getD (Module.defaultName file)
  file := file
  uses := d.uses
  aliases := d.aliases
  app := d.app
  declarations := d.declarations

theorem withReader_apply {α : Type} (f : Scope → Scope) (p : Parser α) :
    withReader f p scope ts = p (f scope) ts :=
  rfl

theorem module_eq_ok_iff {m : Module} :
    module scope ts = .ok (m, rest) ↔ ∃ declared mid d,
      moduleName? scope ts = .ok (declared, mid) ∧
      iterateOn fileStatement? { scope with inModule := declared } {} mid = .ok (d, rest) ∧
      m = d.toModule declared scope.file := by
  unfold module
  rw [bind_eq_ok_iff]
  constructor
  · rintro ⟨declared, mid, hname, h⟩
    rw [withReader_apply] at h
    obtain ⟨d, _, hd, h⟩ := bind_eq_ok_iff.1 h
    cases h
    exact ⟨declared, mid, d, hname, hd, rfl⟩
  · rintro ⟨declared, mid, d, hname, hd, rfl⟩
    refine ⟨declared, mid, hname, ?_⟩
    rw [withReader_apply]
    exact bind_eq_ok_iff.2 ⟨d, rest, hd, rfl⟩

theorem runOn_append {α : Type} (p : Parser α) (file : String) (ts : List Token) {t : Token}
    (ht : t.kind = .endOfFile) : p.runOn file (ts ++ [t]) =
      (p { file, final := t } ts).map (·.1) := by
  unfold runOn
  rw [List.getLast?_concat]
  dsimp only
  rw [if_pos ht, List.dropLast_concat]
  show (p { file, final := t } ts >>= _) = _
  cases p { file, final := t } ts <;> rfl

/-! ## The header -/

/-- The name of a module and the end of its line. -/
def moduleHeader : Parser (Option String) := do
  let path ← modulePath
  endStatement
  return some path

instance {g : Ground} {plain : Bool} : Reads g plain moduleHeader .ends := by
  unfold moduleHeader
  infer_instance

section

variable (hf : scope.final.kind = .endOfFile) {t : Token} {us : List Token}

include hf

theorem moduleName?_of_nil (h : behindNewlines ts = []) :
    moduleName? scope ts = .ok (none, []) := by
  have hkind : (head scope []).kind ≠ .keyword .module := by
    show scope.final.kind ≠ _
    rw [hf]
    decide
  unfold moduleName? acceptKeyword
  rw [bind_eq_ok (skipNewlines_of hf h), bind_eq_ok (by rw [accept_apply, if_neg hkind])]
  rfl

theorem moduleName?_of_cons (h : behindNewlines ts = t :: us) : moduleName? scope ts =
    if t.kind = .keyword .module then moduleHeader scope us else .ok (none, t :: us) := by
  unfold moduleName? acceptKeyword
  rw [bind_eq_ok (skipNewlines_of hf h)]
  by_cases hk : t.kind = .keyword .module
  · rw [bind_eq_ok (accept_of_eq hk), if_pos hk]
    rfl
  · rw [bind_eq_ok (accept_of_ne hk), if_neg hk]
    rfl

/-- A file without a header is left at its first statement. -/
theorem rest_of_moduleName? {rest : List Token} (h : moduleName? scope ts = .ok (none, rest)) :
    rest = behindNewlines ts ∧ ∀ t us, behindNewlines ts = t :: us → t.kind ≠ .keyword .module := by
  cases hus : behindNewlines ts with
  | nil =>
    rw [moduleName?_of_nil hf hus] at h
    cases h
    exact ⟨rfl, fun t us e => absurd e (List.cons_ne_nil t us).symm⟩
  | cons t us =>
    rw [moduleName?_of_cons hf hus] at h
    split at h
    · obtain ⟨_, _, -, h⟩ := bind_eq_ok_iff.1 h
      obtain ⟨_, _, -, h⟩ := bind_eq_ok_iff.1 h
      cases h
    · next hk =>
      cases h
      refine ⟨rfl, fun t' us' e => ?_⟩
      cases e
      exact hk

end

/-- If there are any tokens, the header is read the same whatever stands behind them. -/
theorem moduleName?_agree {r : Rereading} {a a' c : List Token} {declared : Option String}
    (hc : Position.outside.ClosedBy a) (ha : List.Forall₂ r.Same a a') (hne : behindNewlines a ≠ [])
    (h : moduleName? r.first (a ++ r.behind) = .ok (declared, c)) :
    ∃ b b', c = b ++ r.behind ∧ b <:+ a ∧ Position.outside.ClosedBy b ∧ List.Forall₂ r.Same b b' ∧
      moduleName? r.second (a' ++ r.next) = .ok (declared, b' ++ r.next) := by
  have hsame := forall₂_behindNewlines (fun _ _ h => h.kind) ha
  have hclosed := closedBy_behindNewlines_of_start hc
  have hsuf := behindNewlines_suffix a
  obtain ⟨t, us, hus⟩ := List.exists_cons_of_ne_nil hne
  rw [hus] at hsame hclosed hsuf
  obtain ⟨t', us', ht, hrest, hus'⟩ := List.forall₂_cons_left_iff.1 hsame
  rw [moduleName?_of_cons r.first_final (behindNewlines_append hus r.behind)] at h
  rw [moduleName?_of_cons r.second_final (behindNewlines_append hus' r.next), ht.kind]
  by_cases hk : t.kind = .keyword .module
  · rw [if_pos hk] at h ⊢
    have hline : (⟨0, true⟩ : Position).ClosedBy us := hclosed.of_plain (by rw [hk]; rfl)
    obtain ⟨_, b, b', rfl, ⟨rfl, hends⟩, hcb, hb, h'⟩ :=
      Reads.agree (e := .ends) r (Entry.any hline.ne_nil) hline hrest h
    exact ⟨b, b', rfl, (hends.suffix.trans (List.suffix_cons t us)).trans hsuf, hcb, hb, h'⟩
  · rw [if_neg hk] at h ⊢
    cases h
    rw [hus'] at hsame
    exact ⟨t :: us, t' :: us', rfl, hsuf, hclosed, hsame, rfl⟩

end Parser

/-! ## The two readings -/

namespace Rereading

/-- A file in front of another one, where its tokens stay in their places. -/
def inFront (file : String) (inModule : Option String) (next : List Token) (final final' : Token)
    (h : final.kind = .endOfFile) (h' : final'.kind = .endOfFile) : Rereading where
  first := ⟨file, inModule, final⟩
  second := ⟨file, inModule, final'⟩
  behind := []
  next := next
  place := id
  first_final := h
  second_final := h'

/-- A file behind another one, `n` lines below, of which it becomes a part. -/
def below (file : String) (inModule : Option String) (n : Nat) (final final' : Token)
    (h : final.kind = .endOfFile) (h' : final'.kind = .endOfFile) : Rereading where
  first := ⟨file, none, final⟩
  second := ⟨file, inModule, final'⟩
  behind := []
  next := []
  place := Location.below n inModule
  first_final := h
  second_final := h'

variable {file : String} {inModule : Option String} {n : Nat} {next : List Token}
  {final final' : Token} {h : final.kind = .endOfFile} {h' : final'.kind = .endOfFile}
  {ts ts' : List Token}

/-- Where the places stay as they are, the tokens are the same if they stand in the same places. -/
theorem same_iff_below {r : Rereading} (hplace : r.place = id)
    (hfile : r.second.file = r.first.file) (hname : r.second.inModule = r.first.inModule)
    {t t' : Token} : r.Same t t' ↔ Token.Below 0 t t' := by
  have hiff : r.place (r.first.locate t) = r.second.locate t' ↔
      t'.line = t.line + 0 ∧ t'.column = t.column := by
    unfold Scope.locate
    rw [hplace, hfile, hname]
    simp only [id, Location.mk.injEq, true_and, and_true, Nat.add_zero, eq_comm]
  exact ⟨fun h => ⟨h.kind, h.text, fun hk => hiff.1 (h.place hk)⟩,
    fun h => ⟨h.kind, h.text, fun hk => hiff.2 (h.place hk)⟩⟩

theorem same_inFront_iff {t t' : Token} :
    (inFront file inModule next final final' h h').Same t t' ↔ Token.Below 0 t t' :=
  same_iff_below rfl rfl rfl

theorem same_below (hs : List.Forall₂ (Token.Below n) ts ts') :
    List.Forall₂ (below file inModule n final final' h h').Same ts ts' := by
  refine hs.imp fun t t' ht => ⟨ht.kind, ht.text, fun hk => ?_⟩
  obtain ⟨hline, hcolumn⟩ := ht.place hk
  show ({ file, line := t.line + n, column := t.column, inModule } : Location) =
    { file, line := t'.line, column := t'.column, inModule }
  rw [hline, hcolumn]

end Rereading

/-- What may be declared once is declared by one of the two modules only. -/
structure Module.Apart (m m' : Module) : Prop where
  app : m.app = none ∨ m'.app = none
  llmConfig : m.declarations.llmConfig = none ∨ m'.declarations.llmConfig = none
  policies : m.declarations.policies = none ∨ m'.declarations.policies = none
  tenancy : m.declarations.tenancy = none ∨ m'.declarations.tenancy = none

/-- The module with what another one declares behind its own declarations, moved to where it is
then. -/
def Module.followedBy (place : Location → Location) (m m' : Module) : Module :=
  { m with
    app := m.app.or (m'.app.map (Placed.relocate place))
    declarations := m.declarations.followedBy (m'.declarations.relocate place) }

namespace Parser

theorem FileDraft.after_nothing (d : FileDraft) (place : Location → Location) :
    d.after place {} = d := by
  unfold after
  simp only [List.append_nil, List.map_nil, Option.map_none, Option.or_none, Bool.or_false]

theorem FileDraft.declarations_after (d : FileDraft) (place : Location → Location)
    (v : FileDraft) : (d.after place v).declarations =
      d.declarations.followedBy (v.declarations.relocate place) := by
  have hnamed : ∀ k : DeclKind, (v.named.map (Declaration.relocate place)).filterMap
      (Declaration.bodyOf? k) = (v.named.filterMap (Declaration.bodyOf? k)).map
        (Placed.relocate place) := by
    intro k
    rw [List.filterMap_map, List.map_filterMap]
    exact congrArg (List.filterMap · v.named)
      (funext fun w => Declaration.bodyOf?_relocate k place w)
  unfold declarations Declarations.followedBy Declarations.relocate Declarations.ofList after
  dsimp only
  simp only [List.filterMap_append, hnamed]

/-- Ends of lines declare nothing. -/
theorem draft_of_newlines (hf : scope.final.kind = .endOfFile) {w d : FileDraft} {nl : List Token}
    (hnl : ∀ t ∈ nl, t.kind = .newline)
    (h : iterateOn fileStatement? scope w (nl ++ []) = .ok (d, rest)) : w = d := by
  rw [iterateOn_of_none (fileStatement?_of_final hf (behindNewlines_of_all hnl []))] at h
  cases h
  rfl

/-- The statements of a file behind those of another one declare what both declare. -/
theorem fileStatements_append {file : String} {declared : Option String} {n : Nat}
    {f₁ f₂ f : Token} (h₁ : f₁.kind = .endOfFile) (h₂ : f₂.kind = .endOfFile)
    (h : f.kind = .endOfFile) {a₁ a₁' pre a₂ a₂' rest₁ rest₂ : List Token} {d₁ d₂ : FileDraft}
    (hc₁ : Position.outside.ClosedBy a₁) (hc₂ : Position.outside.ClosedBy a₂)
    (hs₁ : List.Forall₂ (Token.Below 0) a₁ a₁') (hs₂ : List.Forall₂ (Token.Below n) a₂ a₂')
    (hpre : ∀ t ∈ pre, t.kind = .newline)
    (hd₁ : iterateOn fileStatement? ⟨file, declared, f₁⟩ {} a₁ = .ok (d₁, rest₁))
    (hd₂ : iterateOn fileStatement? ⟨file, none, f₂⟩ {} a₂ = .ok (d₂, rest₂))
    (huses : d₂.uses = []) (hapart : d₁.Apart d₂) :
    iterateOn fileStatement? ⟨file, declared, f⟩ {} (a₁' ++ (pre ++ a₂')) =
      .ok (d₁.after (Location.below n declared) d₂, []) := by
  have hnone : ∀ t ∈ ([] : List Token), t.kind = .newline := List.forall_mem_nil _
  let r₁ := Rereading.inFront file declared (pre ++ a₂') f₁ f h₁ h
  let r₂ := Rereading.below file declared n f₂ f h₂ h
  have hnext : NoIndent (pre ++ a₂') :=
    .append (fun t ht => by rw [hpre t ht]; decide)
      ((noIndent_of_fileStatements h₂ hd₂).of_forall₂ (fun _ _ h => h.kind) hs₂)
  -- the first file leaves what it declares, in front of the second
  have hempty : FileDraft.after {} r₁.place = id := funext FileDraft.after_empty
  rw [← List.append_nil a₁] at hd₁
  obtain ⟨w₁, nl₁, nl, hnl₁, hnl, hend₁, hfront⟩ := fileStatements_agree (r := r₁) {} .nil hnext hc₁
    (hs₁.imp fun _ _ => Rereading.same_inFront_iff.2) hnone (.nothing d₁) hd₁
  obtain rfl : w₁ = d₁ := draft_of_newlines h₁ hnl₁ hend₁
  rw [hempty] at hfront
  -- the second file goes on from there
  have hbetween : ∀ t ∈ nl ++ pre, t.kind = .newline := by
    intro t ht
    rcases List.mem_append.1 ht with ht | ht
    · exact hnl t ht
    · exact hpre t ht
  rw [← List.append_nil a₂] at hd₂
  obtain ⟨w₂, nl₂, nl', hnl₂, hnl', hend₂, hbehind⟩ :=
    fileStatements_agree (r := r₂) w₁ .nil .nil hc₂
    (Rereading.same_below hs₂) hbetween ⟨hapart, .inl huses⟩ hd₂
  obtain rfl : w₂ = d₂ := draft_of_newlines h₂ hnl₂ hend₂
  rw [FileDraft.after_nothing, List.append_assoc, List.append_assoc] at hbehind
  have hend : behindNewlines (nl' ++ []) = [] := behindNewlines_of_all hnl' []
  calc iterateOn fileStatement? ⟨file, declared, f⟩ {} (a₁' ++ (pre ++ a₂'))
      = iterateOn fileStatement? r₁.second w₁ (nl ++ (pre ++ a₂')) := hfront
    _ = iterateOn fileStatement? r₂.second w₁ (nl ++ (pre ++ (a₂' ++ []))) := by
      rw [List.append_nil]
      rfl
    _ = iterateOn fileStatement? r₂.second (w₁.after r₂.place w₂) (nl' ++ []) := hbehind
    _ = .ok (w₁.after (Location.below n declared) w₂, []) :=
      iterateOn_of_none (fileStatement?_of_final h hend)

/-- A file without a header has none behind empty lines either. -/
theorem moduleName?_of_absent {file : String} {n : Nat} {f₂ f : Token}
    (h₂ : f₂.kind = .endOfFile) (h : f.kind = .endOfFile) {pre a₂ a₂' rest : List Token}
    (hs₂ : List.Forall₂ (Token.Below n) a₂ a₂') (hpre : ∀ t ∈ pre, t.kind = .newline)
    (hname : moduleName? ⟨file, none, f₂⟩ a₂ = .ok (none, rest)) :
    moduleName? ⟨file, none, f⟩ (pre ++ a₂') = .ok (none, behindNewlines a₂') := by
  obtain ⟨rfl, hmodule⟩ := rest_of_moduleName? h₂ hname
  have hsame := forall₂_behindNewlines (fun _ _ h => h.kind) hs₂
  have hbehind := behindNewlines_of_all hpre a₂'
  cases hus : behindNewlines a₂' with
  | nil => exact moduleName?_of_nil h (hbehind.trans hus)
  | cons t' us' =>
    rw [hus] at hsame
    obtain ⟨t, us, ht, -, hts⟩ := List.forall₂_cons_right_iff.1 hsame
    have hk : t'.kind ≠ .keyword .module := ht.kind ▸ hmodule t us hts
    rw [moduleName?_of_cons h (hbehind.trans hus), if_neg hk]

/-- The module of two drafts is that of the first one, followed by that of the second one. -/
theorem FileDraft.toModule_followedBy {d₁ d₂ : FileDraft} (huses : d₂.uses = [])
    (haliases : d₂.aliases = []) (place : Location → Location) (declared : Option String)
    (file : String) : (d₁.after place d₂).toModule declared file =
      (d₁.toModule declared file).followedBy place (d₂.toModule none file) := by
  unfold Module.followedBy toModule
  rw [declarations_after]
  unfold after
  dsimp only
  rw [huses, haliases, List.append_nil, List.append_nil]

/-- The header and the statements of a file are read in front of the statements of another one. -/
theorem exists_file_append {file : String} {declared : Option String} {n : Nat} {f₁ f₂ f : Token}
    (h₁ : f₁.kind = .endOfFile) (h₂ : f₂.kind = .endOfFile) (h : f.kind = .endOfFile)
    {a₁ a₁' a₂ a₂' mid₁ mid₂ rest₁ rest₂ : List Token} {d₁ d₂ : FileDraft}
    (hc₁ : Position.outside.ClosedBy a₁) (hc₂ : Position.outside.ClosedBy a₂)
    (hs₁ : List.Forall₂ (Token.Below 0) a₁ a₁') (hs₂ : List.Forall₂ (Token.Below n) a₂ a₂')
    (hname₁ : moduleName? ⟨file, none, f₁⟩ a₁ = .ok (declared, mid₁))
    (hd₁ : iterateOn fileStatement? ⟨file, declared, f₁⟩ {} mid₁ = .ok (d₁, rest₁))
    (hname₂ : moduleName? ⟨file, none, f₂⟩ a₂ = .ok (none, mid₂))
    (hd₂ : iterateOn fileStatement? ⟨file, none, f₂⟩ {} mid₂ = .ok (d₂, rest₂))
    (huses : d₂.uses = []) (hapart : d₁.Apart d₂) :
    ∃ mid, moduleName? ⟨file, none, f⟩ (a₁' ++ a₂') = .ok (declared, mid) ∧
      iterateOn fileStatement? ⟨file, declared, f⟩ {} mid =
        .ok (d₁.after (Location.below n declared) d₂, []) := by
  obtain ⟨rfl, -⟩ := rest_of_moduleName? h₂ hname₂
  have hc := closedBy_behindNewlines_of_start hc₂
  have hs := forall₂_behindNewlines (fun _ _ h => h.kind) hs₂
  by_cases hempty : behindNewlines a₁ = []
  · -- the first file has no tokens but ends of lines, and the header is looked for in the second
    rw [moduleName?_of_nil h₁ hempty] at hname₁
    cases hname₁
    have hsame := forall₂_behindNewlines (fun _ _ h => h.kind) hs₁
    rw [hempty, List.forall₂_nil_left_iff] at hsame
    refine ⟨_, moduleName?_of_absent h₂ h hs₂ (kind_of_behindNewlines hsame) hname₂, ?_⟩
    exact fileStatements_append h₁ h₂ h .nil hc .nil hs (List.forall_mem_nil _) hd₁ hd₂ huses hapart
  · rw [← List.append_nil a₁] at hname₁
    obtain ⟨b, b', hmid, -, hc₁, hb, hname⟩ := moduleName?_agree
      (r := .inFront file none a₂' f₁ f h₁ h) hc₁
      (hs₁.imp fun _ _ => Rereading.same_inFront_iff.2) hempty hname₁
    obtain rfl : mid₁ = b := hmid.trans (List.append_nil b)
    have hs₁ := hb.imp fun _ _ => Rereading.same_inFront_iff.1
    obtain ⟨pre, hsplit, hpre⟩ := exists_newlines a₂'
    have hboth := fileStatements_append h₁ h₂ h hc₁ hc hs₁ hs hpre hd₁ hd₂ huses hapart
    rw [← hsplit] at hboth
    exact ⟨b' ++ a₂', hname, hboth⟩

/-- The tokens of a file behind those of another one declare what both declare. -/
theorem module_append {file : String} {declared : Option String} {n : Nat} {f₁ f₂ f : Token}
    (h₁ : f₁.kind = .endOfFile) (h₂ : f₂.kind = .endOfFile) (h : f.kind = .endOfFile)
    {a₁ a₁' a₂ a₂' mid₁ mid₂ rest₁ rest₂ : List Token} {m₁ m₂ : Module}
    (hc₁ : Position.outside.ClosedBy a₁) (hc₂ : Position.outside.ClosedBy a₂)
    (hs₁ : List.Forall₂ (Token.Below 0) a₁ a₁') (hs₂ : List.Forall₂ (Token.Below n) a₂ a₂')
    (hname₁ : moduleName? ⟨file, none, f₁⟩ a₁ = .ok (declared, mid₁))
    (hname₂ : moduleName? ⟨file, none, f₂⟩ a₂ = .ok (none, mid₂))
    (hm₁ : module ⟨file, none, f₁⟩ a₁ = .ok (m₁, rest₁))
    (hm₂ : module ⟨file, none, f₂⟩ a₂ = .ok (m₂, rest₂))
    (huses : m₂.uses = []) (hapart : m₁.Apart m₂) :
    module ⟨file, none, f⟩ (a₁' ++ a₂') =
      .ok (m₁.followedBy (Location.below n declared) m₂, []) := by
  obtain ⟨_, _, d₁, hname, hd₁, rfl⟩ := module_eq_ok_iff.1 hm₁
  rw [hname₁] at hname
  cases hname
  obtain ⟨_, _, d₂, hname, hd₂, rfl⟩ := module_eq_ok_iff.1 hm₂
  rw [hname₂] at hname
  cases hname
  have huses : d₂.uses = [] := huses
  have haliases : d₂.aliases = [] := ((fileStatements_grows h₂ hd₂).uses huses).2
  obtain ⟨mid, hname, hd⟩ := exists_file_append h₁ h₂ h hc₁ hc₂ hs₁ hs₂ hname₁ hd₁ hname₂ hd₂ huses
    ⟨hapart.app, hapart.llmConfig, hapart.policies, hapart.tenancy⟩
  exact module_eq_ok_iff.2 ⟨declared, mid, _, hname, hd,
    (FileDraft.toModule_followedBy huses haliases ..).symm⟩

/-- A file does not start with an indent. -/
theorem noIndent_of_module {m : Module} (h : module scope ts = .ok (m, rest))
    (hf : scope.final.kind = .endOfFile) : NoIndent ts := by
  rintro t us rfl ht
  obtain ⟨declared, mid, d, hname, hd, -⟩ := module_eq_ok_iff.1 h
  have hbehind : behindNewlines (t :: us) = t :: us :=
    List.dropWhile_cons_of_neg (by rw [beq_iff_eq, ht]; decide)
  rw [moduleName?_of_cons hf hbehind, if_neg (by rw [ht]; decide)] at hname
  cases hname
  have hf : ({ scope with inModule := none } : Scope).final.kind = .endOfFile := hf
  exact noIndent_of_fileStatements hf hd t us rfl ht

end Parser

/-! ## Texts -/

open Blueprint.Parser

/-- The name that the header of a text declares. -/
def declaredName? (file text : String) : Option String :=
  match tokenize file text >>= moduleName?.runOn file with
  | .ok declared => declared
  | .error _ => none

section

variable {file text t₁ t₂ : String} {m m₁ m₂ : Module}

/-- A text is read off its tokens, which end whatever they open. -/
theorem exists_of_parseModule (h : parseModule file text = .ok m) : ∃ a f rest,
    tokenize file text = .ok (a ++ [f]) ∧ f.kind = .endOfFile ∧ Position.outside.ClosedBy a ∧
      module ⟨file, none, f⟩ a = .ok (m, rest) := by
  unfold parseModule at h
  rw [Except.mapError_eq_ok_iff, Except.bind_eq_ok_iff] at h
  obtain ⟨ts, hts, h⟩ := h
  obtain ⟨a, f, rfl, hf, hc⟩ := tokenize_closed hts
  unfold readModule at h
  rw [runOn_append _ _ _ hf] at h
  cases hm : module ⟨file, none, f⟩ a with
  | error e =>
    rw [hm] at h
    cases h
  | ok r =>
    rw [hm] at h
    cases h
    exact ⟨a, f, r.2, hts, hf, hc, hm⟩

section

variable {a rest : List Token} {f : Token}

theorem parseModule_of_tokens (hts : tokenize file text = .ok (a ++ [f]))
    (hf : f.kind = .endOfFile) (h : module ⟨file, none, f⟩ a = .ok (m, rest)) :
    parseModule file text = .ok m := by
  unfold parseModule
  rw [Except.mapError_eq_ok_iff, Except.bind_eq_ok_iff]
  refine ⟨_, hts, ?_⟩
  unfold readModule
  rw [runOn_append _ _ _ hf, h]
  rfl

theorem declaredName?_of_tokens {declared : Option String}
    (hts : tokenize file text = .ok (a ++ [f])) (hf : f.kind = .endOfFile)
    (h : moduleName? ⟨file, none, f⟩ a = .ok (declared, rest)) :
    declaredName? file text = declared := by
  unfold declaredName?
  rw [hts]
  show (match moduleName?.runOn file (a ++ [f]) with | .ok d => d | .error _ => none) = declared
  rw [runOn_append _ _ _ hf, h]
  rfl

end

/-- Reading a text behind another one, which ends its last line, is reading both. The module has the
name and the uses of the first text; the declarations of the second follow those of the first, as
many lines further below as the first text has line feeds. -/
theorem parseModule_append (hend : t₁ = "" ∨ t₁.toList.getLast? = some '\n')
    (h₁ : parseModule file t₁ = .ok m₁) (h₂ : parseModule file t₂ = .ok m₂)
    (hname : declaredName? file t₂ = none) (huses : m₂.uses = []) (hapart : m₁.Apart m₂) :
    parseModule file (t₁ ++ t₂) = .ok (m₁.followedBy
      (Location.below (t₁.toList.count '\n') (declaredName? file t₁)) m₂) := by
  obtain ⟨a₁, f₁, rest₁, hts₁, hf₁, hc₁, hm₁⟩ := exists_of_parseModule h₁
  obtain ⟨a₂, f₂, rest₂, hts₂, hf₂, hc₂, hm₂⟩ := exists_of_parseModule h₂
  have hstart : NoIndent a₂ := noIndent_of_module hm₂ hf₂
  have hend : t₁.toList = [] ∨ t₁.toList.getLast? = some '\n' :=
    hend.imp_left String.toList_eq_nil_iff.2
  obtain ⟨b₁, b₂, f, hf, hs₁, hs₂, hts⟩ := tokenize_append hend hts₁ hts₂ hstart
  obtain ⟨declared, _, _, hname₁, -, -⟩ := module_eq_ok_iff.1 hm₁
  obtain ⟨declared', _, _, hname₂, -, -⟩ := module_eq_ok_iff.1 hm₂
  rw [declaredName?_of_tokens hts₂ hf₂ hname₂] at hname
  subst hname
  rw [declaredName?_of_tokens hts₁ hf₁ hname₁]
  exact parseModule_of_tokens hts hf
    (module_append hf₁ hf₂ hf hc₁ hc₂ hs₁ hs₂ hname₁ hname₂ hm₁ hm₂ huses hapart)

/-- The module of a text whose last block is still open, and the application behind it. -/
theorem parseModule_append_notes : ∃ m₁ m₂,
    parseModule "notes.dsl" "module notes\n\nenum Tone \"Tone\":\n  calm\n" = .ok m₁ ∧
    parseModule "notes.dsl" "app notes \"Notes\"\n\nenum Size \"Size\":\n  small\n" = .ok m₂ ∧
    parseModule "notes.dsl" ("module notes\n\nenum Tone \"Tone\":\n  calm\n" ++
      "app notes \"Notes\"\n\nenum Size \"Size\":\n  small\n") =
        .ok (m₁.followedBy (Location.below 4 (some "notes")) m₂) := by
  obtain ⟨m₁, h₁, hfirst⟩ := Except.exists_eq_ok_of_any
    (x := parseModule "notes.dsl" "module notes\n\nenum Tone \"Tone\":\n  calm\n")
    (p := fun m => m.app.isNone && m.declarations.llmConfig.isNone &&
      m.declarations.policies.isNone && m.declarations.tenancy.isNone) (by decide +kernel)
  obtain ⟨m₂, h₂, hsecond⟩ := Except.exists_eq_ok_of_any
    (x := parseModule "notes.dsl" "app notes \"Notes\"\n\nenum Size \"Size\":\n  small\n")
    (p := fun m => m.uses.isEmpty) (by decide +kernel)
  simp only [Bool.and_eq_true, Option.isNone_iff_eq_none] at hfirst
  obtain ⟨⟨⟨happ, hllm⟩, hpolicies⟩, htenancy⟩ := hfirst
  have hname : declaredName? "notes.dsl" "module notes\n\nenum Tone \"Tone\":\n  calm\n" =
      some "notes" := by decide +kernel
  refine ⟨m₁, m₂, h₁, h₂, ?_⟩
  rw [← hname]
  exact parseModule_append (.inr (by decide)) h₁ h₂ (by decide +kernel) (List.isEmpty_iff.1 hsecond)
    ⟨.inl happ, .inl hllm, .inl hpolicies, .inl htenancy⟩

end

end Blueprint
