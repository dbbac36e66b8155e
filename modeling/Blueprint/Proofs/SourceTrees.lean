import Blueprint.Project
import Blueprint.Proofs.Places
import Blueprint.Proofs.Outcome
import Mathlib.Data.List.Induction

/-!
# Sources of a tree

A tree that files were inserted into has them in the order of their places, one at each place
(`SourceTree.isOrdered_ofList`). So what is collected from several roots is determined by the roots
that the files lie below (`collectSources_exact`): each source file is collected once, with the
first root it lies below.
-/

namespace Blueprint

namespace SourceTree

/-! ## Insertion -/

/-- The tree of the files, inserted one after the other. -/
def ofList (files : List (Path × String)) : SourceTree :=
  files.foldl (fun t f => t.insert f.1 f.2) {}

/-- The file was inserted, and none at the same place after it. -/
def IsKept (files : List (Path × String)) (f : Place × String) : Prop :=
  ∃ before p after, files = before ++ (p, f.2) :: after ∧ p.resolve = f.1 ∧
    ∀ g ∈ after, g.1.resolve ≠ f.1

/-- The files stand in the order of their places, one at each place, and each where a path leads. -/
structure IsOrdered (files : List (Place × String)) : Prop where
  ordered : files.Pairwise fun f g => f.1.Precedes g.1
  resolved : ∀ f ∈ files, f.1.IsResolved

variable {place : Place} {text : String} {files : List (Place × String)} {f : Place × String}

theorem mem_insertFile (h : files.Pairwise fun f g => f.1.Precedes g.1) :
    f ∈ insertFile place text files ↔ f = (place, text) ∨ (f ∈ files ∧ f.1 ≠ place) := by
  induction files with
  | nil => simp [insertFile]
  | cons g rest ih =>
    rw [List.pairwise_cons] at h
    unfold insertFile
    split
    · next hlt =>
      have hne : ∀ f ∈ g :: rest, f.1 ≠ place := by
        refine List.forall_mem_cons.2 ⟨(Place.Precedes.ne hlt).symm, fun f hf => ?_⟩
        exact (Place.Precedes.ne (Place.Precedes.trans hlt (h.1 f hf))).symm
      rw [List.mem_cons]
      exact or_congr_right ⟨fun hf => ⟨hf, hne f hf⟩, And.left⟩
    · next heq =>
      have hplace : g.1 = place := (Place.eq_of_compare heq).symm
      have hne : ∀ f ∈ rest, f.1 ≠ place := fun f hf => hplace ▸ (h.1 f hf).ne.symm
      rw [List.mem_cons, List.mem_cons]
      refine or_congr_right ⟨fun hf => ⟨.inr hf, hne f hf⟩, ?_⟩
      rintro ⟨rfl | hf, hno⟩
      · exact absurd hplace hno
      · exact hf
    · next hgt =>
      have hne : g.1 ≠ place := (Place.precedes_of_gt hgt).ne
      rw [List.mem_cons, List.mem_cons, ih h.2]
      constructor
      · rintro (rfl | hf | ⟨hf, hno⟩)
        · exact .inr ⟨.inl rfl, hne⟩
        · exact .inl hf
        · exact .inr ⟨.inr hf, hno⟩
      · rintro (hf | ⟨rfl | hf, hno⟩)
        · exact .inr (.inl hf)
        · exact .inl rfl
        · exact .inr (.inr ⟨hf, hno⟩)

theorem pairwise_insertFile (h : files.Pairwise fun f g => f.1.Precedes g.1) :
    (insertFile place text files).Pairwise fun f g => f.1.Precedes g.1 := by
  induction files with
  | nil => exact List.pairwise_singleton _ _
  | cons g rest ih =>
    have hcons := h
    rw [List.pairwise_cons] at h
    unfold insertFile
    split
    · next hlt =>
      refine List.pairwise_cons.2 ⟨List.forall_mem_cons.2 ⟨hlt, fun f hf => ?_⟩, hcons⟩
      exact Place.Precedes.trans hlt (h.1 f hf)
    · next heq =>
      refine List.pairwise_cons.2 ⟨fun f hf => ?_, h.2⟩
      rw [Place.eq_of_compare heq]
      exact h.1 f hf
    · next hgt =>
      refine List.pairwise_cons.2 ⟨fun f hf => ?_, ih h.2⟩
      rcases (mem_insertFile h.2).1 hf with rfl | ⟨hf, -⟩
      · exact Place.precedes_of_gt hgt
      · exact h.1 f hf

theorem IsOrdered.insert {t : SourceTree} (h : IsOrdered t.files) (p : Path) (text : String) :
    IsOrdered (t.insert p text).files where
  ordered := pairwise_insertFile h.ordered
  resolved f hf := by
    rcases (mem_insertFile h.ordered).1 hf with rfl | ⟨hf, -⟩
    · exact p.isResolved_resolve
    · exact h.resolved f hf

theorem isOrdered_ofList (files : List (Path × String)) : IsOrdered (ofList files).files := by
  induction files using List.reverseRecOn with
  | nil => exact ⟨.nil, List.forall_mem_nil _⟩
  | append_singleton files f ih =>
    unfold ofList at ih ⊢
    rw [List.foldl_append]
    exact ih.insert f.1 f.2

theorem not_isKept_nil : ¬ IsKept [] f := by
  rintro ⟨before, p, after, e, -⟩
  cases before <;> cases e

theorem isKept_concat {files : List (Path × String)} {g : Path × String} :
    IsKept (files ++ [g]) f ↔ f = (g.1.resolve, g.2) ∨ (IsKept files f ∧ f.1 ≠ g.1.resolve) := by
  constructor
  · rintro ⟨before, p, after, e, hp, hafter⟩
    rcases List.eq_nil_or_concat after with rfl | ⟨after, g', rfl⟩
    · obtain ⟨-, hg⟩ := List.append_inj' e rfl
      obtain rfl : g = (p, f.2) := List.singleton_injective hg
      exact .inl (Prod.ext hp.symm rfl)
    · rw [List.concat_eq_append, ← List.cons_append, ← List.append_assoc] at e
      obtain ⟨rfl, hg⟩ := List.append_inj' e rfl
      obtain rfl : g = g' := List.singleton_injective hg
      rw [List.concat_eq_append, List.forall_mem_append, List.forall_mem_singleton] at hafter
      exact .inr ⟨⟨before, p, after, rfl, hp, hafter.1⟩, hafter.2.symm⟩
  · rintro (rfl | ⟨⟨before, p, after, rfl, hp, hafter⟩, hg⟩)
    · exact ⟨files, g.1, [], rfl, rfl, List.forall_mem_nil _⟩
    · refine ⟨before, p, after ++ [g], by rw [List.append_assoc, List.cons_append], hp, ?_⟩
      rw [List.forall_mem_append, List.forall_mem_singleton]
      exact ⟨hafter, hg.symm⟩

theorem mem_files_ofList {files : List (Path × String)} :
    f ∈ (ofList files).files ↔ IsKept files f := by
  induction files using List.reverseRecOn with
  | nil => exact iff_of_false List.not_mem_nil not_isKept_nil
  | append_singleton files g ih =>
    have hinsert : (ofList (files ++ [g])).files =
        insertFile g.1.resolve g.2 (ofList files).files := by
      unfold ofList
      rw [List.foldl_append]
      rfl
    rw [hinsert, mem_insertFile (isOrdered_ofList files).ordered, isKept_concat, ih]

/-! ## Reading -/

variable {t : SourceTree} {p r : Path}

/-- What is read at a path is the text of the file that is where the path leads. -/
theorem read_eq_ok_iff (h : IsOrdered t.files) :
    t.read p = .ok text ↔ (p.resolve, text) ∈ t.files := by
  have hlookup : t.files.lookup p.resolve = some text ↔ (p.resolve, text) ∈ t.files := by
    rw [List.lookup_eq_some_iff]
    constructor
    · rintro ⟨before, after, hfiles, -⟩
      rw [hfiles]
      exact List.mem_append_right _ List.mem_cons_self
    · intro hmem
      obtain ⟨before, after, hfiles⟩ := List.append_of_mem hmem
      refine ⟨before, after, hfiles, fun f hf => bne_iff_ne.2 ?_⟩
      have hordered := h.ordered
      rw [hfiles, List.pairwise_append] at hordered
      exact (hordered.2.2 f hf _ List.mem_cons_self).ne.symm
  rw [← hlookup]
  unfold read
  cases t.files.lookup p.resolve with
  | none => exact iff_of_false nofun nofun
  | some text' =>
    constructor
    · intro h
      cases h
      rfl
    · intro h
      cases h
      rfl

/-- A file is read at its place as it is written. -/
theorem read_render (h : IsOrdered t.files) (hf : f ∈ t.files) :
    t.read ⟨f.1.render⟩ = .ok f.2 := by
  rw [read_eq_ok_iff h, (h.resolved f hf).resolve_render]
  exact hf

/-! ## Source files below a path -/

/-- Some file is at the path or below it. -/
def Holds (t : SourceTree) (r : Path) : Prop := ∃ f ∈ t.files, f.1.isWithin r.resolve = true

instance : Decidable (t.Holds r) :=
  inferInstanceAs (Decidable (∃ f ∈ t.files, f.1.isWithin r.resolve = true))

theorem discover_of_holds (h : t.Holds r) : t.discover r =
    .ok ((t.files.filter fun f => f.1.isSource && f.1.isWithin r.resolve).map (·.1)) := by
  obtain ⟨f, hf, hwithin⟩ := h
  unfold discover
  split
  · next hnil =>
    have hmem : f.1 ∈ (t.files.map (·.1)).filter (·.isWithin r.resolve) :=
      List.mem_filter.2 ⟨List.mem_map_of_mem hf, hwithin⟩
    rw [hnil] at hmem
    cases hmem
  · rw [List.filter_filter, List.filter_map]
    rfl

theorem discover_of_not_holds (h : ¬ t.Holds r) : t.discover r = .error (.directory r.resolve) := by
  have hnil : (t.files.map (·.1)).filter (·.isWithin r.resolve) = [] := by
    rw [List.filter_eq_nil_iff, List.forall_mem_map]
    exact fun f hf hwithin => h ⟨f, hf, hwithin⟩
  unfold discover
  rw [hnil]

end SourceTree

/-! ## Sources below several paths -/

/-- The file is at one of the paths or below it. -/
def IsBelow (roots : List Path) (f : Place × String) : Prop :=
  ∃ r ∈ roots, f.1.isWithin r.resolve = true

/-- The number of the first path that the file is at or below. -/
def firstRoot (roots : List Path) (f : Place × String) : Nat :=
  roots.findIdx fun r => f.1.isWithin r.resolve

/-- The file belongs to an earlier path, or to the same one and is at an earlier place. -/
def ComesBefore (roots : List Path) (f g : Place × String) : Prop :=
  firstRoot roots f < firstRoot roots g ∨
    (firstRoot roots f = firstRoot roots g ∧ f.1.Precedes g.1)

/-- The source with the path that the place of the file is written as. -/
def asSource (f : Place × String) : Source := ⟨f.1.render, f.2⟩

section

variable {t : SourceTree} {seen : List Place} {r : Path} {roots earlier : List Path}
  {f g : Place × String}

theorem not_isBelow_nil : ¬ IsBelow [] f := nofun

theorem isBelow_cons :
    IsBelow (r :: roots) f ↔ f.1.isWithin r.resolve = true ∨ IsBelow roots f := by
  unfold IsBelow
  rw [List.exists_mem_cons_iff]

theorem firstRoot_of_within (h : f.1.isWithin r.resolve = true) : firstRoot (r :: roots) f = 0 := by
  unfold firstRoot
  rw [List.findIdx_cons, h]
  rfl

theorem firstRoot_of_not_within (h : ¬ f.1.isWithin r.resolve = true) :
    firstRoot (r :: roots) f = firstRoot roots f + 1 := by
  unfold firstRoot
  rw [List.findIdx_cons, Bool.eq_false_iff.2 h]
  rfl

theorem ComesBefore.ne (h : ComesBefore roots f g) : f.1 ≠ g.1 := by
  intro e
  have hroot : firstRoot roots f = firstRoot roots g := by
    unfold firstRoot
    rw [e]
  rcases h with hlt | ⟨-, hlt⟩
  · exact Nat.ne_of_lt hlt hroot
  · exact hlt.ne e

/-- What is collected below a path: source files that were not seen before. -/
def newFiles (t : SourceTree) (seen : List Place) (r : Path) : List (Place × String) :=
  (t.files.filter fun f => f.1.isSource && f.1.isWithin r.resolve).filter fun f =>
    !seen.contains f.1

theorem mem_newFiles : f ∈ newFiles t seen r ↔
    f ∈ t.files ∧ f.1.isSource = true ∧ f.1.isWithin r.resolve = true ∧ f.1 ∉ seen := by
  unfold newFiles
  simp only [List.mem_filter, Bool.and_eq_true, Bool.not_eq_true', List.contains_eq_mem,
    decide_eq_false_iff_not, and_assoc]

theorem readSource_of_mem (ht : SourceTree.IsOrdered t.files) (hf : f ∈ t.files) :
    readSource t f.1 = .ok (asSource f) := by
  unfold readSource
  rw [SourceTree.read_render ht hf]
  rfl

/-- Files of the tree are read at their places, so reading what was found does not fail. -/
theorem mapM_readSource_of_subset (ht : SourceTree.IsOrdered t.files)
    {found : List (Place × String)} (hfound : found ⊆ t.files) :
    (found.map (·.1)).mapM (readSource t) = .ok (found.map asSource) := by
  induction found with
  | nil => rfl
  | cons f rest ih =>
    rw [List.cons_subset] at hfound
    rw [List.map_cons, List.mapM_cons, ih hfound.2, readSource_of_mem ht hfound.1]
    rfl

theorem collectSources_of_holds (ht : SourceTree.IsOrdered t.files) (h : t.Holds r) :
    collectSources t seen (r :: roots) =
      (collectSources t (seen ++ (newFiles t seen r).map (·.1)) roots).map fun others =>
        (newFiles t seen r).map asSource ++ others := by
  have hnew : ((t.files.filter fun f => f.1.isSource && f.1.isWithin r.resolve).map (·.1)).filter
      (fun place => !seen.contains place) = (newFiles t seen r).map (·.1) := List.filter_map
  have hread := mapM_readSource_of_subset ht fun f (hf : f ∈ newFiles t seen r) =>
    (mem_newFiles.1 hf).1
  rw [collectSources, SourceTree.discover_of_holds h]
  show (List.mapM (readSource t) (List.filter _ _) >>= fun sources =>
    _ >>= fun others => Except.ok _) = _
  rw [hnew, hread]
  show (collectSources t (seen ++ (newFiles t seen r).map (·.1)) roots >>= fun others =>
    Except.ok _) = _
  cases collectSources t (seen ++ (newFiles t seen r).map (·.1)) roots <;> rfl

theorem collectSources_of_not_holds (h : ¬ t.Holds r) : collectSources t seen (r :: roots) =
    .error (.unreadable r (.directory r.resolve)) := by
  rw [collectSources, SourceTree.discover_of_not_holds h]
  rfl

/-- Behind a path, what was seen are the source files below it, too. -/
theorem mem_seen_iff (hseen : ∀ f ∈ t.files, f.1.isSource = true → (f.1 ∈ seen ↔ IsBelow earlier f))
    (hf : f ∈ t.files) (hsource : f.1.isSource = true) :
    f.1 ∈ seen ++ (newFiles t seen r).map (·.1) ↔ IsBelow (r :: earlier) f := by
  have hnew : f.1 ∈ (newFiles t seen r).map (·.1) ↔
      f.1.isWithin r.resolve = true ∧ f.1 ∉ seen := by
    rw [List.mem_map]
    constructor
    · rintro ⟨g, hg, e⟩
      rw [← e]
      exact (mem_newFiles.1 hg).2.2
    · exact fun h => ⟨f, mem_newFiles.2 ⟨hf, hsource, h⟩, rfl⟩
  rw [List.mem_append, hnew, isBelow_cons, ← hseen f hf hsource]
  tauto

/-- What is collected while the source files below earlier paths were seen. The induction is on the
paths; it is the invariant of the places seen that carries it. -/
theorem exists_collectSources (ht : SourceTree.IsOrdered t.files)
    (hseen : ∀ f ∈ t.files, f.1.isSource = true → (f.1 ∈ seen ↔ IsBelow earlier f))
    (hroots : ∀ r ∈ roots, t.Holds r) : ∃ found : List (Place × String),
      collectSources t seen roots = .ok (found.map asSource) ∧
      (∀ f, f ∈ found ↔ f ∈ t.files ∧ f.1.isSource = true ∧ IsBelow roots f ∧ ¬ IsBelow earlier f) ∧
      found.Pairwise (ComesBefore roots) := by
  induction roots generalizing seen earlier with
  | nil =>
    refine ⟨[], rfl, fun f => ?_, .nil⟩
    exact iff_of_false List.not_mem_nil fun h => not_isBelow_nil h.2.2.1
  | cons r roots ih =>
    rw [List.forall_mem_cons] at hroots
    obtain ⟨others, hothers, hmem, hordered⟩ := ih (fun f => mem_seen_iff (r := r) hseen) hroots.2
    refine ⟨newFiles t seen r ++ others, ?_, fun f => ?_, List.pairwise_append.2 ⟨?_, ?_, ?_⟩⟩
    · rw [collectSources_of_holds ht hroots.1, hothers, List.map_append]
      rfl
    · rw [List.mem_append, mem_newFiles, hmem, isBelow_cons, isBelow_cons]
      have h := hseen f
      tauto
    · refine ((ht.ordered.filter _).filter _).imp_of_mem fun hf hg h => .inr ⟨?_, h⟩
      rw [firstRoot_of_within (mem_newFiles.1 hf).2.2.1,
        firstRoot_of_within (mem_newFiles.1 hg).2.2.1]
    · refine hordered.imp_of_mem fun {f g} hf hg h => ?_
      have hno {f : Place × String} (hf : f ∈ others) : ¬ f.1.isWithin r.resolve = true :=
        fun hwithin => ((hmem f).1 hf).2.2.2 (isBelow_cons.2 (.inl hwithin))
      unfold ComesBefore
      rw [firstRoot_of_not_within (hno hf), firstRoot_of_not_within (hno hg)]
      exact h.imp Nat.succ_lt_succ (And.imp_left (congrArg Nat.succ))
    · intro f hf g hg
      have hno : ¬ g.1.isWithin r.resolve = true :=
        fun hwithin => ((hmem g).1 hg).2.2.2 (isBelow_cons.2 (.inl hwithin))
      refine .inl ?_
      rw [firstRoot_of_within (mem_newFiles.1 hf).2.2.1, firstRoot_of_not_within hno]
      exact Nat.succ_pos _

theorem collectSources_of_first (ht : SourceTree.IsOrdered t.files) {before after : List Path}
    (hbefore : ∀ r ∈ before, t.Holds r) (h : ¬ t.Holds r) :
      collectSources t seen (before ++ r :: after) =
      .error (.unreadable r (.directory r.resolve)) := by
  induction before generalizing seen with
  | nil => exact collectSources_of_not_holds h
  | cons r' before ih =>
    rw [List.forall_mem_cons] at hbefore
    rw [List.cons_append, collectSources_of_holds ht hbefore.1, ih hbefore.2]
    rfl

/-- If not every path holds a file, there is a first one that does not. -/
theorem exists_first_not_holds (h : ¬ ∀ r ∈ roots, t.Holds r) : ∃ before r after,
    roots = before ++ r :: after ∧ (∀ r' ∈ before, t.Holds r') ∧ ¬ t.Holds r := by
  cases hfind : roots.find? fun r => ¬ t.Holds r with
  | none =>
    refine absurd (fun r hr => ?_) h
    exact Decidable.of_not_not fun hno => List.find?_eq_none.1 hfind r hr (decide_eq_true hno)
  | some r =>
    obtain ⟨hr, before, after, e, hbefore⟩ := List.find?_eq_some_iff_append.1 hfind
    refine ⟨before, r, after, e, fun r' hr' => ?_, of_decide_eq_true hr⟩
    have hholds := hbefore r' hr'
    rw [Bool.not_eq_true', decide_eq_false_iff_not] at hholds
    exact Decidable.of_not_not hholds

end

/-- From a tree that files were inserted into, and paths each of which holds a file, all source
files at the paths or below them are collected: each once, in the order of the first paths that they
are below and then of their places, and with the text that was inserted last and is read at its
path. Only if one of the paths holds no file is nothing collected, and the error is that of the
first one. -/
theorem collectSources_exact (files : List (Path × String)) (roots : List Path) :
    let t := SourceTree.ofList files
    ((∀ r ∈ roots, t.Holds r) → ∃ found : List (Place × String),
      collectSources t [] roots = .ok (found.map asSource) ∧
      (∀ f, f ∈ found ↔ SourceTree.IsKept files f ∧ f.1.isSource = true ∧ IsBelow roots f) ∧
      found.Pairwise (ComesBefore roots) ∧ (found.map (·.1.render)).Nodup ∧
      ∀ f ∈ found, t.read ⟨f.1.render⟩ = .ok f.2) ∧
    ∀ e, collectSources t [] roots = .error e ↔ ∃ before r after, roots = before ++ r :: after ∧
      (∀ r' ∈ before, t.Holds r') ∧ ¬ t.Holds r ∧ e = .unreadable r (.directory r.resolve) := by
  intro t
  have ht : SourceTree.IsOrdered t.files := SourceTree.isOrdered_ofList files
  have hseen : ∀ f ∈ t.files, f.1.isSource = true → (f.1 ∈ ([] : List Place) ↔ IsBelow [] f) :=
    fun f _ _ => iff_of_false List.not_mem_nil not_isBelow_nil
  have hcollected (hroots : ∀ r ∈ roots, t.Holds r) := exists_collectSources ht hseen hroots
  refine ⟨fun hroots => ?_, fun e => ⟨fun he => ?_, ?_⟩⟩
  · obtain ⟨found, hfound, hmem, hordered⟩ := hcollected hroots
    have hstored : ∀ f ∈ found, f ∈ t.files := fun f hf => ((hmem f).1 hf).1
    refine ⟨found, hfound, fun f => ?_, hordered, List.pairwise_map.2 ?_, fun f hf => ?_⟩
    · rw [hmem, and_iff_left not_isBelow_nil, SourceTree.mem_files_ofList]
    · refine hordered.imp_of_mem fun {f g} hf hg h e => h.ne ?_
      exact (ht.resolved f (hstored f hf)).eq_of_render (ht.resolved g (hstored g hg)) e
    · exact SourceTree.read_render ht (hstored f hf)
  · have hno : ¬ ∀ r ∈ roots, t.Holds r := by
      intro hroots
      obtain ⟨found, hfound, -⟩ := hcollected hroots
      cases he.symm.trans hfound
    obtain ⟨before, r, after, hsplit, hbefore, hr⟩ := exists_first_not_holds hno
    rw [hsplit, collectSources_of_first ht hbefore hr] at he
    exact ⟨before, r, after, hsplit, hbefore, hr, (Except.error.inj he).symm⟩
  · rintro ⟨before, r, after, hsplit, hbefore, hr, rfl⟩
    rw [hsplit]
    exact collectSources_of_first ht hbefore hr

/-- A directory, and the one above it by another way. -/
theorem collectSources_exact_nested :
    let files : List (Path × String) := [(⟨"app/core/a.dsl"⟩, "module a"),
      (⟨"app/b.dsl"⟩, "module b"), (⟨"app/trellis.toml"⟩, "")]
    let t := SourceTree.ofList files
    let roots : List Path := [⟨"app/core"⟩, ⟨"./app/x/.."⟩]
    (∀ r ∈ roots, t.Holds r) ∧ ∃ found : List (Place × String),
      collectSources t [] roots = .ok (found.map asSource) ∧
      found.Pairwise (ComesBefore roots) ∧
        (⟨[.name "app", .name "b.dsl"]⟩, "module b") ∈ found := by
  intro files t roots
  have hroots : ∀ r ∈ roots, t.Holds r := by decide +kernel
  obtain ⟨found, hfound, hmem, hordered, -⟩ := (collectSources_exact files roots).1 hroots
  have hkept : SourceTree.IsKept files (⟨[.name "app", .name "b.dsl"]⟩, "module b") :=
    SourceTree.mem_files_ofList.1 (by decide +kernel)
  have hbelow : IsBelow roots (⟨[.name "app", .name "b.dsl"]⟩, "module b") :=
    ⟨⟨"./app/x/.."⟩, by decide, by decide +kernel⟩
  exact ⟨hroots, found, hfound, hordered, (hmem _).2 ⟨hkept, by decide +kernel, hbelow⟩⟩

example :
    (collectSources (.ofList [(⟨"b.dsl"⟩, "b"), (⟨"app/a.dsl"⟩, "a"), (⟨"app/x/c.dsl"⟩, "c")]) []
    [⟨"app/x"⟩, ⟨"app/../."⟩]).toOption =
      some [⟨"app/x/c.dsl", "c"⟩, ⟨"app/a.dsl", "a"⟩, ⟨"b.dsl", "b"⟩] := by
  decide +kernel

end Blueprint
