import Blueprint.Module.Symbols
import Blueprint.Proofs.WellFormed.Basic
import Mathlib.Data.List.Count
import Mathlib.Data.List.Find
import Mathlib.Data.List.Nodup

/-!
# What a symbol table holds

Whatever a module declares is a claim of the module to a subject, and putting modules into a table
takes their claims one after the other (`ofModules_eq_foldl`).

1. A claim to a subject that is taken is reported and changes nothing else (`put_of_owner`). Any
   other one comes into the table, behind those that are there (`Holds.put`).
2. By induction over the claims, the table holds the first claim to every subject, and the others
   are reported in their order (`Holds.foldl_put`).
3. Subjects are counted: a name is claimed as often as it is declared (`count_named_subjects`), and
   a singleton as often as a module has it. Hence modules have a symbol table exactly if no kind
   declares a name twice and no singleton is declared by two modules (`exists_of?_iff`), and the
   table then holds the declarations of all of them (`declarations_of_of?`).
-/

namespace Blueprint

theorem DeclKind.mem_all (k : DeclKind) : k ∈ DeclKind.all := by
  cases k <;> decide

theorem DeclKind.nodup_all : DeclKind.all.Nodup := by decide

/-- Of lists of which only one can be other than empty, that one is the whole. -/
theorem flatMap_eq_of_unique {α β : Type} {keys : List α} {f : α → List β} (key : α)
    (hn : keys.Nodup) (hk : key ∈ keys) (h : ∀ k, k ≠ key → f k = []) : keys.flatMap f = f key := by
  obtain ⟨before, after, rfl⟩ := List.append_of_mem hk
  have hnil : ∀ k ∈ before ++ after, f k = [] := fun k hmem =>
    h k fun e => (List.nodup_cons.1 (List.nodup_middle.1 hn)).1 (e ▸ hmem)
  have hbefore : before.flatMap f = [] :=
    List.flatMap_eq_nil_iff.2 fun k hmem => hnil k (List.mem_append_left _ hmem)
  have hafter : after.flatMap f = [] :=
    List.flatMap_eq_nil_iff.2 fun k hmem => hnil k (List.mem_append_right _ hmem)
  rw [List.flatMap_append, List.flatMap_cons, hbefore, hafter, List.nil_append, List.append_nil]

/-- Of lists of which only one can hold an element, that one counts. -/
theorem count_flatMap_of_unique {α β : Type} [DecidableEq β] {keys : List α} {f : α → List β}
    (key : α) {b : β} (hn : keys.Nodup) (hk : key ∈ keys) (h : ∀ k, k ≠ key → b ∉ f k) :
    (keys.flatMap f).count b = (f key).count b := by
  have hnil : ∀ k, k ≠ key → (f k).filter (· == b) = [] := fun k hne =>
    List.filter_eq_nil_iff.2 fun c hc hcb => h k hne (eq_of_beq hcb ▸ hc)
  rw [List.count_eq_length_filter, List.count_eq_length_filter, List.filter_flatMap,
    flatMap_eq_of_unique key hn hk hnil]

theorem findSome?_flatMap {α β γ : Type} (l : List α) (g : α → List β) (f : β → Option γ) :
    (l.flatMap g).findSome? f = l.findSome? fun a => (g a).findSome? f := by
  induction l with
  | nil => rfl
  | cons a l ih =>
    rw [List.flatMap_cons, List.findSome?_append, ih, List.findSome?_cons]
    cases (g a).findSome? f <;> rfl

/-! ## Claims -/

/-- What can be claimed by one module only. -/
inductive Subject where
  | named (kind : DeclKind) (name : String)
  | single (what : Singleton)
  deriving DecidableEq

/-- One thing that a module declares. -/
inductive Item where
  | named (d : Declaration)
  | single (what : Singleton) (body : what.Body)

namespace Item

def subject : Item → Subject
  | named d => .named d.kind d.name
  | single what _ => .single what

def location : Item → Location
  | named d => d.location
  | single what body => what.location body

/-- What is declared, if the item is a declaration of the kind. -/
def bodyOf? (k : DeclKind) : Item → Option k.Body
  | named d => d.bodyOf? k
  | single _ _ => none

/-- What is declared, if the item is the singleton. -/
def single? (what : Singleton) : Item → Option what.Body
  | named _ => none
  | single w body => if h : w = what then some (h ▸ body) else none

theorem subject_eq_of_single? {e : Item} {what : Singleton} (h : e.single? what ≠ none) :
    e.subject = .single what := by
  cases e with
  | named d => exact absurd rfl h
  | single w body =>
    unfold single? at h
    by_cases hw : w = what
    · exact congrArg Subject.single hw
    · exact absurd (dif_neg hw) h

end Item

/-- What is declared, named declarations first, kind by kind. -/
def Declarations.items (d : Declarations) : List Item :=
  d.toList.map .named ++
    Singleton.all.flatMap fun what => (d.single? what).toList.map (.single what)

/-- What a module declares as its claim to the subject. -/
structure Claim where
  owner : String
  item : Item

def Claim.subject (c : Claim) : Subject := c.item.subject

/-- The claims of a module, in order. -/
def Module.claims (m : Module) : List Claim := m.declarations.items.map (Claim.mk m.name)

/-- The claims whose subject an earlier one has, each with the first claim to it. -/
def collisionsFrom (seen : List Claim) : List Claim → List (Claim × Claim)
  | [] => []
  | c :: rest =>
    match seen.find? (·.subject == c.subject) with
    | some first => (first, c) :: collisionsFrom seen rest
    | none => collisionsFrom (seen ++ [c]) rest

/-- Claims do not collide exactly if their subjects are all different. -/
theorem collisionsFrom_eq_nil_iff {seen claims : List Claim} :
    collisionsFrom seen claims = [] ↔
      (∀ c ∈ claims, ∀ s ∈ seen, s.subject ≠ c.subject) ∧
        claims.Pairwise fun a b => a.subject ≠ b.subject := by
  induction claims generalizing seen with
  | nil => simp [collisionsFrom]
  | cons c rest ih =>
    cases h : seen.find? (·.subject == c.subject) with
    | some first =>
      have hs := List.find?_some h
      have hm := List.mem_of_find?_eq_some h
      simp only [collisionsFrom, h]
      refine iff_of_false (by simp) fun ⟨hc, _⟩ => ?_
      exact hc c List.mem_cons_self first hm (by simpa using hs)
    | none =>
      have hs : ∀ s ∈ seen, s.subject ≠ c.subject := by simpa using h
      simp only [collisionsFrom, h, ih, List.pairwise_cons, List.mem_append, List.mem_singleton,
        List.forall_mem_cons, or_imp, forall_and, forall_eq]
      exact ⟨fun ⟨⟨hseen, hc⟩, hp⟩ => ⟨⟨hs, hseen⟩, hc, hp⟩,
        fun ⟨⟨_, hseen⟩, hc, hp⟩ => ⟨⟨hseen, hc⟩, hp⟩⟩

/-- The finding about a claim that collides with an earlier one. -/
def collisionFinding : Claim × Claim → Finding LinkFault
  | (first, c) =>
    { location := some c.item.location
      fault := match c.subject with
        | .named kind name => .declaredTwice kind name first.owner c.owner
        | .single what => .singletonTwice what first.owner c.owner }

/-- The claims that are kept, and behind them the first claim to every other subject. -/
def keptFrom (kept : List Claim) : List Claim → List Claim
  | [] => kept
  | c :: rest =>
    match kept.find? (·.subject == c.subject) with
    | some _ => keptFrom kept rest
    | none => keptFrom (kept ++ [c]) rest

/-- Claims that do not collide are all kept. -/
theorem keptFrom_of_collisionsFrom_eq_nil {kept claims : List Claim}
    (h : collisionsFrom kept claims = []) : keptFrom kept claims = kept ++ claims := by
  induction claims generalizing kept with
  | nil => exact (List.append_nil kept).symm
  | cons c rest ih =>
    unfold collisionsFrom at h
    unfold keptFrom
    cases hc : kept.find? (·.subject == c.subject) with
    | some first => simp [hc] at h
    | none =>
      rw [hc] at h
      exact (ih h).trans (List.append_cons kept c rest).symm

/-! ## Filling a table -/

namespace SymbolTable

theorem owner?_eq_none_iff {t : SymbolTable} {k : DeclKind} {n : String} :
    t.owner? k n = none ↔ n ∉ (t.named k).keys := by
  rw [← t.mem_owners_iff, ← OrderedMap.isSome_get?_iff, ← Option.not_isSome_iff_eq_none]
  rfl

variable {t : SymbolTable} {d : Declaration} (hfree : t.owner? d.kind d.name = none)

include hfree

theorem owner?_add (module : String) (k : DeclKind) (n : String) :
    (t.add module d).owner? k n =
      if k = d.kind ∧ n = d.name then some module else t.owner? k n := by
  have hkey : (d.kind, d.name) ∉ t.owners.keys := by
    rw [t.mem_owners_iff]
    exact owner?_eq_none_iff.1 hfree
  have hinsert := OrderedMap.get?_insert_of_not_mem hkey module (k, n)
  simp only [Prod.mk.injEq] at hinsert
  exact hinsert

/-- A declaration whose name is free comes behind those of its kind. -/
theorem values_add (module : String) (k : DeclKind) :
    ((t.add module d).named k).values = (t.named k).values ++ (d.bodyOf? k).toList := by
  by_cases hk : d.kind = k
  · subst hk
    show (withNamed t.named d d.kind).values = _
    rw [withNamed_self, OrderedMap.values_insert_of_not_mem (owner?_eq_none_iff.1 hfree)]
    unfold Declaration.bodyOf?
    rw [dif_pos rfl]
    rfl
  · show (withNamed t.named d k).values = _
    rw [withNamed_of_ne _ hk]
    unfold Declaration.bodyOf?
    rw [dif_neg hk]
    exact (List.append_nil _).symm

end SymbolTable

/-- The table with what is claimed. -/
def Claim.addTo (c : Claim) (t : SymbolTable) : SymbolTable :=
  match c.item with
  | .named d => t.add c.owner d
  | .single what body => t.setSingle what body

namespace Claim

variable {t : SymbolTable} (c : Claim)

theorem named_addTo (hfree : ∀ k n, c.subject = .named k n → t.owner? k n = none) (k : DeclKind) :
    (c.addTo t).declarations.named k = t.declarations.named k ++ (c.item.bodyOf? k).toList := by
  obtain ⟨owner, d | ⟨what, body⟩⟩ := c
  · exact SymbolTable.values_add (hfree _ _ rfl) owner k
  · cases what <;> exact (List.append_nil _).symm

theorem single?_addTo (what : Singleton)
    (hfree : c.subject = .single what → t.declarations.single? what = none) :
    (c.addTo t).declarations.single? what =
      (t.declarations.single? what).or (c.item.single? what) := by
  obtain ⟨owner, d | ⟨w, body⟩⟩ := c
  · cases what <;> exact Option.or_none.symm
  · by_cases hw : w = what
    · subst hw
      rw [hfree rfl]
      cases w <;> rfl
    · have hother : Item.single? what (.single w body) = none := dif_neg hw
      rw [hother, Option.or_none]
      cases w <;> cases what <;> first | rfl | exact absurd rfl hw

end Claim

namespace SymbolDraft

variable {s : SymbolDraft} {c first : Claim} {kept : List Claim}

/-- The module that the subject belongs to. -/
def ownerOf? (s : SymbolDraft) : Subject → Option String
  | .named kind name => s.table.owner? kind name
  | .single what => s.holder? what

/-- Puts what is claimed into the table. -/
def put (s : SymbolDraft) (c : Claim) : SymbolDraft :=
  match c.item with
  | .named d => s.insert c.owner d
  | .single what body => s.insertSingle c.owner what body

/-- A module is put into a table claim by claim. -/
theorem insertModule_eq_foldl (s : SymbolDraft) (m : Module) :
    s.insertModule m = m.claims.foldl put s := by
  have hsingle (s : SymbolDraft) (what : Singleton) :
      (m.declarations.single? what).elim s (s.insertSingle m.name what) =
        (((m.declarations.single? what).toList.map (.single what)).map
          (Claim.mk m.name)).foldl put s := by
    cases m.declarations.single? what <;> rfl
  unfold insertModule Module.claims Declarations.items
  simp only [hsingle, List.map_append, List.foldl_append, List.map_flatMap, List.foldl_flatMap,
    List.foldl_map]
  rfl

theorem ofModules_eq_foldl (modules : List Module) :
    ofModules modules = (modules.flatMap Module.claims).foldl put empty := by
  unfold ofModules
  rw [List.foldl_flatMap]
  exact congrArg (fun f => modules.foldl f empty) (funext₂ insertModule_eq_foldl)

/-- A claim to a subject that is taken is reported and changes nothing else. -/
theorem put_of_owner (h : s.ownerOf? c.subject = some first.owner) :
    s.put c = { s with clashes := s.clashes ++ [collisionFinding (first, c)] } := by
  obtain ⟨owner, d | ⟨what, body⟩⟩ := c
  · replace h : s.table.owner? d.kind d.name = some first.owner := h
    simp only [put, insert, h]
    rfl
  · replace h : s.holder? what = some first.owner := h
    simp only [put, insertSingle, h]
    rfl

/-- A claim to a subject that is free comes into the table, and the subject belongs to its module
from then on. -/
theorem put_of_free (hfree : s.ownerOf? c.subject = none) :
    (s.put c).table = c.addTo s.table ∧ (s.put c).clashes = s.clashes ∧
      ∀ x, (s.put c).ownerOf? x = if x = c.subject then some c.owner else s.ownerOf? x := by
  obtain ⟨owner, d | ⟨what, body⟩⟩ := c
  · replace hfree : s.table.owner? d.kind d.name = none := hfree
    have hput : s.put ⟨owner, .named d⟩ = { s with table := s.table.add owner d } := by
      simp only [put, insert, hfree]
    rw [hput]
    refine ⟨rfl, rfl, ?_⟩
    rintro (⟨k, n⟩ | w)
    · simp [ownerOf?, SymbolTable.owner?_add hfree, Claim.subject, Item.subject]
    · simp [ownerOf?, Claim.subject, Item.subject]
  · replace hfree : s.holder? what = none := hfree
    have hput : s.put ⟨owner, .single what body⟩ =
        { s with
          table := s.table.setSingle what body
          holder? := fun w => if w = what then some owner else s.holder? w } := by
      simp only [put, insertSingle, hfree]
    rw [hput]
    refine ⟨rfl, rfl, ?_⟩
    rintro (⟨k, n⟩ | w)
    · cases what <;> rfl
    · simp [ownerOf?, Claim.subject, Item.subject]

/-- What stands in the table are the kept claims, one behind the other. -/
structure Holds (s : SymbolDraft) (kept : List Claim) : Prop where
  named : ∀ k, s.table.declarations.named k = kept.filterMap (·.item.bodyOf? k)
  single : ∀ what, s.table.declarations.single? what = kept.findSome? (·.item.single? what)
  owner : ∀ x, s.ownerOf? x = (kept.find? (·.subject == x)).map (·.owner)

theorem holds_empty : Holds empty [] where
  named _ := rfl
  single what := by cases what <;> rfl
  owner x := by cases x <;> rfl

/-- A singleton that belongs to no module is not in the table. -/
theorem Holds.single?_eq_none (h : s.Holds kept) {what : Singleton}
    (hfree : s.ownerOf? (.single what) = none) : s.table.declarations.single? what = none := by
  rw [h.owner, Option.map_eq_none_iff, List.find?_eq_none] at hfree
  rw [h.single, List.findSome?_eq_none_iff]
  intro c hc
  by_contra hsome
  exact hfree c hc (beq_iff_eq.2 (Item.subject_eq_of_single? hsome))

/-- A claim to a free subject comes behind those that are there. -/
theorem Holds.put (h : s.Holds kept) (hfree : s.ownerOf? c.subject = none) :
    (s.put c).Holds (kept ++ [c]) := by
  obtain ⟨htable, -, howner⟩ := put_of_free hfree
  constructor
  · intro k
    rw [htable, c.named_addTo fun k n hx => ?_, h.named, List.filterMap_append]
    · cases hb : c.item.bodyOf? k <;> simp [hb]
    · rwa [hx] at hfree
  · intro what
    rw [htable, c.single?_addTo what fun hx => h.single?_eq_none (by rwa [hx] at hfree), h.single,
      List.findSome?_append]
    cases hb : c.item.single? what <;> simp [hb]
  · intro x
    rw [howner, List.find?_append, Option.map_or, ← h.owner]
    by_cases hx : x = c.subject
    · subst hx
      simp [hfree]
    · simp [hx, Ne.symm hx]

/-- However many claims are put into a table, it holds the first one to every subject, and the
others are reported. -/
theorem Holds.foldl_put (h : s.Holds kept) (claims : List Claim) :
    (claims.foldl SymbolDraft.put s).Holds (keptFrom kept claims) ∧
      (claims.foldl SymbolDraft.put s).clashes =
        s.clashes ++ (collisionsFrom kept claims).map collisionFinding := by
  induction claims generalizing s kept with
  | nil => exact ⟨h, (List.append_nil _).symm⟩
  | cons c rest ih =>
    have howner := h.owner c.subject
    unfold keptFrom collisionsFrom
    cases hc : kept.find? (·.subject == c.subject) with
    | some first =>
      rw [hc] at howner
      have hput := put_of_owner howner
      have hsame : (s.put c).Holds kept := by
        rw [hput]
        exact ⟨h.named, h.single, h.owner⟩
      obtain ⟨hholds, hclashes⟩ := ih hsame
      refine ⟨hholds, hclashes.trans ?_⟩
      rw [hput, List.append_assoc]
      rfl
    | none =>
      rw [hc] at howner
      obtain ⟨hholds, hclashes⟩ := ih (h.put howner)
      exact ⟨hholds, hclashes.trans (by rw [(put_of_free howner).2.1])⟩

/-- The table of all modules holds the first claim to every subject. -/
theorem holds_ofModules (modules : List Module) :
    (ofModules modules).Holds (keptFrom [] (modules.flatMap Module.claims)) := by
  rw [ofModules_eq_foldl]
  exact (holds_empty.foldl_put _).1

theorem clashes_ofModules (modules : List Module) :
    (ofModules modules).clashes =
      (collisionsFrom [] (modules.flatMap Module.claims)).map collisionFinding := by
  rw [ofModules_eq_foldl, (holds_empty.foldl_put _).2]
  rfl

end SymbolDraft

/-! ## Subjects -/

namespace Declarations

/-- The names that are declared of a kind. -/
def namesOf (d : Declarations) (k : DeclKind) : List String := (d.named k).map k.name

/-- The singletons that are declared, one after the other. -/
def singletons (d : Declarations) : List Singleton :=
  Singleton.all.filter fun what => (d.single? what).isSome

/-- What a module with these declarations claims. -/
def subjects (d : Declarations) : List Subject :=
  (DeclKind.all.flatMap fun k => (d.namesOf k).map (.named k)) ++ d.singletons.map .single

theorem count_named_subjects (d : Declarations) (k : DeclKind) (n : String) :
    d.subjects.count (.named k n) = (d.namesOf k).count n := by
  have hinj : Function.Injective (Subject.named k) := fun a b e => by simpa using e
  have hsingle : Subject.named k n ∉ d.singletons.map .single := by simp
  unfold subjects
  rw [List.count_append, List.count_eq_zero.2 hsingle, Nat.add_zero,
    count_flatMap_of_unique k DeclKind.nodup_all k.mem_all,
    List.count_map_of_injective _ _ hinj]
  intro k' hk'
  simp [hk']

theorem count_single_subjects (d : Declarations) (what : Singleton) :
    d.subjects.count (.single what) = d.singletons.count what := by
  have hinj : Function.Injective Subject.single := fun a b e => by simpa using e
  have hnamed : Subject.single what ∉
      DeclKind.all.flatMap fun k => (d.namesOf k).map (.named k) := by
    simp
  unfold subjects
  rw [List.count_append, List.count_eq_zero.2 hnamed, Nat.zero_add,
    List.count_map_of_injective _ _ hinj]

theorem count_singletons (d : Declarations) (what : Singleton) :
    d.singletons.count what = (d.single? what).toList.length := by
  have hone : Singleton.all.count what = 1 := by cases what <;> decide
  unfold singletons
  cases h : d.single? what with
  | none => exact List.count_eq_zero.2 (by simp [h])
  | some body => rw [List.count_filter (by simp [h]), hone]; rfl

/-- One module alone claims a subject twice only if it declares a name twice. -/
theorem nodup_subjects_iff (d : Declarations) : d.subjects.Nodup ↔ ∀ k, (d.namesOf k).Nodup := by
  simp only [List.nodup_iff_count_le_one, ← count_named_subjects]
  refine ⟨fun h k n => h _, ?_⟩
  rintro h (⟨k, n⟩ | what)
  · exact h k n
  · rw [count_single_subjects, count_singletons]
    exact Option.length_toList_le

/-- Of all declarations, those of a kind are the ones that are listed for it. -/
theorem filterMap_bodyOf?_toList (d : Declarations) (k : DeclKind) :
    d.toList.filterMap (Declaration.bodyOf? k) = d.named k := by
  unfold toList
  rw [List.filterMap_flatMap, flatMap_eq_of_unique k DeclKind.nodup_all k.mem_all]
  · unfold ofKind Declaration.bodyOf?
    simp
  · intro other hother
    unfold ofKind Declaration.bodyOf?
    simp [hother]

theorem filterMap_bodyOf?_items (d : Declarations) (k : DeclKind) :
    d.items.filterMap (Item.bodyOf? k) = d.named k := by
  have hsingle : (Singleton.all.flatMap fun what =>
      (d.single? what).toList.map (Item.single what)).filterMap (Item.bodyOf? k) = [] := by
    rw [List.filterMap_flatMap, List.flatMap_eq_nil_iff]
    intro what _
    cases d.single? what <;> rfl
  unfold items
  rw [List.filterMap_append, hsingle, List.append_nil, List.filterMap_map]
  exact d.filterMap_bodyOf?_toList k

theorem findSome?_single?_items (d : Declarations) (what : Singleton) :
    d.items.findSome? (Item.single? what) = d.single? what := by
  have hnamed : (d.toList.map Item.named).findSome? (Item.single? what) = none := by
    simp [Item.single?]
  unfold items
  rw [List.findSome?_append, hnamed, Option.none_or]
  unfold Singleton.all
  cases what <;> cases hc : d.single? .llmConfig <;> cases hp : d.single? .policies <;>
    cases ht : d.single? .tenancy <;> simp [hc, hp, ht, Item.single?]

/-- The named declarations, each as what it claims. -/
theorem map_subject_toList (d : Declarations) :
    (d.toList.map fun n => Subject.named n.kind n.name) =
      DeclKind.all.flatMap fun k => (d.namesOf k).map (.named k) := by
  unfold toList ofKind namesOf
  simp only [List.map_flatMap, List.map_map]
  rfl

theorem map_subject_items (d : Declarations) : d.items.map Item.subject = d.subjects := by
  have hsingle : (Singleton.all.flatMap fun what =>
      (d.single? what).toList.map (Item.single what)).map Item.subject =
        d.singletons.map .single := by
    unfold singletons
    induction Singleton.all with
    | nil => rfl
    | cons what rest ih =>
      rw [List.flatMap_cons, List.map_append, ih, List.filter_cons]
      cases d.single? what <;> rfl
  unfold items subjects
  rw [List.map_append, hsingle, List.map_map, ← d.map_subject_toList]
  rfl

theorem ext_single {d d' : Declarations} (hnamed : ∀ k, d.named k = d'.named k)
    (hsingle : ∀ what, d.single? what = d'.single? what) : d = d' := by
  obtain ⟨named, c, p, t⟩ := d
  obtain ⟨named', c', p', t'⟩ := d'
  obtain rfl : named = named' := funext hnamed
  obtain rfl : c = c' := hsingle .llmConfig
  obtain rfl : p = p' := hsingle .policies
  obtain rfl : t = t' := hsingle .tenancy
  rfl

/-- What the modules declare together: the declarations of each kind module by module. -/
def ofModules (modules : List Module) : Declarations where
  named kind := modules.flatMap (·.declarations.named kind)
  llmConfig := modules.findSome? (·.declarations.llmConfig)
  policies := modules.findSome? (·.declarations.policies)
  tenancy := modules.findSome? (·.declarations.tenancy)

theorem ofModules_singleton (m : Module) : ofModules [m] = m.declarations := by
  refine ext_single (fun k => List.append_nil _) fun what => ?_
  have hone {α : Type} (f : Module → Option α) : [m].findSome? f = f m := by
    rw [List.findSome?_singleton]
  cases what
  · exact hone (·.declarations.llmConfig)
  · exact hone (·.declarations.policies)
  · exact hone (·.declarations.tenancy)

end Declarations

theorem Module.map_subject_claims (m : Module) :
    m.claims.map (·.subject) = m.declarations.subjects := by
  rw [← m.declarations.map_subject_items]
  unfold claims
  rw [List.map_map]
  rfl

theorem Module.owner_of_mem_claims (m : Module) {c : Claim} (h : c ∈ m.claims) :
    c.owner = m.name := by
  obtain ⟨e, -, rfl⟩ := List.mem_map.1 h
  rfl

theorem map_subject_claims (modules : List Module) :
    (modules.flatMap Module.claims).map (·.subject) =
      modules.flatMap (·.declarations.subjects) := by
  rw [List.map_flatMap]
  exact congrArg (modules.flatMap ·) (funext Module.map_subject_claims)

theorem collisionsFrom_claims_eq_nil_iff {modules : List Module} :
    collisionsFrom [] (modules.flatMap Module.claims) = [] ↔
      (modules.flatMap (·.declarations.subjects)).Nodup := by
  rw [collisionsFrom_eq_nil_iff, ← map_subject_claims]
  unfold List.Nodup
  rw [List.pairwise_map]
  simp

namespace SymbolTable

variable {t : SymbolTable} {k : DeclKind} {n : String} {modules : List Module}

/-! ## Look-ups -/

/-- Names stand for what is declared under them. -/
theorem namesOf_declarations (t : SymbolTable) (k : DeclKind) :
    t.declarations.namesOf k = (t.named k).keys := by
  show ((t.named k).entries.map (·.2)).map k.name = (t.named k).entries.map (·.1)
  rw [List.map_map]
  exact List.map_congr_left (t.name_eq_key k)

theorem nodup_namesOf (t : SymbolTable) (k : DeclKind) : (t.declarations.namesOf k).Nodup := by
  rw [namesOf_declarations]
  exact (t.named k).nodup

/-- The table answers for the names that are declared. -/
theorem contains_iff : t.contains k n = true ↔ n ∈ t.declarations.namesOf k := by
  rw [namesOf_declarations]
  exact OrderedMap.contains_iff

theorem isSome_owner?_iff : (t.owner? k n).isSome = true ↔ n ∈ t.declarations.namesOf k := by
  rw [namesOf_declarations, ← t.mem_owners_iff]
  exact OrderedMap.isSome_get?_iff

/-- A name is declared exactly if it belongs to a module. -/
theorem contains_eq_isSome_owner? (t : SymbolTable) (k : DeclKind) (n : String) :
    t.contains k n = (t.owner? k n).isSome := by
  rw [Bool.eq_iff_iff, contains_iff, isSome_owner?_iff]

theorem find?_isSome_iff : (t.find? k n).isSome = true ↔ n ∈ t.declarations.namesOf k := by
  rw [namesOf_declarations]
  exact OrderedMap.isSome_get?_iff

/-- What is found under a name is what is declared under it. -/
theorem find?_eq (t : SymbolTable) (k : DeclKind) (n : String) :
    t.find? k n = t.declarations.find? k n := by
  show ((t.named k).entries.find? _).map (·.2) = ((t.named k).entries.map (·.2)).find? _
  rw [List.find?_map]
  refine congrArg (Option.map _) (List.find?_congr fun e he => ?_)
  rw [Function.comp_apply, t.name_eq_key k e he]

theorem find?_eq_some_iff {b : k.Body} :
    t.find? k n = some b ↔ b ∈ t.declarations.named k ∧ k.name b = n := by
  rw [find?_eq]
  exact NamesApart.find?_eq_some_iff (t.nodup_namesOf k)

/-! ## Existence -/

/-- Modules have a symbol table exactly if no subject is claimed twice. -/
theorem of?_eq_ok_iff_nodup :
    of? modules = .ok t ↔
      t = (SymbolDraft.ofModules modules).table ∧
        (modules.flatMap (·.declarations.subjects)).Nodup := by
  rw [← collisionsFrom_claims_eq_nil_iff, ← List.map_eq_nil_iff (f := collisionFinding),
    ← SymbolDraft.clashes_ofModules, ← List.isEmpty_iff]
  unfold of?
  by_cases h : (SymbolDraft.ofModules modules).clashes.isEmpty = true <;> simp [h, eq_comm]

theorem exists_of?_iff :
    (∃ t, of? modules = .ok t) ↔ (modules.flatMap (·.declarations.subjects)).Nodup := by
  simp only [of?_eq_ok_iff_nodup, exists_eq_left]

theorem nodup_subjects (ht : of? modules = .ok t) :
    (modules.flatMap (·.declarations.subjects)).Nodup :=
  (of?_eq_ok_iff_nodup.1 ht).2

/-- Where modules have a symbol table, it holds all their claims. -/
theorem exists_holds (ht : of? modules = .ok t) :
    ∃ s : SymbolDraft, s.table = t ∧ s.Holds (modules.flatMap Module.claims) := by
  obtain ⟨rfl, hnodup⟩ := of?_eq_ok_iff_nodup.1 ht
  have hholds := SymbolDraft.holds_ofModules modules
  rw [keptFrom_of_collisionsFrom_eq_nil (collisionsFrom_claims_eq_nil_iff.2 hnodup)] at hholds
  exact ⟨_, rfl, hholds⟩

/-- The table of modules holds what they declare, those of each kind module by module. -/
theorem declarations_of_of? (ht : of? modules = .ok t) :
    t.declarations = .ofModules modules := by
  obtain ⟨s, rfl, hholds⟩ := exists_holds ht
  have hnamed (k : DeclKind) : s.table.declarations.named k =
      modules.flatMap (·.declarations.named k) := by
    rw [hholds.named, List.filterMap_flatMap]
    refine congrArg (modules.flatMap ·) (funext fun m => ?_)
    unfold Module.claims
    rw [List.filterMap_map]
    exact m.declarations.filterMap_bodyOf?_items k
  have hsingle (what : Singleton) : s.table.declarations.single? what =
      modules.findSome? (·.declarations.single? what) := by
    rw [hholds.single, findSome?_flatMap]
    refine congrArg (modules.findSome? ·) (funext fun m => ?_)
    unfold Module.claims
    rw [List.findSome?_map]
    exact m.declarations.findSome?_single?_items what
  refine Declarations.ext_single hnamed fun what => (hsingle what).trans ?_
  cases what <;> rfl

/-- A module without repeated names has a symbol table by itself, which holds its declarations. -/
theorem exists_of?_singleton {m : Module} (h : ∀ k, (m.declarations.namesOf k).Nodup) :
    ∃ t, of? [m] = .ok t ∧ t.declarations = m.declarations := by
  have hnodup : ([m].flatMap (·.declarations.subjects)).Nodup := by
    rw [List.flatMap_singleton]
    exact m.declarations.nodup_subjects_iff.2 h
  obtain ⟨t, ht⟩ := exists_of?_iff.2 hnodup
  exact ⟨t, ht, (declarations_of_of? ht).trans (Declarations.ofModules_singleton m)⟩

theorem named_of_of? (ht : of? modules = .ok t) (k : DeclKind) :
    t.declarations.named k = modules.flatMap (·.declarations.named k) := by
  rw [declarations_of_of? ht]
  rfl

theorem mem_named_iff (ht : of? modules = .ok t) {b : k.Body} :
    b ∈ t.declarations.named k ↔ ∃ m ∈ modules, b ∈ m.declarations.named k := by
  rw [named_of_of? ht, List.mem_flatMap]

theorem owner?_eq_find? (ht : of? modules = .ok t) (k : DeclKind) (n : String) :
    t.owner? k n =
      ((modules.flatMap Module.claims).find? (·.subject == .named k n)).map (·.owner) := by
  obtain ⟨s, rfl, hholds⟩ := exists_holds ht
  exact hholds.owner (.named k n)

/-- The owner of a name is a module that declares it. -/
theorem exists_of_owner? (ht : of? modules = .ok t) {owner : String}
    (h : t.owner? k n = some owner) :
    ∃ m ∈ modules, m.name = owner ∧ n ∈ m.declarations.namesOf k := by
  rw [owner?_eq_find? ht] at h
  obtain ⟨c, hc, rfl⟩ := Option.map_eq_some_iff.1 h
  have hsubject : c.subject = .named k n := by simpa using List.find?_some hc
  obtain ⟨m, hm, hcm⟩ := List.mem_flatMap.1 (List.mem_of_find?_eq_some hc)
  have hmem : Subject.named k n ∈ m.declarations.subjects := by
    rw [← m.map_subject_claims, ← hsubject]
    exact List.mem_map_of_mem hcm
  rw [← List.count_pos_iff, Declarations.count_named_subjects, List.count_pos_iff] at hmem
  exact ⟨m, hm, (m.owner_of_mem_claims hcm).symm, hmem⟩

/-! ## Counting -/

theorem count_subjects_named (modules : List Module) (k : DeclKind) (n : String) :
    (modules.flatMap (·.declarations.subjects)).count (.named k n) =
      ((Declarations.ofModules modules).namesOf k).count n := by
  unfold Declarations.ofModules Declarations.namesOf
  dsimp only
  induction modules with
  | nil => rfl
  | cons m modules ih =>
    rw [List.flatMap_cons, List.flatMap_cons, List.map_append, List.count_append,
      List.count_append, ih, Declarations.count_named_subjects]
    rfl

theorem count_subjects_single (modules : List Module) (what : Singleton) :
    (modules.flatMap (·.declarations.subjects)).count (.single what) =
      (modules.flatMap fun m => (m.declarations.single? what).toList).length := by
  induction modules with
  | nil => rfl
  | cons m modules ih =>
    rw [List.flatMap_cons, List.flatMap_cons, List.count_append, List.length_append, ih,
      Declarations.count_single_subjects, Declarations.count_singletons]

/-- No subject is claimed twice exactly if no kind declares a name twice and no singleton is
declared twice. -/
theorem nodup_subjects_iff_namesOf :
    (modules.flatMap (·.declarations.subjects)).Nodup ↔
      (∀ k, ((Declarations.ofModules modules).namesOf k).Nodup) ∧
        ∀ what, (modules.flatMap fun m => (m.declarations.single? what).toList).length ≤ 1 := by
  simp only [List.nodup_iff_count_le_one, ← count_subjects_named, ← count_subjects_single]
  constructor
  · exact fun h => ⟨fun k n => h _, fun what => h _⟩
  · rintro ⟨hnamed, hsingle⟩ (⟨k, n⟩ | what)
    · exact hnamed k n
    · exact hsingle what

/-! ## Singletons -/

theorem toList_findSome?_eq_flatMap {α β : Type} {f : β → Option α} {l : List β}
    (h : (l.flatMap fun b => (f b).toList).length ≤ 1) :
    (l.findSome? f).toList = l.flatMap fun b => (f b).toList := by
  induction l with
  | nil => rfl
  | cons b l ih =>
    rw [List.flatMap_cons, List.length_append] at h
    rw [List.flatMap_cons, List.findSome?_cons]
    cases hb : f b with
    | none => exact ih (by omega)
    | some a =>
      have hl : (l.flatMap fun b => (f b).toList) = [] := by
        rw [hb, Option.toList_some, List.length_singleton] at h
        exact List.length_eq_zero_iff.1 (by omega)
      rw [hl]
      rfl

/-- A singleton is in the table if a module declares it. -/
theorem toList_single? (ht : of? modules = .ok t) (what : Singleton) :
    (t.declarations.single? what).toList =
      modules.flatMap fun m => (m.declarations.single? what).toList := by
  have h := toList_findSome?_eq_flatMap
    ((nodup_subjects_iff_namesOf.1 (nodup_subjects ht)).2 what)
  rw [← h, declarations_of_of? ht]
  cases what <;> rfl

end SymbolTable

end Blueprint
