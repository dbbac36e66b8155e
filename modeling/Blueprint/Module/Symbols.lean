import Blueprint.Finding
import Blueprint.Module.Basic

/-!
# Symbols

A `SymbolTable` answers what the modules of an application declare under a name and which of them
does. It has a map for each kind of declarations, and one for the modules that names belong to; the
two stay in step (`SymbolTable.mem_owners_iff`).

A table is filled in a `SymbolDraft`, one declaration after the other. A name of a kind belongs to
the first module that declares it, as does a singleton: what is declared again is left out of the
table and reported. `SymbolTable.of?` refuses modules of which anything is declared again.
-/

namespace Blueprint

namespace Singleton

/-- Every singleton, in the order in which a module declares them. -/
def all : List Singleton := [llmConfig, policies, tenancy]

/-- What is declared by the singleton. -/
def Body : Singleton → Type
  | llmConfig => LlmConfig
  | policies => Policies
  | tenancy => Tenancy

/-- The place of what is declared. -/
def location : (what : Singleton) → what.Body → Location
  | llmConfig => LlmConfig.location
  | policies => Policies.location
  | tenancy => Tenancy.location

end Singleton

/-- What is declared by the singleton, if it is there. -/
def Declarations.single? (d : Declarations) : (what : Singleton) → Option what.Body
  | .llmConfig => d.llmConfig
  | .policies => d.policies
  | .tenancy => d.tenancy

/-- What the modules of an application declare. -/
structure SymbolTable where
  named : (k : DeclKind) → OrderedMap String k.Body := fun _ => {}
  llmConfig : Option LlmConfig := none
  policies : Option Policies := none
  tenancy : Option Tenancy := none
  /-- The modules that declare the names. -/
  owners : OrderedMap (DeclKind × String) String := {}
  /-- What is declared is kept under its name. -/
  name_eq_key : ∀ k, ∀ e ∈ (named k).entries, k.name e.2 = e.1 := by simp
  /-- A name belongs to a module exactly if it is declared. -/
  mem_owners_iff : ∀ k n, (k, n) ∈ owners.keys ↔ n ∈ (named k).keys := by simp [OrderedMap.keys]

namespace SymbolTable

/-- The module that declares the name. -/
def owner? (t : SymbolTable) (kind : DeclKind) (name : String) : Option String :=
  t.owners.get? (kind, name)

/-- Whether the name is declared. -/
def contains (t : SymbolTable) (kind : DeclKind) (name : String) : Bool :=
  (t.named kind).contains name

/-- What is declared under the name. -/
def find? (t : SymbolTable) (kind : DeclKind) (name : String) : Option kind.Body :=
  (t.named kind).get? name

/-- The number of named declarations. -/
def size (t : SymbolTable) : Nat := DeclKind.all.foldl (fun n k => n + (t.named k).size) 0

/-- All declarations, those of each kind in the order in which they came into the table. -/
def declarations (t : SymbolTable) : Declarations where
  named kind := (t.named kind).values
  llmConfig := t.llmConfig
  policies := t.policies
  tenancy := t.tenancy

/-- The maps of all kinds, with the declaration in that of its kind. -/
def withNamed (named : (k : DeclKind) → OrderedMap String k.Body) (d : Declaration) :
    (k : DeclKind) → OrderedMap String k.Body :=
  let kept := (named d.kind).insert d.name d.body
  fun k => if h : d.kind = k then h ▸ kept else named k

theorem withNamed_self (named : (k : DeclKind) → OrderedMap String k.Body) (d : Declaration) :
    withNamed named d d.kind = (named d.kind).insert d.name d.body := by
  unfold withNamed
  exact dif_pos rfl

theorem withNamed_of_ne (named : (k : DeclKind) → OrderedMap String k.Body) {d : Declaration}
    {k : DeclKind} (h : d.kind ≠ k) : withNamed named d k = named k := by
  unfold withNamed
  exact dif_neg h

/-- The table with a declaration of the module. -/
def add (t : SymbolTable) (module : String) (d : Declaration) : SymbolTable :=
  { t with
    named := withNamed t.named d
    owners := t.owners.insert (d.kind, d.name) module
    name_eq_key := by
      intro k e he
      by_cases hk : d.kind = k
      · subst hk
        rw [withNamed_self] at he
        rcases Table.mem_of_mem_insert he with rfl | he
        · rfl
        · exact t.name_eq_key _ e he
      · rw [withNamed_of_ne _ hk] at he
        exact t.name_eq_key k e he
    mem_owners_iff := by
      intro k n
      rw [OrderedMap.mem_keys_insert, t.mem_owners_iff]
      by_cases hk : d.kind = k
      · subst hk
        rw [withNamed_self, OrderedMap.mem_keys_insert]
        simp
      · rw [withNamed_of_ne _ hk]
        simp [Ne.symm hk] }

/-- The table with another singleton. -/
def setSingle (t : SymbolTable) : (what : Singleton) → what.Body → SymbolTable
  | .llmConfig => fun c => { t with llmConfig := some c }
  | .policies => fun p => { t with policies := some p }
  | .tenancy => fun y => { t with tenancy := some y }

end SymbolTable

/-- A symbol table while modules are put into it. -/
structure SymbolDraft where
  table : SymbolTable := {}
  /-- The modules that declare the singletons. -/
  holder? : Singleton → Option String := fun _ => none
  /-- What was declared again. -/
  clashes : List (Finding LinkFault) := []

namespace SymbolDraft

def empty : SymbolDraft := {}

def report (s : SymbolDraft) (location : Location) (fault : LinkFault) : SymbolDraft :=
  { s with clashes := s.clashes ++ [⟨some location, fault⟩] }

/-- Puts a named declaration of a module into the table, unless its name belongs to a module
already. -/
def insert (s : SymbolDraft) (module : String) (d : Declaration) : SymbolDraft :=
  match s.table.owner? d.kind d.name with
  | some owner => s.report d.location (.declaredTwice d.kind d.name owner module)
  | none => { s with table := s.table.add module d }

/-- Puts a singleton of a module into the table, unless a module has declared it already. -/
def insertSingle (s : SymbolDraft) (module : String) (what : Singleton) (body : what.Body) :
    SymbolDraft :=
  match s.holder? what with
  | some owner => s.report (what.location body) (.singletonTwice what owner module)
  | none =>
    { s with
      table := s.table.setSingle what body
      holder? := fun other => if other = what then some module else s.holder? other }

/-- Puts what a module declares into the table: named declarations first, kind by kind. -/
def insertModule (s : SymbolDraft) (m : Module) : SymbolDraft :=
  let s := m.declarations.toList.foldl (fun s d => s.insert m.name d) s
  Singleton.all.foldl
    (fun s what => (m.declarations.single? what).elim s (s.insertSingle m.name what)) s

/-- The table of all modules, with what was left out of it. -/
def ofModules (modules : List Module) : SymbolDraft := modules.foldl insertModule empty

end SymbolDraft

namespace SymbolTable

/-- The symbol table of modules, or everything that is declared again. -/
def of? (modules : List Module) : Except LinkError SymbolTable :=
  let draft := SymbolDraft.ofModules modules
  if draft.clashes.isEmpty then .ok draft.table else .error ⟨.duplicateSymbol, draft.clashes⟩

/-- The archetypes that an entity extends, as far as they are declared. -/
def archetypesOf (t : SymbolTable) (e : Entity) : List Archetype :=
  e.archetypes.filterMap (t.find? .archetype)

end SymbolTable

/-- The application that one of the modules declares, if there is one. -/
def declaredApp? (modules : List Module) : Except LinkError (Option App) :=
  match modules.filterMap fun m => m.app.map fun a => (m.name, a) with
  | [] => .ok none
  | [(_, only)] => .ok (some only)
  | (firstModule, first) :: others =>
    .error ⟨.duplicateSymbol, others.map fun (module, a) =>
      ⟨some a.location, .appTwice a.name module first.name firstModule⟩⟩

end Blueprint
