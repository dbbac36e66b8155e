import Blueprint.Application.Basic
import Blueprint.Path
import Blueprint.Text.Blank
import Blueprint.Toml.Document

/-!
# Manifests

The manifest of a project is a TOML document of three records: what the project is called, where its
sources are and how they are compiled. A record is a table, or an array of its values in order. It
has no keys but its own; those that are left out have a default, if they have one.
-/

namespace Blueprint

structure Manifest where
  name : String
  version : String := "0.1.0"
  /-- The module that the application is about. What it does not use, directly or through others, is
  left out. -/
  root : Option String := none
  /-- The directories and files that hold the sources. -/
  paths : List Path := [⟨"dsl"⟩]
  options : CompileOptions := {}
  deriving DecidableEq

/-- What is wrong with a manifest. -/
inductive ManifestFault where
  /-- It is not TOML, or not of the form of a manifest. -/
  | malformed
  | unnamed
  | noPaths
  | undefinedRoot (name : String)
  deriving DecidableEq

def ManifestFault.message : ManifestFault → String
  | malformed => "not in the form of a manifest"
  | unnamed => "project name must not be empty"
  | noPaths => "[modules] paths must list at least one directory"
  | undefinedRoot name => s!"root module '{name}' is not defined by any source file"

/-! ## Reading values -/

namespace Toml.Value

/-- The values of a record with the given keys. -/
def members? (keys : List String) : Value → Option Table
  | table _ entries => if entries.all fun e => keys.contains e.1 then some entries else none
  | array items => some (keys.zip items)
  | _ => none

def string? : Value → Option String
  | string text => some text
  | _ => none

def boolean? : Value → Option Bool
  | boolean b => some b
  | _ => none

def strings? : Value → Option (List String)
  | array items => items.mapM string?
  | _ => none

end Toml.Value

/-- The value of a key, or the default if it is left out. -/
def Toml.Table.getOr {α : Type} (t : Toml.Table) (key : String) (read : Toml.Value → Option α)
    (default : α) : Option α :=
  match t.lookup key with
  | some v => read v
  | none => some default

namespace Manifest

def readOptions (v : Toml.Value) : Option CompileOptions := do
  let standard : CompileOptions := {}
  let t ← v.members? ["parallel", "deny_warnings", "archetype_surfaces"]
  return {
    parallel := ← t.getOr "parallel" (·.boolean?) standard.parallel
    denyWarnings := ← t.getOr "deny_warnings" (·.boolean?) standard.denyWarnings
    archetypeSurfaces := ← t.getOr "archetype_surfaces" (·.boolean?) standard.archetypeSurfaces }

def readPaths (v : Toml.Value) : Option (List Path) := do
  let t ← v.members? ["paths"]
  let paths ← (← t.lookup "paths").strings?
  return paths.map Path.mk

/-- The manifest that a document stands for. -/
def ofDocument? (document : Toml.Table) : Option Manifest := do
  let t ← (Toml.Value.table .header document).members? ["project", "modules", "compiler"]
  let project ← (← t.lookup "project").members? ["name", "version", "root"]
  let standard : Manifest := { name := ← (← project.lookup "name").string? }
  return { standard with
    version := ← project.getOr "version" (·.string?) standard.version
    root := ← project.getOr "root" (fun v => v.string?.map some) standard.root
    paths := ← t.getOr "modules" readPaths standard.paths
    options := ← t.getOr "compiler" readOptions standard.options }

/-- The manifest that a text stands for. -/
def parse (text : String) : Except ManifestFault Manifest :=
  match Toml.parse? text >>= ofDocument? with
  | none => .error .malformed
  | some m =>
    if Text.isBlank m.name then .error .unnamed
    else if m.paths.isEmpty then .error .noPaths
    else .ok m

/-- Where the sources of a project in a directory are. -/
def sourceRoots (m : Manifest) (directory : Path) : List Path := m.paths.map directory.join

end Manifest

end Blueprint
