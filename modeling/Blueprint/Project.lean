import Blueprint.Application.Compile
import Blueprint.Manifest.Basic
import Blueprint.Module.Reach
import Blueprint.SourceTree

/-!
# Projects

A project is a directory of a source tree with a manifest in it. `compileProject` makes its
application: it reads the manifest, collects the sources that the manifest lists, each once, and
compiles the modules that count.
-/

namespace Blueprint

/-- Why a project has no application. -/
inductive ProjectError where
  /-- There is nothing at a path. -/
  | unreadable (path : Path) (absence : Absence)
  | manifest (path : Path) (fault : ManifestFault)
  | application (error : CompileError)

def ProjectError.message : ProjectError → String
  | unreadable path absence => s!"cannot read '{path.text}': {absence.message}"
  | manifest path fault => s!"invalid manifest '{path.text}': {fault.message}"
  | application error => error.render

def manifestName : Path := ⟨"trellis.toml"⟩

def readManifest (t : SourceTree) (path : Path) : Except ProjectError Manifest := do
  let text ← (t.read path).mapError (.unreadable path)
  (Manifest.parse text).mapError (.manifest path)

/-- The source at a place, read at the path that the place is written as. -/
def readSource (t : SourceTree) (place : Place) : Except ProjectError Source := do
  let text ← (t.read ⟨place.render⟩).mapError (.unreadable ⟨place.render⟩)
  return ⟨place.render, text⟩

/-- The sources at several paths or below them, path by path. A source that lies below several of
them, or in one of the places given at first, is not read again. -/
def collectSources (t : SourceTree) (seen : List Place) :
    List Path → Except ProjectError (List Source)
  | [] => return []
  | root :: rest => do
    let found ← (t.discover root).mapError (.unreadable root)
    let new := found.filter fun place => !seen.contains place
    let sources ← new.mapM (readSource t)
    let others ← collectSources t (seen ++ new) rest
    return sources ++ others

/-- The modules that count: all of them, or those within reach of the root. -/
def Manifest.modules? (m : Manifest) (modules : List Module) :
    Except ManifestFault (List Module) :=
  match m.root with
  | none => .ok modules
  | some root =>
    match reachable? modules root with
    | some kept => .ok kept
    | none => .error (.undefinedRoot root)

/-- The application of the project in a directory. -/
def compileProject (t : SourceTree) (directory : Path) : Except ProjectError Application := do
  let path := directory.join manifestName
  let manifest ← readManifest t path
  let sources ← collectSources t [] (manifest.sourceRoots directory)
  let parsed ← (parseSources sources).mapError fun e => .application (.source e)
  let modules ← (manifest.modules? parsed).mapError (.manifest path)
  let application ← (compileModules modules manifest.options).mapError .application
  return { application with project := some manifest.name }

end Blueprint
