import Drydock.Glob
import Drydock.Manifest

/-!
# The modules of a manifest

`Manifest.modules?` resolves the declared modules of a package: the options of `[defaults]` come
first in every list but that of the sources, paths are resolved against the manifest, and source
patterns are expanded in the file tree.
-/

namespace Drydock.Manifest

/-- The source list of a module: its own entries, then those that all modules share. -/
def sourcePatterns (m : Manifest) (entry : ModuleEntry) : List String :=
  entry.sources ++ m.defaults.sources

/-- The resolved module of an entry with the given sources. -/
def resolveModule (m : Manifest) (entry : ModuleEntry) (sources : List Path) : Module where
  name := entry.name
  sources
  extraObjects := entry.extraObjects.map m.path
  libraries := entry.libraries
  dependsOn := entry.dependsOn
  includeDirs := (m.defaults.includeDirs ++ entry.includeDirs).map m.path
  libraryDirs := (m.defaults.libraryDirs ++ entry.libraryDirs).map m.path
  defines := (m.defaults.defines ++ entry.defines).map Define.ofText
  undefines := m.defaults.undefines
  compileArgs := m.defaults.compileArgs ++ entry.compileArgs
  linkArgs := m.defaults.linkArgs ++ entry.linkArgs
  foundational := entry.foundational
  prebuild := entry.prebuild.map fun step => step.mapPath m.path
  init := entry.init.or m.defaults.init

/-- The module of an entry.  A module without sources is an error. -/
def module? (m : Manifest) (w : Workspace) (entry : ModuleEntry) : Except Failure Module := do
  let patterns := m.sourcePatterns entry
  match ← Glob.expand w m.root patterns with
  | [] => .error (SetupError.noSources entry.name patterns)
  | sources => return m.resolveModule entry sources

/-- The modules of a manifest, in the order of their declaration. -/
def modules? (m : Manifest) (w : Workspace) : Except Failure (List Module) :=
  m.modules.mapM (m.module? w)

end Drydock.Manifest
