import DesignTokens.Files
import DesignTokens.Lint.Preset
import DesignTokens.Remaining

namespace DesignTokens.Lint

/-!
# Resolving configurations

A configuration builds on presets and on configurations in other files, which
build on others in turn.  Resolving merges all of them, those that are built on
before the one that builds on them.  A file must not build on itself, directly
or through others; since a chain passes no file twice and there are finitely
many files, resolving comes to an end.
-/

/-- The configurations that there are, and how names lead to them. -/
structure Catalog where
  /-- The path that a name means in a directory. -/
  locate : FilePath → String → FilePath
  load : FilePath → Except Problem Config
  /-- Every path that leads to a configuration. -/
  paths : List FilePath
  mem_paths : ∀ path config, load path = .ok config → path ∈ paths

namespace Catalog

/-- The problem of a file that builds on itself. -/
def extendsItself (path : FilePath) : Problem :=
  .configuration ("Lint config extends itself: " ++ path.text) (some path.text) none

/-- Resolves a configuration in a directory, below the files of a chain. -/
def resolveFrom (catalog : Catalog) (chain : List FilePath) (directory : FilePath)
    (config : Config) : Except Problem Config := do
  let base ← config.extended.foldlM
    (fun known name => do
      match Preset.ofName? name with
      | some preset => return known.merge preset.config
      | none =>
          let path := catalog.locate directory name
          if _isPassed : chain.contains path then throw (extendsItself path)
          else
            match _isLoaded : catalog.load path with
            | .error problem => throw problem
            | .ok found => do
                let resolved ← catalog.resolveFrom (path :: chain) path.parent found
                return known.merge resolved)
    Config.empty
  return base.merge config
termination_by remaining catalog.paths chain
decreasing_by
  exact remaining_cons_lt (catalog.mem_paths _ _ _isLoaded)
    (by simpa using _isPassed)

/-- Resolves a configuration in a directory. -/
def resolve (catalog : Catalog) (directory : FilePath) (config : Config) :
    Except Problem Config :=
  catalog.resolveFrom [] directory config

/-- Loads the configuration at a path and resolves it in its directory. -/
def loadResolved (catalog : Catalog) (path : FilePath) : Except Problem Config := do
  let config ← catalog.load path
  catalog.resolveFrom [path] path.parent config

end Catalog

end DesignTokens.Lint
