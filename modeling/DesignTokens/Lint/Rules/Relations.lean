import DesignTokens.Lint.Rule
import DesignTokens.Theme.References
import DesignTokens.Wire.Writer

namespace DesignTokens.Lint

/-!
# Rules on relations between tokens

References that lead nowhere or in a circle, and tokens of one tree that hold
the same value.
-/

open DesignTokens.Text (joinWith)

/-- The finding about a broken reference. -/
def brokenFinding (broken : Theme.BrokenReference) : Finding :=
  ⟨"Broken reference: \"" ++ broken.target ++ "\" not found", some broken.key,
    modeLabel broken.collection broken.mode, none, none⟩

/-- References whose target stands nowhere in the theme. -/
def brokenReference : Rule where
  id := "broken-reference"
  name := "Broken Reference"
  description := "Checks for token references that point to non-existent tokens"
  defaultSeverity := .error
  check _ theme := .ofFindings (theme.brokenReferences.map brokenFinding)

/-- The finding about a cycle, which names every member and the first one again. -/
def cycleFinding (cycle : List String) : Finding :=
  ⟨"Circular reference: " ++ joinWith " -> " (cycle ++ cycle.head?.toList),
    cycle.head?, .null, some "Point one of the tokens at a concrete value", none⟩

/--
Reference chains that loop back on themselves; mode labels have to
be usable as keys.
-/
def cycleFindings (theme : Theme) : Except Fault (List Finding) :=
  match theme.modeFault? with
  | some fault => .error fault
  | none => .ok (theme.referenceCycles.map cycleFinding)

/-- A note for every cycle that is found, mode by mode. -/
def cycleNotes (theme : Theme) : List Note :=
  if theme.modeFault?.isSome then [] else theme.modeCycles.map Note.foundCycle

/-- Reference chains that loop back on themselves. -/
def circularReference : Rule where
  id := "circular-reference"
  name := "Circular Reference"
  description := "Checks for reference chains that loop back on themselves"
  defaultSeverity := .error
  check _ theme := .ofFaulty (cycleFindings theme)
  notes := cycleNotes

/--
A token of a tree whose value is written out: its path, and its type and
value as one text.
-/
structure WrittenToken where
  path : String
  content : String

/--
Type and value of a token as one text, the members of objects in
alphabetical order.
-/
def contentOf (registry : Registry) (token : Token) : Except Failure String := do
  let form ← registry.encodeValue token.type token.value
  return (Wire.list [token.type, form]).sorted.toLine

/-- The tokens of a tree that are no references, written out. -/
def writtenTokens (registry : Registry) (tree : Group) :
    Except Failure (List WrittenToken) :=
  (tree.walk.filter fun entry => !entry.2.value.isReference).mapM fun entry => do
    let content ← contentOf registry entry.2
    return ⟨TokenPath.key entry.1, content⟩

/-- The paths of tokens of equal content, content by content. -/
def duplicatePaths (tokens : List WrittenToken) : List (List String) :=
  let contents := (tokens.map WrittenToken.content).eraseDups
  let classes := contents.map fun content =>
    (tokens.filter fun token => token.content == content).map WrittenToken.path
  classes.filter fun paths => decide (1 < paths.length)

/-- The finding about tokens of equal content. -/
def duplicateFinding
    (collection : Collection)
    (mode : Label)
    (paths : List String) : Finding :=
  ⟨"Duplicate values found: " ++ joinWith ", " paths, none,
    modeLabel collection.name mode,
    some "Consider using token references to avoid duplication", none⟩

/-- The findings about the trees of a collection. -/
def duplicateFindings (registry : Registry) (collection : Collection) :
    Except Failure (List Finding) := do
  let found ← collection.tokens.mapM fun tree => do
    let tokens ← writtenTokens registry tree.2
    return (duplicatePaths tokens).map (duplicateFinding collection tree.1)
  return found.flatten

/-- Tokens of one tree with identical values. -/
def duplicateValues : Rule where
  id := "duplicate-values"
  name := "Duplicate Values"
  description :=
    "Checks for tokens with identical values that could be consolidated"
  defaultSeverity := .info
  check registry theme :=
    .ofOutcome do
      let found ← theme.collections.mapM (duplicateFindings registry)
      return found.flatten

end DesignTokens.Lint
