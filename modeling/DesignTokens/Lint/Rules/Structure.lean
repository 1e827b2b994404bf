import DesignTokens.Lint.Naming
import DesignTokens.Lint.Rule

namespace DesignTokens.Lint

/-!
# Rules on names and structure

How tokens are named and nested, whether collections hold any, and whether
tokens say what they are for.
-/

open DesignTokens.Text

/-- Every segment of every path of a collection, in the order of its tokens. -/
def segmentsOf (collection : Collection) : List String :=
  collection.tokens.flatMap fun tree => tree.2.walk.flatMap Prod.fst

/-- The naming conventions of segments, each where it first occurs. -/
def conventionsOf (segments : List String) : List Convention :=
  (segments.filterMap conventionOf?).eraseDups

/-- The first three segments that follow a convention. -/
def examplesOf (convention : Convention) (segments : List String) : List String :=
  ((segments.filter fun segment =>
    conventionOf? segment == some convention).eraseDups).take 3

/-- The conventions of segments, each with examples. -/
def conventionSummary (segments : List String) : String :=
  joinWith "; " ((conventionsOf segments).map fun convention =>
    convention.name ++ ": " ++ joinWith ", " (examplesOf convention segments))

/--
What is wrong with the names in a collection when they follow
several conventions.
-/
def mixedNaming (collection : Collection) : List Finding :=
  let segments := segmentsOf collection
  if 1 < (conventionsOf segments).length then
    [ Finding.atCollection collection
        ("Mixed naming conventions in collection \"" ++ collection.name.display ++
          "\": " ++ conventionSummary segments)
        "Use consistent kebab-case naming throughout" ]
  else []

/-- Mixed naming conventions inside one collection. -/
def inconsistentNaming : Rule where
  id := "inconsistent-naming"
  name := "Inconsistent Naming"
  description := "Checks for mixed naming conventions (kebab-case, camelCase, etc.)"
  defaultSeverity := .warning
  check _ theme := .ofFindings (theme.collections.flatMap mixedNaming)

/-- What is wrong with one segment of the path of a token. -/
def segmentFindings (located : Located) (segment : String) : List Finding :=
  (if startsWithDigit segment then
    [ Finding.atToken located
        ("Token name \"" ++ segment ++ "\" starts with a number")
        (some
          ("Prefix with a letter: \"" ++ toKebabCase ("n" ++ segment) ++ "\"")) ]
  else []) ++
  (if segment.toList.any isForbidden then
    [ Finding.atToken located
        ("Token name \"" ++ segment ++ "\" contains invalid characters")
        (some "Use only letters, numbers, hyphens, and underscores") ]
  else [])

/-- Segments that cannot become names of custom properties. -/
def invalidTokenName : Rule where
  id := "invalid-token-name"
  name := "Invalid Token Name"
  description := "Checks for token names with invalid characters or patterns"
  defaultSeverity := .error
  check _ theme :=
    .ofFindings (theme.walk.flatMap fun located =>
      located.path.flatMap (segmentFindings located))

/-- The greatest number of segments that a path should have. -/
def maxDepth : Nat := 4

/-- The finding about a path that is too long. -/
def nestingFinding (located : Located) : List Finding :=
  if maxDepth < located.path.length then
    [ Finding.atToken located
        ("Token path too deep (" ++ Number.intText located.path.length ++
          " levels): " ++ TokenPath.key located.path)
        (some ("Consider flattening to " ++ Number.intText maxDepth ++
          " levels or less for easier maintenance")) ]
  else []

/-- Paths of too many segments. -/
def deepNesting : Rule where
  id := "deep-nesting"
  name := "Deep Nesting"
  description :=
    "Warns when token paths are deeply nested (>" ++ Number.intText maxDepth ++
      " levels)"
  defaultSeverity := .warning
  check _ theme := .ofFindings (theme.walk.flatMap nestingFinding)

/-- The finding about a collection without tokens. -/
def emptinessFinding (collection : Collection) : List Finding :=
  if collection.tokens.all fun tree => tree.2.walk.isEmpty then
    [ Finding.atCollection collection
        ("Collection \"" ++ collection.name.display ++ "\" has no tokens")
        "Remove empty collections or add tokens" ]
  else []

/-- Collections without tokens. -/
def emptyCollection : Rule where
  id := "empty-collection"
  name := "Empty Collection"
  description := "Warns about collections with no tokens"
  defaultSeverity := .warning
  check _ theme := .ofFindings (theme.collections.flatMap emptinessFinding)

/-- The finding about a token without a description. -/
def descriptionFinding (located : Located) : List Finding :=
  if located.token.description.isTruthy then []
  else
    [ Finding.atToken located "Token missing description"
        (some "Add a $description field to document the token's purpose") ]

/-- Tokens that do not say what they are for. -/
def missingDescription : Rule where
  id := "missing-description"
  name := "Missing Description"
  description := "Checks for tokens that lack descriptions"
  defaultSeverity := .info
  check _ theme := .ofFindings (theme.walk.flatMap descriptionFinding)

end DesignTokens.Lint
