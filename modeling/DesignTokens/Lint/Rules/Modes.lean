import DesignTokens.Lint.Rule
import DesignTokens.Theme.References

namespace DesignTokens.Lint

/-!
# Rules on modes and publishing

Whether the modes of a collection define the same tokens, whether its default
mode has any, and whether tokens that are hidden where they come from are still
part of the theme.
-/

open DesignTokens.Text (joinWith)

/-- The keys of the tokens of a mode. -/
def modeKeys (collection : Collection) (mode : Label) : List String :=
  (collection.modeTokens mode).keys

/-- The keys of the tokens of all declared modes, each where it first occurs. -/
def declaredKeys (collection : Collection) : List String :=
  ((Theme.distinctLabels collection.modes).flatMap (modeKeys collection)).eraseDups

/-- The finding about a key that a mode lacks. -/
def gapFinding (collection : Collection) (mode : Label) (key : String) : Finding :=
  ⟨"Token \"" ++ key ++ "\" is missing in mode \"" ++ mode.display ++ "\"",
    some key, modeLabel collection.name mode,
    some ("Define \"" ++ key ++ "\" in mode \"" ++ mode.display ++
      "\" or remove it elsewhere"),
    none⟩

/-- The findings about the keys that a mode lacks. -/
def gapsOfMode (collection : Collection) (mode : Label) : List Finding :=
  let present := modeKeys collection mode
  ((declaredKeys collection).filter fun key => !present.contains key).map
    (gapFinding collection mode)

/-- The findings about a collection, mode by mode; a single mode lacks nothing. -/
def gapFindings (collection : Collection) : List Finding :=
  if collection.modes.length < 2 then []
  else (Theme.distinctLabels collection.modes).flatMap (gapsOfMode collection)

/-- The fault of a label, if any, for which no tree can be looked up. -/
def labelFault? (collection : Collection) (mode : Label) : Option Fault :=
  let wanted := if mode.isTruthy then mode else collection.defaultMode
  if !wanted.isKey then some wanted.keyFault
  else if !mode.isKey then some mode.keyFault
  else none

/-- The findings about a collection whose labels are usable as keys. -/
def gapFindingsOf (collection : Collection) : Except Fault (List Finding) :=
  match if collection.modes.length < 2 then none
    else collection.modes.findSome? (labelFault? collection) with
  | some fault => .error fault
  | none => .ok (gapFindings collection)

/-- Every token path should exist in every mode of its collection. -/
def modeConsistency : Rule where
  id := "mode-consistency"
  name := "Mode Consistency"
  description :=
    "Checks that every mode of a collection defines the same token paths"
  defaultSeverity := .warning
  check _ theme :=
    .ofFaulty do
      let found ← theme.collections.mapM gapFindingsOf
      return found.flatten

/-- Labels joined with commas; `index` is the place of the first label. -/
def joinLabels (index : Nat) : List Label → Except Fault (List String)
  | [] => .ok []
  | .str text :: rest => do
      let texts ← joinLabels (index + 1) rest
      return text :: texts
  | label :: _ =>
      .error (.wrongKind ("sequence item " ++ Number.intText index ++
        ": expected str instance, " ++ label.kind ++ " found"))

/--
Whether a collection has a tree for its default mode; the label has to be
usable as a key.
-/
def hasDefaultTree (collection : Collection) : Except Fault Bool :=
  let label := collection.defaultMode
  if label.isTruthy && collection.modes.any (fun mode => mode.same label) then
    if label.isKey then .ok (collection.hasMode label) else .error label.keyFault
  else .ok false

/-- The finding about a collection without a tree for its default mode. -/
def defaultModeFindings (collection : Collection) :
    Except Fault (List Finding) := do
  if ← hasDefaultTree collection then return []
  let modes ← joinLabels 0 collection.modes
  let text :=
    "Collection \"" ++ collection.name.display ++
      "\" has no tokens for its default mode \"" ++
      collection.defaultMode.display ++ "\""
  let suggestion := "Set defaultMode to one of: " ++ joinWith ", " modes
  return [Finding.atCollection collection text suggestion]

/-- The default mode of a collection should be declared and have a tree. -/
def missingDefaultMode : Rule where
  id := "missing-default-mode"
  name := "Missing Default Mode"
  description :=
    "Checks that each collection's default mode exists and has a token tree"
  defaultSeverity := .error
  check _ theme :=
    .ofFaulty do
      let found ← theme.collections.mapM defaultModeFindings
      return found.flatten

/-- A token that is hidden from publishing: its collection and its key. -/
structure HiddenToken where
  collection : Wire
  key : String

/-- Whether two hidden tokens are one and the same for a reader. -/
def HiddenToken.same (left right : HiddenToken) : Bool :=
  left.collection.same right.collection && left.key == right.key

/-- Hidden tokens without repetitions, each where it first occurs. -/
def distinctHidden : List HiddenToken → List HiddenToken
  | [] => []
  | token :: rest =>
      token :: (distinctHidden rest).filter (fun other => !other.same token)

/-- Whether a token is marked as hidden from publishing. -/
def isHidden (token : Token) : Except Fault Bool := do
  match Wire.lookup? "com.figma" token.extensions with
  | some mark =>
      if mark.isTruthy then do
        let hidden ← mark.getD "hiddenFromPublishing" .null
        return hidden.isTruthy
      else return false
  | none => return false

/--
The hidden token at a place, if it is hidden; collection names have to
be usable as keys.
-/
def hiddenAt (located : Located) : Except Fault (List HiddenToken) := do
  if ← isHidden located.token then
    let name := located.collection.name
    if name.isKey then return [⟨name, TokenPath.key located.path⟩]
    else throw name.keyFault
  else return []

/-- The finding about a hidden token. -/
def hiddenFinding (token : HiddenToken) : Finding :=
  ⟨"Token is hidden from publishing in Figma", some token.key, token.collection,
    some "Remove it from the theme or publish the variable", none⟩

/-- The findings about hidden tokens, once for each collection and key. -/
def hiddenFindings (theme : Theme) : Except Fault (List Finding) := do
  let hidden ← theme.walk.mapM hiddenAt
  return (distinctHidden hidden.flatten).map hiddenFinding

/-- Variables that are marked as hidden but are still part of the theme. -/
def hiddenFromPublishing : Rule where
  id := "hidden-from-publishing"
  name := "Hidden From Publishing"
  description := "Reports tokens whose Figma variable is hidden from publishing"
  defaultSeverity := .info
  check _ theme := .ofFaulty (hiddenFindings theme)

end DesignTokens.Lint
