import DesignTokens.Lint.Setting
import DesignTokens.Problem

namespace DesignTokens.Lint

/-!
# Configuration documents

A configuration is an object of at most four members, each of which may be left
out.  Members that are unknown or hold something else are all reported.
-/

namespace Setting

/-- What a setting is written as. -/
def encode : Setting → Wire
  | .enabled => .bool true
  | .disabled => .bool false
  | .severity level => .str level.name

/-- The setting of a truth value. -/
def ofBool (isEnabled : Bool) : Setting :=
  if isEnabled then .enabled else .disabled

/-- Reads a setting: a truth value, also as 0 or 1, or the name of a severity. -/
def decode? : Wire → Option Setting
  | .bool isEnabled => some (ofBool isEnabled)
  | .int 0 => some .disabled
  | .int 1 => some .enabled
  | .float number =>
      if number == 0.0 then some .disabled
      else if number == 1.0 then some .enabled
      else none
  | .str name => (Severity.ofName? name).map severity
  | _ => none

end Setting

/-- Reads a list of texts. -/
def textList? : Wire → Option (List String)
  | .list items =>
      items.mapM fun item =>
        match item with
        | .str text => some text
        | _ => none
  | _ => none

/-- Reads what a configuration builds on: nothing, one name, or a list of names. -/
def extendedOf? : Wire → Option (List String)
  | .null => some []
  | .str name => some [name]
  | other => textList? other

/-- Reads what is said about rules. -/
def rulesOf? : Wire → Option (List (String × Setting))
  | .obj members =>
      members.mapM fun member => (Setting.decode? member.2).map (member.1, ·)
  | _ => none

/-- A member of a configuration document: its names, the usual one first. -/
inductive Part where
  | extended
  | rules
  | ignorePatterns
  | ignoreCollections
  deriving Repr, DecidableEq

namespace Part

/-- Every part. -/
def all : List Part := [.extended, .rules, .ignorePatterns, .ignoreCollections]

/-- The names that a part may have, the preferred one first. -/
def names : Part → List String
  | .extended => ["extends"]
  | .rules => ["rules"]
  | .ignorePatterns => ["ignorePatterns", "ignore_patterns"]
  | .ignoreCollections => ["ignoreCollections", "ignore_collections"]

/-- The name under which a document holds a part. -/
def nameIn? (part : Part) (members : List (String × Wire)) : Option String :=
  part.names.find? (fun name => Wire.has name members)

end Part

/--
Reads a part that a document may leave out, and names it when it cannot be read.
-/
def partOf {α : Type} (part : Part) (read? : Wire → Option (List α))
    (members : List (String × Wire)) : Except String (List α) :=
  match part.nameIn? members with
  | none => .ok []
  | some name =>
      match read? ((Wire.lookup? name members).getD .null) with
      | some found => .ok found
      | none => .error name

/-- The name of a part that could not be read. -/
def failedName {α : Type} : Except String α → List String
  | .error name => [name]
  | .ok _ => []

/-- The members of a document that are no part of a configuration. -/
def unknownNames (members : List (String × Wire)) : List String :=
  (members.map Prod.fst).filter fun name =>
    !Part.all.any (fun part => part.nameIn? members == some name)

/-- Names in alphabetical order, each once. -/
def sortedNames (names : List String) : List String :=
  names.eraseDups.mergeSort (fun left right => decide (left ≤ right))

namespace Config

/-- The document form. -/
def encode (config : Config) : Wire :=
  .object
    [ ("extends", .texts config.extended),
      ("rules", .obj (config.rules.map fun rule => (rule.1, rule.2.encode))),
      ("ignorePatterns", .texts config.ignorePatterns),
      ("ignoreCollections", .texts config.ignoreCollections) ]

/-- Reads the members of a document, or tells which of them cannot be read. -/
def decodeMembers (members : List (String × Wire)) : Except (List String) Config :=
  let extended := partOf .extended extendedOf? members
  let rules := partOf .rules rulesOf? members
  let patterns := partOf .ignorePatterns textList? members
  let collections := partOf .ignoreCollections textList? members
  match unknownNames members, extended, rules, patterns, collections with
  | [], .ok extended, .ok rules, .ok patterns, .ok collections =>
      .ok ⟨extended, rules, patterns, collections⟩
  | unknown, extended, rules, patterns, collections =>
      .error (sortedNames (unknown ++ failedName extended ++ failedName rules ++
        failedName patterns ++ failedName collections))

/--
Reads a document; null stands for an empty one, and the file is
named in problems.
-/
def decode (data : Wire) (file? : Option String) : Except Problem Config :=
  match data with
  | .null => .ok empty
  | .obj members =>
      match decodeMembers members with
      | .ok config => .ok config
      | .error fields => .error (.invalidConfiguration fields file?)
  | _ => .error (.configuration "Lint configuration must be an object" file? none)

end Config

end DesignTokens.Lint
