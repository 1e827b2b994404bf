import DesignTokens.Registry.Basic
import DesignTokens.Theme.Basic

namespace DesignTokens

/-!
# Themes as documents

The document form of tokens, groups, collections and themes.  A token is an
object with a type and a value member, any other object is a group; members of
groups whose names start with a dollar sign are left to other tools.
-/

open DesignTokens.Text

/-- A member that is left out when its value counts as empty. -/
def truthyMember (name : String) (value : Wire) : List (String × Wire) :=
  if value.isTruthy then [(name, value)] else []

/-- The fault of a value that cannot list its members. -/
def membersOf (operation : String) (data : Wire) :
    Except Fault (List (String × Wire)) :=
  match data with
  | .obj members => .ok members
  | other => .error (.noMember other.kind operation)

/-- Whether the members of an object are those of a token. -/
def isTokenMembers (members : List (String × Wire)) : Bool :=
  Wire.has "$type" members && Wire.has "$value" members

/-- Whether a value is the document form of a token. -/
def isTokenForm (data : Wire) : Bool :=
  match data with
  | .obj members => isTokenMembers members
  | _ => false

namespace Token

/-- The document form of a token. -/
def encode (registry : Registry) (token : Token) : Except Failure Wire := do
  let value ← registry.encodeValue token.type token.value
  return .object
    ([("$type", token.type), ("$value", value)] ++
      truthyMember "$description" token.description ++
      truthyMember "$extensions" (.obj token.extensions))

/-- A pair of a key and a value. -/
def pairOf (data : Wire) : Except Fault (String × Wire) := do
  let parts ← data.parts
  match parts with
  | [key, value] => do
      let name ← key.memberName
      return (name, value)
  | _ => throw (.badValue "a pair of a key and a value is required")

/-- Extensions are an object, or a list of pairs; null means that there are none. -/
def extensionsOf (data : Wire) : Except Fault (List (String × Wire)) :=
  match data with
  | .null => .ok []
  | .obj members => .ok members
  | other => do
      let parts ← other.parts
      let pairs ← parts.mapM pairOf
      return Wire.ofMembers pairs

/-- Reads the document form of a token. -/
def decode (registry : Registry) (data : Wire) : Except Failure Token := do
  let type ← data.require "$type"
  let valueData ← data.require "$value"
  let value ← registry.decodeValue type valueData
  let description ← data.getD "$description" .null
  let extensionsData ← data.getD "$extensions" .null
  let extensions ← extensionsOf extensionsData
  return ⟨type, value, description, extensions⟩

end Token

namespace Node

mutual

/-- The document form of a token or a group. -/
def encode (registry : Registry) : Node → Except Failure Wire
  | .token leaf => leaf.encode registry
  | .group members => (encodeMembers registry members).map Wire.obj

/-- The document forms of the members of a group. -/
def encodeMembers (registry : Registry) :
    List (String × Node) → Except Failure (List (String × Wire))
  | [] => .ok []
  | (name, child) :: rest => do
      let form ← encode registry child
      let forms ← encodeMembers registry rest
      return (name, form) :: forms

end

/-- Whether a member of a group is left to other tools. -/
def isReserved (name : String) : Bool :=
  startsWith ['$'] name.toList

mutual

/-- Reads a member of a group; `none` when it is neither a token nor a group. -/
def decode? (registry : Registry) : Wire → Except Failure (Option Node)
  | .obj members =>
      if isTokenMembers members then
        (Token.decode registry (.obj members)).map
          (fun token => some (.token token))
      else (decodeMembers registry members).map (fun nodes => some (.group nodes))
  | _ => .ok none

/-- Reads the members of a group. -/
def decodeMembers (registry : Registry) :
    List (String × Wire) → Except Failure (List (String × Node))
  | [] => .ok []
  | (name, form) :: rest =>
      if isReserved name then decodeMembers registry rest
      else do
        match ← decode? registry form with
        | some node => do
            let nodes ← decodeMembers registry rest
            return (name, node) :: nodes
        | none => decodeMembers registry rest

end

end Node

namespace Group

/-- The document form of a group. -/
def encode (registry : Registry) (group : Group) : Except Failure Wire :=
  (Node.encodeMembers registry group).map Wire.obj

/-- Reads the document form of a group. -/
def decode (registry : Registry) (data : Wire) : Except Failure Group := do
  let members ← membersOf "items" data
  Node.decodeMembers registry members

end Group

namespace Collection

/-- The trees of the modes. -/
def encodeTrees (registry : Registry) (trees : List (Label × Group)) :
    Except Failure (List (String × Wire)) :=
  trees.mapM fun tree => do
    let form ← tree.2.encode registry
    let name ← tree.1.memberName
    return (name, form)

/-- The document form of a collection. -/
def encode (registry : Registry) (collection : Collection) :
    Except Failure Wire := do
  let trees ← encodeTrees registry collection.tokens
  return .object
    ([ ("name", collection.name),
       ("modes", .list collection.modes),
       ("defaultMode", collection.defaultMode),
       ("tokens", .obj trees) ] ++
      truthyMember "description" collection.description)

/-- The declared modes, or the modes that have trees when none are declared. -/
def decodeModes (data : Wire) : Except Fault (List Wire) := do
  let modes ← data.getD "modes" .null
  if modes.isTruthy then modes.parts
  else do
    let trees ← data.getD "tokens" (.obj [])
    let members ← membersOf "keys" trees
    return members.map (fun member => .str member.1)

/--
Reads the document form of a collection; the default mode is the first one
unless it is named.
-/
def decode (registry : Registry) (data : Wire) : Except Failure Collection := do
  let modes ← decodeModes data
  let name ← data.require "name"
  let defaultMode ← data.getD "defaultMode" (modes.head?.getD (.str ""))
  let treesData ← data.getD "tokens" (.obj [])
  let members ← membersOf "items" treesData
  let trees ← members.mapM fun member => do
    let group ← Group.decode registry member.2
    return (Wire.str member.1, group)
  let description ← data.getD "description" .null
  return ⟨name, modes, defaultMode, trees, description⟩

end Collection

namespace Provenance

/--
The document form; file key and time of the last synchronization may be absent.
-/
def encode (provenance : Provenance) : Wire :=
  .object
    ([("source", provenance.source), ("version", provenance.version)] ++
      truthyMember "figmaFileKey" provenance.fileKey ++
      truthyMember "lastSynced" provenance.lastSynced)

/-- Reads the document form. -/
def decode (data : Wire) : Except Fault Provenance := do
  let source ← data.getD "source" (.str "manual")
  let fileKey ← data.getD "figmaFileKey" .null
  let lastSynced ← data.getD "lastSynced" .null
  let version ← data.getD "version" (.str "1.0.0")
  return ⟨source, fileKey, lastSynced, version⟩

end Provenance

namespace Theme

/-- The document form of a theme. -/
def encode (registry : Registry) (theme : Theme) : Except Failure Wire := do
  let collections ← theme.collections.mapM (Collection.encode registry)
  return .object
    ([("name", theme.name)] ++
      truthyMember "description" theme.description ++
      [("collections", .list collections)] ++
      (match theme.provenance? with
       | some provenance => [("meta", provenance.encode)]
       | none => []))

/-- Reads the document form of a theme. -/
def decode (registry : Registry) (data : Wire) : Except Failure Theme := do
  let provenanceData ← data.getD "meta" .null
  let name ← data.require "name"
  let collectionsData ← data.getD "collections" (.list [])
  let parts ← collectionsData.parts
  let collections ← parts.mapM (Collection.decode registry)
  let provenance? ←
    if provenanceData.isTruthy then do
      let provenance ← Provenance.decode provenanceData
      pure (some provenance)
    else pure none
  let description ← data.getD "description" .null
  return ⟨name, collections, provenance?, description⟩

end Theme

end DesignTokens
