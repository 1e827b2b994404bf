import DesignTokens.Text.Split
import DesignTokens.Value.Basic
import DesignTokens.Wire.Equal

namespace DesignTokens

/-!
# Themes

A theme holds collections, a collection holds one tree of tokens for each mode,
and a tree nests groups by name.  Names of one group are distinct; they keep
the order in which they were first placed.  Null stands for a description or a
piece of provenance that is absent.
-/

open DesignTokens.Text

/-- One design value with a declared type. -/
structure Token where
  type : Wire
  value : TokenValue
  description : Wire
  extensions : List (String × Wire)
  deriving Inhabited

/-- A token without description and extensions. -/
def Token.plain (type : String) (value : TokenValue) : Token :=
  ⟨.str type, value, .null, []⟩

/-- A member of a group: a token, or a group of its own. -/
inductive Node where
  | token (leaf : Token)
  | group (members : List (String × Node))
  deriving Inhabited

/-- The members of a group, by name. -/
abbrev Group := List (String × Node)

/-- The segments that lead to a token. -/
abbrev TokenPath := List String

/-- The segments of a path joined with dots, the form that references use. -/
def TokenPath.key (path : TokenPath) : String :=
  joinWith "." path

namespace Node

/-- The token, if the node is one. -/
def token? : Node → Option Token
  | .token leaf => some leaf
  | .group _ => none

/-- The member at a path below a node. -/
def get? (node : Node) : TokenPath → Option Node
  | [] => some node
  | segment :: rest =>
      match node with
      | .token _ => none
      | .group members =>
          match Wire.lookup? segment members with
          | some child => child.get? rest
          | none => none

mutual

/-- Every token at or below a node with its path, depth first. -/
def walk : Node → List (TokenPath × Token)
  | .token leaf => [([], leaf)]
  | .group members => walkMembers members

/-- Every token below the members of a group with its path. -/
def walkMembers : List (String × Node) → List (TokenPath × Token)
  | [] => []
  | (name, child) :: rest =>
      (walk child).map (fun entry => (name :: entry.1, entry.2)) ++ walkMembers rest

end

end Node

namespace Group

/-- Every token of a group with its path, depth first. -/
def walk (group : Group) : List (TokenPath × Token) :=
  Node.walkMembers group

/-- The member at a path. -/
def get? (group : Group) (path : TokenPath) : Option Node :=
  (Node.group group).get? path

/-- The member at a path whose segments are joined with dots. -/
def getKey? (group : Group) (key : String) : Option Node :=
  group.get? (splitText '.' key)

/-- The token at a path whose segments are joined with dots. -/
def token? (group : Group) (key : String) : Option Token :=
  (group.getKey? key).bind Node.token?

/-- How many tokens a group holds. -/
def tokenCount (group : Group) : Nat :=
  group.walk.length

/-- The dotted paths of the tokens of a group. -/
def keys (group : Group) : List String :=
  group.walk.map (fun entry => TokenPath.key entry.1)

end Group

/-- The label of a mode: a name, or whatever a document gives instead of one. -/
abbrev Label := Wire

/-- A named set of modes, each with a tree of tokens. -/
structure Collection where
  name : Wire
  modes : List Label
  defaultMode : Label
  tokens : List (Label × Group)
  description : Wire
  deriving Inhabited

namespace Collection

/-- The tree of a mode label. -/
def tree? (collection : Collection) (label : Label) : Option Group :=
  (collection.tokens.find? (fun tree => tree.1.same label)).map Prod.snd

/-- Whether a mode label has a tree. -/
def hasMode (collection : Collection) (label : Label) : Bool :=
  collection.tokens.any (fun tree => tree.1.same label)

/--
The tree of a mode, or that of the default mode when no mode is named; a mode
without a tree has the empty one.
-/
def modeTokens (collection : Collection) (mode : Label) : Group :=
  (collection.tree? (if mode.isTruthy then mode else collection.defaultMode)).getD
    []

/-- How many tokens the trees of a collection hold. -/
def tokenCount (collection : Collection) : Nat :=
  collection.tokens.foldl (fun count tree => count + tree.2.tokenCount) 0

end Collection

/-- Where a theme comes from. -/
structure Provenance where
  source : Wire
  fileKey : Wire
  lastSynced : Wire
  version : Wire
  deriving Inhabited

/-- Provenance of the current version without a file. -/
def Provenance.ofSource (source : String) : Provenance :=
  ⟨.str source, .null, .null, .str "1.0.0"⟩

/-- All collections of a design. -/
structure Theme where
  name : Wire
  collections : List Collection
  provenance? : Option Provenance
  description : Wire
  deriving Inhabited

/-- A token with the collection and mode that hold it. -/
structure Located where
  collection : Collection
  mode : Label
  path : TokenPath
  token : Token
  deriving Inhabited

namespace Theme

/-- Every token of a theme, collection by collection and mode by mode. -/
def walk (theme : Theme) : List Located :=
  theme.collections.flatMap fun collection =>
    collection.tokens.flatMap fun tree =>
      tree.2.walk.map fun entry => ⟨collection, tree.1, entry.1, entry.2⟩

/-- How many tokens a theme holds. -/
def tokenCount (theme : Theme) : Nat :=
  theme.collections.foldl (fun count collection => count + collection.tokenCount) 0

/-- The first collection of a name. -/
def collection? (theme : Theme) (name : String) : Option Collection :=
  theme.collections.find? (fun collection => collection.name.same (.str name))

end Theme

end DesignTokens
