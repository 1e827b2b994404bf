import DesignTokens.Theme.Basic

namespace DesignTokens

/-!
# Building trees

Tokens are placed at paths one after the other.  The last placement wins: a
token that stands where a group is needed is replaced by one, and so is a group
where a token is placed.
-/

/-- The sentence for a path without segments. -/
def emptyPathText : String :=
  "Token path must have at least one segment"

namespace Group

/--
The members of a child group; a child that is no group, or is not
there, has none.
-/
def childMembers (name : String) (group : Group) : Group :=
  match Wire.lookup? name group with
  | some (.group members) => members
  | _ => []

/-- Places a token at a path of at least one segment, creating groups on the way. -/
def place (group : Group) (token : Token) : String → TokenPath → Group
  | name, [] => Wire.insert name (.token token) group
  | name, next :: rest =>
      Wire.insert name (.group (place (childMembers name group) token next rest))
        group

/-- Places a token; a path without segments is a fault. -/
def set (group : Group) (path : TokenPath) (token : Token) : Except Fault Group :=
  match path with
  | [] => .error (.badValue emptyPathText)
  | first :: rest => .ok (group.place token first rest)

/-- The segment of the first token on the way that has to give way to a group. -/
def replacedSegment? (group : Group) : TokenPath → Option String
  | [] => none
  | [_] => none
  | name :: rest =>
      match Wire.lookup? name group with
      | some (.token _) => some name
      | some (.group members) => replacedSegment? members rest
      | none => none

/-- Entries placed one after the other, up to the first that has no path. -/
structure Placed where
  group : Group
  fault? : Option Fault

/-- Places entries until one cannot be placed. -/
def update (group : Group) : List (TokenPath × Token) → Placed
  | [] => ⟨group, none⟩
  | entry :: rest =>
      match group.set entry.1 entry.2 with
      | .ok next => next.update rest
      | .error fault => ⟨group, some fault⟩

/-- The segments of the tokens that give way to groups while entries are placed. -/
def replacementsFrom (group : Group) : List (TokenPath × Token) → List String
  | [] => []
  | entry :: rest =>
      match group.set entry.1 entry.2 with
      | .ok next =>
          (group.replacedSegment? entry.1).toList ++ next.replacementsFrom rest
      | .error _ => []

/-- The segments of the tokens that give way to groups while a tree is built. -/
def replacements (entries : List (TokenPath × Token)) : List String :=
  replacementsFrom [] entries

/-- The tree of the given entries. -/
def build (entries : List (TokenPath × Token)) : Except Fault Group :=
  match update [] entries with
  | ⟨group, none⟩ => .ok group
  | ⟨_, some fault⟩ => .error fault

/-- The tree of entries whose paths are not empty. -/
def buildPlaced (entries : List (TokenPath × Token)) : Group :=
  (update [] entries).group

mutual

/--
Two nodes at one path: groups are merged, otherwise the second
replaces the first.
-/
def mergeNode : Node → Node → Node
  | .group base, .group override => .group (mergeMembers base override)
  | _, override => override

/-- Merges members into a group one after the other. -/
def mergeMembers (base : List (String × Node)) :
    List (String × Node) → List (String × Node)
  | [] => base
  | (name, member) :: rest =>
      match Wire.lookup? name base with
      | some existing =>
          mergeMembers (Wire.insert name (mergeNode existing member) base) rest
      | none => mergeMembers (Wire.insert name member base) rest

end

/-- Merges two groups; members of the second win. -/
def merge (base override : Group) : Group :=
  mergeMembers base override

end Group

/-- The entries placed in the tree of a mode. -/
abbrev Entries := List (TokenPath × Token)

namespace Collection

/-- The entries of a mode; a mode that is not listed has none. -/
def entriesOf (label : Label) (listed : List (Label × Entries)) : Entries :=
  match listed.find? (fun mode => mode.1.same label) with
  | some mode => mode.2
  | none => []

/--
A collection built from the entries of its modes.  The default mode comes first
and exists even when it has no entries; the others keep their order.
-/
def build (name : Wire) (listed : List (Label × Entries)) (defaultMode : Label)
    (description : Wire) : Except Fault Collection := do
  if !defaultMode.isKey then throw defaultMode.keyFault
  let others := (listed.map Prod.fst).filter (fun label => !label.same defaultMode)
  let modes := defaultMode :: others
  let trees ← modes.mapM fun label => do
    let group ← Group.build (entriesOf label listed)
    return (label, group)
  return ⟨name, modes, defaultMode, trees, description⟩

end Collection

end DesignTokens
