import DesignTokens.Number.Binary

namespace DesignTokens

/-!
# Wire values

The values that documents hold.  Whole numbers and doubles are kept apart, and
the members of an object keep the order in which they were written; a name
occurs once, which the readers guarantee and `Wire.insert` preserves.
-/

/-- A document value. -/
inductive Wire where
  | null
  | bool (value : Bool)
  | int (value : Int)
  | float (value : Float)
  | str (text : String)
  | list (items : List Wire)
  | obj (members : List (String × Wire))
  deriving Inhabited

namespace Wire

/-- Replaces the value of a name in place, or adds the name at the end. -/
def insert {α : Type} (name : String) (value : α) :
    List (String × α) → List (String × α)
  | [] => [(name, value)]
  | member :: rest =>
      if member.1 = name then (name, value) :: rest
      else member :: insert name value rest

/-- The value of a name. -/
def lookup? {α : Type} (name : String) : List (String × α) → Option α
  | [] => none
  | member :: rest => if member.1 = name then some member.2 else lookup? name rest

/-- Whether a name occurs. -/
def has {α : Type} (name : String) (members : List (String × α)) : Bool :=
  (lookup? name members).isSome

/--
Members added one after the other; a repeated name keeps its place
and its last value.
-/
def ofMembers {α : Type} (members : List (String × α)) : List (String × α) :=
  members.foldl (fun known member => insert member.1 member.2 known) []

/-- The name of the kind of a value, as findings spell it. -/
def kind : Wire → String
  | .null => "NoneType"
  | .bool _ => "bool"
  | .int _ => "int"
  | .float _ => "float"
  | .str _ => "str"
  | .list _ => "list"
  | .obj _ => "dict"

/-- Whether a value counts as present: not null, false, zero or empty. -/
def isTruthy : Wire → Bool
  | .null => false
  | .bool value => value
  | .int value => value != 0
  | .float value => !(value == 0.0)
  | .str text => text != ""
  | .list items => !items.isEmpty
  | .obj members => !members.isEmpty

/-- Whether a value is an object. -/
def isObject : Wire → Bool
  | .obj _ => true
  | _ => false

/-- The members of an object; other kinds have none. -/
def members : Wire → List (String × Wire)
  | .obj members => members
  | _ => []

/-- Whether a value can serve as a key: everything but lists and objects. -/
def isKey : Wire → Bool
  | .list _ => false
  | .obj _ => false
  | _ => true

/-- The fault of using a list or an object as a key. -/
def keyFault (value : Wire) : Fault :=
  .wrongKind ("unhashable type: '" ++ value.kind ++ "'")

/-- The value under a name, where only an object may be asked. -/
def get? (name : String) (value : Wire) : Except Fault (Option Wire) :=
  match value with
  | .obj members => .ok (lookup? name members)
  | other => .error (.noMember other.kind "get")

/-- The value under a name or a default, where only an object may be asked. -/
def getD (name : String) (value : Wire) (default : Wire) : Except Fault Wire := do
  let found ← value.get? name
  return found.getD default

/-- The value under a required name. -/
def require (name : String) (value : Wire) : Except Fault Wire :=
  match value with
  | .obj members =>
      match lookup? name members with
      | some found => .ok found
      | none => .error (.missingKey name)
  | other => .error (.wrongKind ("'" ++ other.kind ++ "' object has no members"))

/-- The parts that a value consists of: list items, characters, or names. -/
def parts : Wire → Except Fault (List Wire)
  | .list items => .ok items
  | .str text => .ok (text.toList.map (fun c => .str (String.singleton c)))
  | .obj members => .ok (members.map (fun member => .str member.1))
  | other => .error (.wrongKind ("'" ++ other.kind ++ "' object is not iterable"))

/-- A number as a double; truth values count as 0 and 1. -/
def number? : Wire → Option (Except Fault Float)
  | .bool value => some (.ok (if value then 1.0 else 0.0))
  | .int value => some (Number.ofInt? value)
  | .float value => some (.ok value)
  | _ => none

end Wire

/-- An object, members given in order. -/
def Wire.object (members : List (String × Wire)) : Wire :=
  .obj members

/-- A list of texts. -/
def Wire.texts (items : List String) : Wire :=
  .list (items.map Wire.str)

end DesignTokens
