import DesignTokens.Problem
import DesignTokens.Registry.Composite

namespace DesignTokens

/-!
# Registry

A registry holds one handler for each type tag.  Detection asks the handlers
from the highest priority down, those of equal priority in the order in which
they were registered, and takes the first that answers.
-/

open DesignTokens.Text

/--
Handlers with distinct tags, in the order of registration and in the
order of detection.
-/
structure Registry where
  registered : List Handler
  ordered : List Handler

namespace Registry

/-- The tag that a handler shares with one of the handlers before it. -/
def duplicate? : List String → List Handler → Option String
  | _, [] => none
  | known, handler :: rest =>
      if known.contains handler.tag then some handler.tag
      else duplicate? (handler.tag :: known) rest

/-- Handlers from the highest priority down; equals keep their order. -/
def byPriority (handlers : List Handler) : List Handler :=
  handlers.mergeSort (fun left right => decide (right.priority ≤ left.priority))

/-- Registers handlers; two of them must not share a tag. -/
def create (handlers : List Handler) : Except Problem Registry :=
  match duplicate? [] handlers with
  | some tag => .error (.duplicateType tag)
  | none => .ok ⟨handlers, byPriority handlers⟩

/-- The registry of the handlers of this library. -/
def standard : Registry :=
  ⟨Handler.builtins, byPriority Handler.builtins⟩

/-- The tags in the order of detection. -/
def tags (registry : Registry) : List String :=
  registry.ordered.map Handler.tag

/-- How many handlers there are. -/
def size (registry : Registry) : Nat :=
  registry.registered.length

/-- The handler of a tag. -/
def find? (registry : Registry) (tag : String) : Option Handler :=
  registry.registered.find? (fun handler => handler.tag == tag)

/-- Whether a tag has a handler. -/
def has (registry : Registry) (tag : String) : Bool :=
  (registry.find? tag).isSome

/-- The problem of a tag without a handler. -/
def unknown (registry : Registry) (tag : Wire) : Problem :=
  .unknownType tag (registry.registered.map Handler.tag)

/-- The handler of a tag, or the problem that there is none. -/
def get (registry : Registry) (tag : Wire) : Except Failure Handler :=
  match tag with
  | .str name =>
      match registry.find? name with
      | some handler => .ok handler
      | none => .error (.problem (registry.unknown tag))
  | other =>
      if other.isKey then .error (.problem (registry.unknown tag))
      else .error (.fault other.keyFault)

/-- The tag of the first handler that claims a context. -/
def firstClaim {Context : Type} (claims : Handler → Context → Except Fault Bool)
    (context : Context) : List Handler → Except Fault (Option String)
  | [] => .ok none
  | handler :: rest => do
      if ← claims handler context then return some handler.tag
      else firstClaim claims context rest

/--
The tag for a text under a path that no handler claims: texts, or the
handler asked last.
-/
def compactFallback (registry : Registry) : Except Fault String :=
  if registry.has "string" then .ok "string"
  else
    match registry.ordered.getLast? with
    | some handler => .ok handler.tag
    | none => .error .outOfRange

/-- The type of a text under a path. -/
def detectCompact (registry : Registry) (context : CompactContext) :
    Except Fault String := do
  match ← firstClaim Handler.detectCompact context registry.ordered with
  | some tag => return tag
  | none => registry.compactFallback

/-- The tags that the types of variables fall back to. -/
def nativeFallbacks : List (String × String) :=
  [("COLOR", "color"), ("BOOLEAN", "boolean"), ("FLOAT", "number"),
    ("STRING", "string")]

/-- The tag for a variable that no handler claims. -/
def nativeFallback (registry : Registry) (resolvedType : Wire) :
    Except Fault String :=
  let choose (tag : String) : String := if registry.has tag then tag else "string"
  match resolvedType with
  | .str name => .ok (choose ((Wire.lookup? name nativeFallbacks).getD "string"))
  | other => if other.isKey then .ok (choose "string") else .error other.keyFault

/-- The type of a design variable. -/
def detectNative (registry : Registry) (context : NativeContext) :
    Except Fault String := do
  match ← firstClaim Handler.detectNative context registry.ordered with
  | some tag => return tag
  | none => registry.nativeFallback context.resolvedType

/-- A reference as a variable of the dialect. -/
def referenceText (options : TextOptions) (target : Reference) : String :=
  let name := options.namePrefix ++ joinWith "-" target.segments
  if options.dialect = "scss" then "$" ++ name else "var(--" ++ name ++ ")"

/-- A value as style text; a value of an unknown type is shown as it is. -/
def toText
    (registry : Registry)
    (tag : String)
    (value : TokenValue)
    (options : TextOptions) : Except Fault String :=
  match value with
  | .reference target => .ok (referenceText options target)
  | value =>
      match registry.find? tag with
      | some handler => handler.toText options value
      | none => value.display

/-- The namespace of a token: what the path asks for, else that of the type. -/
def namespaceOf (registry : Registry) (tag : String) (path : List String) :
    Option String :=
  (registry.find? tag).bind (fun handler => handler.namespaceFor path)

/-- The document form of a value of the given type. -/
def encodeValue (registry : Registry) (tag : Wire) (value : TokenValue) :
    Except Failure Wire :=
  match value with
  | .reference target => .ok target.encode
  | value => do
      let handler ← registry.get tag
      handler.encode value

/--
Reads a value of the given type; an object with a reference
member is a reference.
-/
def decodeValue (registry : Registry) (tag : Wire) (data : Wire) :
    Except Failure TokenValue :=
  match Wire.lookup? "$ref" data.members with
  | some target => do
      let reference ← Reference.decodePath target
      return .reference reference
  | none => do
      let handler ← registry.get tag
      handler.decode data

end Registry

end DesignTokens
