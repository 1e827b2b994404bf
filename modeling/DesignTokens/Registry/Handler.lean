import DesignTokens.Text.Casing
import DesignTokens.Text.Split
import DesignTokens.Value.Basic

namespace DesignTokens

/-!
# Type handlers

A handler knows everything about one type of token: how to recognize it, read
it, write it, and where its output belongs.  Handlers are plain records, so a
registry can hold handlers that this library has never heard of.
-/

open DesignTokens.Text

/-- A text value and the path under which it was found. -/
structure CompactContext where
  path : String
  value : String

namespace CompactContext

/-- The value without blanks around it. -/
def stripped (context : CompactContext) : List Char :=
  trimChars context.value.toList

/-- Whether the path contains one of the hints, case aside. -/
def pathHas (context : CompactContext) (hints : List String) : Bool :=
  let path := lowerChars context.path.toList
  hints.any (fun hint => contains hint.toList path)

end CompactContext

/-- What is known about a design variable: its type, its scopes and its name. -/
structure NativeContext where
  resolvedType : Wire
  scopes : List Wire
  name : String

namespace Wire

/-- Whether a value is the given text. -/
def isText (text : String) : Wire → Bool
  | .str other => other == text
  | _ => false

end Wire

namespace NativeContext

/-- Whether the variable has a scope. -/
def hasScope (context : NativeContext) (scope : String) : Bool :=
  context.scopes.any (Wire.isText scope)

end NativeContext

/-- How a value is to be written. -/
structure TextOptions where
  colorFormat : String
  dialect : String
  namePrefix : String

/-- Hexadecimal colors, plain style sheets and no name prefix. -/
def TextOptions.standard : TextOptions :=
  ⟨"hex", "css", ""⟩

/-- Everything about one type of token. -/
structure Handler where
  /-- The type tag that tokens carry. -/
  tag : String
  /-- The name for readers. -/
  name : String
  /-- The name in listings of handlers. -/
  label : String
  /-- Handlers of higher priority are asked first. -/
  priority : Int
  /-- Where the output belongs, unless the path says otherwise. -/
  defaultNamespace : Option String
  /-- Unreadable composite values are left out instead of kept as texts. -/
  composite : Bool
  detectNative : NativeContext → Except Fault Bool
  detectCompact : CompactContext → Except Fault Bool
  parseNative : Wire → Except Fault (Option TokenValue)
  parseCompact : String → Except Fault (Option TokenValue)
  toText : TextOptions → TokenValue → Except Fault String
  /-- The namespace that the path asks for. -/
  pathNamespace : List String → Option String
  encode : TokenValue → Except Fault Wire
  decode : Wire → Except Fault TokenValue

namespace Handler

/-- A handler that recognizes and reads nothing and keeps values as they are. -/
def blank (tag label : String) : Handler where
  tag := tag
  name := tag
  label := label
  priority := 0
  defaultNamespace := none
  composite := false
  detectNative _ := .ok false
  detectCompact _ := .ok false
  parseNative _ := .ok none
  parseCompact _ := .ok none
  toText _ value := value.display
  pathNamespace _ := none
  encode value := .ok value.encode
  decode data := .ok (.plain data)

/-- One line about a handler. -/
def describe (handler : Handler) : String :=
  "<" ++ handler.label ++ " " ++ handler.tag ++ " priority=" ++
    Number.intText handler.priority ++ ">"

/-- The namespace of a token under a path. -/
def namespaceFor (handler : Handler) (path : List String) : Option String :=
  match handler.pathNamespace path with
  | some found => some found
  | none => handler.defaultNamespace

end Handler

/--
The given namespace when the first segment of the path is one of the
hints, case aside.
-/
def namespaceWhenFirst (hints : List String) (found : String) (path : List String) :
    Option String :=
  match path with
  | first :: _ => if hints.contains (lower first) then some found else none
  | [] => none

end DesignTokens
