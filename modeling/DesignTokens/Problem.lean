import DesignTokens.Text.Split
import DesignTokens.Wire.Display

namespace DesignTokens

/-!
# Problems

A problem ends a request: a source that is rejected as a whole, a type tag that
nothing handles, a chain of references that loops, a configuration or a file
that cannot be used.  Every problem has a sentence, mostly an advice, details
for the reader and an exit code; all of them are worked out here from the cause.
-/

open DesignTokens.Text (joinWith)

/-- What a problem is about. -/
inductive Category where
  | validation
  | registry
  | reference
  | configuration
  | fileSystem
  deriving Repr, DecidableEq

/-- The name of a category. -/
def Category.name : Category → String
  | .validation => "validation"
  | .registry => "registry"
  | .reference => "reference"
  | .configuration => "configuration"
  | .fileSystem => "file_system"

/-- Why a request cannot be answered. -/
inductive Problem where
  /-- A source of the named format was rejected, for all of the given reasons. -/
  | invalidSource (source : String) (errors : List String)
  /-- Nothing handles the type tag; the known tags are offered. -/
  | unknownType (tag : Wire) (known : List String)
  /-- Two handlers claim one type tag. -/
  | duplicateType (tag : String)
  /-- Following references came back to a path already passed. -/
  | circularReference (chain : List String)
  /-- A lint configuration, or its file, cannot be used. -/
  | configuration (text : String) (file : Option String) (advice : Option String)
  /--
  A lint configuration has unusable entries; their names are given as written.
  -/
  | invalidConfiguration (fields : List String) (file : Option String)
  /-- There is no such source file. -/
  | sourceNotFound (path : String)
  deriving Inhabited

namespace Problem

/-- The sentence that states the problem. -/
def message : Problem → String
  | .invalidSource source errors =>
      "Invalid " ++ source ++ " input: " ++ joinWith "; " errors
  | .unknownType tag _ => "Unknown token type: " ++ tag.display
  | .duplicateType tag => "Token type " ++ tag ++ " is already registered"
  | .circularReference chain => "Circular reference: " ++ joinWith " -> " chain
  | .configuration text _ _ => text
  | .invalidConfiguration _ _ => "Invalid lint configuration"
  | .sourceNotFound path => "Source file not found: " ++ path

/-- The advice that goes with every configuration problem without one of its own. -/
def configurationAdvice : String :=
  "Check your configuration file syntax and rule names"

/-- Advice on how to go on, if there is any. -/
def suggestion? : Problem → Option String
  | .invalidSource _ _ =>
      some "Run validate() on the source to inspect every problem"
  | .unknownType _ known =>
      if known.isEmpty then none
      else
        some ("Known types: " ++
          joinWith ", " (known.mergeSort (fun left right => decide (left ≤ right))))
  | .duplicateType _ => some "Give the new handler a distinct type tag"
  | .circularReference _ => some "Point one of the tokens at a concrete value"
  | .configuration _ _ advice =>
      match advice with
      | some text => if text = "" then some configurationAdvice else some text
      | none => some configurationAdvice
  | .invalidConfiguration _ _ => some configurationAdvice
  | .sourceNotFound _ => some "Verify the path exists and you have read permissions"

/-- The details of a configuration problem: its file, if it has one. -/
def fileDetails? : Option String → Option (List (String × Wire))
  | some file => if file = "" then none else some [("config_file", .str file)]
  | none => none

/-- Named details for the reader, if there are any. -/
def details? : Problem → Option (List (String × Wire))
  | .invalidSource source errors =>
      some [("source", .str source), ("errors", .int (Int.ofNat errors.length))]
  | .unknownType tag _ => some [("type", tag)]
  | .duplicateType tag => some [("type", .str tag)]
  | .circularReference chain =>
      some [("start", match chain with | first :: _ => .str first | [] => .null)]
  | .configuration _ file _ => fileDetails? file
  | .invalidConfiguration _ file => fileDetails? file
  | .sourceNotFound path => some [("path", .str path)]

/-- What the problem is about. -/
def category : Problem → Category
  | .invalidSource _ _ => .validation
  | .unknownType _ _ => .registry
  | .duplicateType _ => .registry
  | .circularReference _ => .reference
  | .configuration _ _ _ => .configuration
  | .invalidConfiguration _ _ => .configuration
  | .sourceNotFound _ => .fileSystem

/-- The status with which a program ends on this problem. -/
def exitCode : Problem → Nat
  | .invalidSource _ _ => 2
  | _ => 1

/-- Terminal styles of the parts of a formatted problem. -/
structure Paint where
  heading : String
  advice : String
  detail : String
  reset : String

/-- Colors for a terminal. -/
def Paint.terminal : Paint :=
  ⟨"\x1b[91m", "\x1b[96m", "\x1b[2m", "\x1b[0m"⟩

/-- No colors. -/
def Paint.plain : Paint :=
  ⟨"", "", "", ""⟩

/-- The problem, its advice and its details, one a line. -/
def format (paint : Paint) (problem : Problem) : String :=
  let heading := paint.heading ++ "Error:" ++ paint.reset ++ " " ++ problem.message
  let advice :=
    match problem.suggestion? with
    | some text => [paint.advice ++ "Suggestion:" ++ paint.reset ++ " " ++ text]
    | none => []
  let details :=
    (problem.details?.getD []).map
      (fun detail =>
        paint.detail ++ "  " ++ detail.1 ++ ": " ++ detail.2.display ++ paint.reset)
  joinWith "\n" (heading :: (advice ++ details))

end Problem

/-- Why a request ended without an answer. -/
inductive Failure where
  | problem (cause : Problem)
  | fault (cause : Fault)
  deriving Inhabited

/-- The sentence that a failure is reported with. -/
def Failure.text : Failure → String
  | .problem cause => cause.format .plain
  | .fault cause => cause.text

/-- Turns a fault into a failure. -/
def Failure.lift {α : Type} : Except Fault α → Except Failure α
  | .ok value => .ok value
  | .error cause => .error (.fault cause)

instance : MonadLift (Except Fault) (Except Failure) where
  monadLift := Failure.lift

end DesignTokens
