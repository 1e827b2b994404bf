import DesignTokens.Problem
import DesignTokens.Remaining
import DesignTokens.Theme.Graph
import DesignTokens.Theme.Lookup

namespace DesignTokens

/-!
# Following references

A reference is followed hop by hop until a value is reached.  A chain that
comes back to a path it has passed is a problem; a chain that ends at a path
without a token leads to nothing.  Each hop is the edge of a graph, whose cycles
are the loops in which resolution would be caught.
-/

open DesignTokens.Text

namespace Theme

/-- Passing a new key leaves fewer keys. -/
theorem remaining_append_lt {theme : Theme} {chain : List String} {key : String}
    (isKey : key ∈ theme.keys) (isNew : key ∉ chain) :
    remaining theme.keys (chain ++ [key]) < remaining theme.keys chain := by
  rw [remaining_append_singleton]
  exact remaining_cons_lt isKey isNew

/-- Follows the value of a token, with the paths passed so far. -/
def resolveFrom
    (theme : Theme)
    (mode : Label)
    (chain : List String)
    (token : Token) : Except Problem (Option TokenValue) :=
  match token.value.reference? with
  | none => .ok (some token.value)
  | some reference =>
      if _isPassed : chain.contains reference.path then
        .error (.circularReference (chain ++ [reference.path]))
      else
        match _isThere : theme.find? reference.path mode with
        | none => .ok none
        | some found => theme.resolveFrom mode (chain ++ [reference.path]) found
termination_by remaining theme.keys chain
decreasing_by
  exact remaining_append_lt (mem_keys_of_find? _isThere) (by simpa using _isPassed)

/--
The value that a token stands for, or nothing when its chain of
references breaks.
-/
def resolve (theme : Theme) (token : Token) (mode : Label) :
    Except Problem (Option TokenValue) :=
  theme.resolveFrom mode [] token

/-- The token that a reference names. -/
def hop (theme : Theme) (reference : Reference) (mode : Label) : Option Token :=
  theme.find? reference.path mode

/-- Labels without repetitions, each where it first occurs. -/
def distinctLabels : List Label → List Label
  | [] => []
  | label :: rest =>
      label :: (distinctLabels rest).filter (fun other => !other.same label)

/-- The modes of all collections, each where it first occurs. -/
def modes (theme : Theme) : List Label :=
  distinctLabels (theme.collections.flatMap Collection.modes)

/-- The fault of a mode label, if any, that cannot serve as a key. -/
def modeFault? (theme : Theme) : Option Fault :=
  ((theme.collections.flatMap Collection.modes).find? (fun mode => !mode.isKey)).map
    Wire.keyFault

/-- The edge from a key to the path that its token references. -/
def edge? (theme : Theme) (mode : Label) (key : String) :
    Option (String × List String) :=
  match theme.find? key mode with
  | some token =>
      token.value.reference?.map (fun reference => (key, [reference.path]))
  | none => none

/-- The references of a mode as a graph over keys. -/
def referenceGraph (theme : Theme) (mode : Label) : Graph :=
  theme.keys.eraseDups.filterMap (theme.edge? mode)

/-- Whether two lists have the same members. -/
def sameMembers (left right : List String) : Bool :=
  left.all right.contains && right.all left.contains

/-- Cycles without those whose members are those of an earlier one. -/
def distinctCycles (cycles : List (List String)) : List (List String) :=
  cycles.foldl
    (fun known cycle => if known.any (sameMembers cycle) then known
    else known ++ [cycle]) []

/-- The cycles of every mode, one mode after the other. -/
def modeCycles (theme : Theme) : List (List String) :=
  theme.modes.flatMap (fun mode => (theme.referenceGraph mode).cycles)

/-- The reference cycles of a theme; each set of members is reported once. -/
def referenceCycles (theme : Theme) : List (List String) :=
  distinctCycles theme.modeCycles

/-- A reference whose target stands nowhere in the theme. -/
structure BrokenReference where
  collection : Wire
  mode : Label
  key : String
  target : String

/-- The broken reference of a token, if its value is one. -/
def brokenReference? (keys : List String) (located : Located) :
    Option BrokenReference :=
  match located.token.value.reference? with
  | some reference =>
      if keys.contains reference.path then none
      else
        some ⟨located.collection.name, located.mode, TokenPath.key located.path,
          reference.path⟩
  | none => none

/-- Every reference whose target stands nowhere in the theme. -/
def brokenReferences (theme : Theme) : List BrokenReference :=
  theme.walk.filterMap (brokenReference? theme.keys)

end Theme

end DesignTokens
