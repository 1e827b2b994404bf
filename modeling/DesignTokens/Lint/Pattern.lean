namespace DesignTokens.Lint

/-!
# Path patterns

A pattern is compared with a whole path.  A star stands for any run of
characters, a question mark for one character, and brackets for one character
out of a set or, after an exclamation mark, out of its complement.
-/

/-- A set of characters as written between brackets: runs joined by hyphens. -/
structure CharSet where
  negated : Bool
  /--
  The runs; the last character of one and the first of the next bound a range.
  -/
  runs : List (List Char)
  deriving Repr, DecidableEq

namespace CharSet

/--
Whether a character lies between the end of a run and the beginning of the next.
-/
def inRange (left right : List Char) (c : Char) : Bool :=
  match left.getLast?, right.head? with
  | some low, some high => decide (low ≤ c) && decide (c ≤ high)
  | _, _ => false

/-- Whether a character is in one of the ranges between neighboring runs. -/
def inRanges : List (List Char) → Char → Bool
  | left :: right :: rest, c => inRange left right c || inRanges (right :: rest) c
  | _, _ => false

/-- Whether the set holds a character. -/
def holds (set : CharSet) (c : Char) : Bool :=
  (set.runs.any (fun run => run.contains c) || inRanges set.runs c) != set.negated

/--
The runs of a set; a hyphen bounds a range unless it comes first, last, or
right after a range.
-/
def splitRuns : Nat → List Char → List (List Char)
  | skip, chars =>
      match chars.drop skip |>.dropWhile (· != '-') with
      | [] => [chars]
      | _ :: rest =>
          if rest.length < chars.length then
            (chars.take (chars.length - rest.length - 1)) :: splitRuns 2 rest
          else [chars]
termination_by _ chars => chars.length

/-- An empty last run is a hyphen at the end of the run before it. -/
def closeRuns : List (List Char) → List (List Char)
  | [run, []] => [run ++ ['-']]
  | run :: rest => run :: closeRuns rest
  | [] => []

/--
Drops ranges whose end comes before their beginning, from the last to the first.
-/
def dropEmptyRanges : List (List Char) → List (List Char)
  | [] => []
  | run :: rest =>
      match run.getLast?, dropEmptyRanges rest with
      | some low, (high :: more) :: others =>
          if high < low then (run.dropLast ++ more) :: others
          else run :: (high :: more) :: others
      | _, others => run :: others

/-- Takes the exclamation mark off the first run. -/
def ofRuns (runs : List (List Char)) : CharSet :=
  match runs with
  | ('!' :: run) :: rest => ⟨true, run :: rest⟩
  | runs => ⟨false, runs⟩

/-- The set written between brackets. -/
def ofChars (chars : List Char) : CharSet :=
  if chars.contains '-' then
    let skip := if chars.head? = some '!' then 2 else 1
    ofRuns (dropEmptyRanges (closeRuns (splitRuns skip chars)))
  else ofRuns [chars]

end CharSet

/-- A piece of a pattern. -/
inductive Piece where
  | run
  | one
  | char (c : Char)
  | set (chars : CharSet)
  deriving Repr, DecidableEq

/--
The characters of a set and what follows its closing bracket; the first
character may be one.
-/
def closeSet? (chars : List Char) : Option (List Char × List Char) :=
  let (mark, rest) :=
    match chars with
    | '!' :: rest => (['!'], rest)
    | _ => ([], chars)
  let (first, rest) :=
    match rest with
    | ']' :: rest => ([']'], rest)
    | _ => ([], rest)
  match rest.dropWhile (· != ']') with
  | _ :: after => some (mark ++ first ++ rest.takeWhile (· != ']'), after)
  | [] => none

/-- What follows a set is shorter than the text that it was closed in. -/
theorem length_closeSet? {chars : List Char} {found : List Char × List Char}
    (isClosed : closeSet? chars = some found) : found.2.length < chars.length := by
  have shorter :
      ∀ (text : List Char) (bracket : Char) (after : List Char),
        text.dropWhile (· != ']') = bracket :: after →
          after.length < text.length := by
    intro text bracket after remaining
    have whole := congrArg List.length
      (List.takeWhile_append_dropWhile (p := (· != ']')) (l := text))
    simp [remaining] at whole
    omega
  unfold closeSet? at isClosed
  grind

/-- The pieces of a pattern; an unclosed bracket stands for itself. -/
def pieces (chars : List Char) : List Piece :=
  match chars with
  | [] => []
  | '*' :: rest => .run :: pieces rest
  | '?' :: rest => .one :: pieces rest
  | '[' :: rest =>
      match _isClosed : closeSet? rest with
      | some found => .set (CharSet.ofChars found.1) :: pieces found.2
      | none => .char '[' :: pieces rest
  | c :: rest => .char c :: pieces rest
termination_by chars.length
decreasing_by
  all_goals first
    | (have shorter := length_closeSet? _isClosed; simp; omega)
    | simp

/-- Whether a piece that stands for one character stands for this one. -/
def Piece.accepts : Piece → Char → Bool
  | .run, _ => false
  | .one, _ => true
  | .char expected, c => c == expected
  | .set chars, c => chars.holds c

/-- Whether pieces make up a whole text. -/
def matchPieces : List Piece → List Char → Bool
  | [], chars => chars.isEmpty
  | .run :: rest, chars =>
      matchPieces rest chars ||
        (match chars with
         | [] => false
         | _ :: more => matchPieces (.run :: rest) more)
  | piece :: rest, chars =>
      match chars with
      | [] => false
      | c :: more => piece.accepts c && matchPieces rest more
termination_by pattern chars => (pattern.length, chars.length)

/-- Whether a path matches a pattern. -/
def matchesPattern (pattern path : String) : Bool :=
  matchPieces (pieces pattern.toList) path.toList

end DesignTokens.Lint
