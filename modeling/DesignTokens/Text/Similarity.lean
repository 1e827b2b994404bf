namespace DesignTokens.Text

/-!
# Similar texts

How much two texts have in common: the longest run of characters that both
hold, and what the parts on its left and on its right have in common.  Among
longest runs the one that begins first in the first text counts, and of its
places in the second text the first.
-/

/--
A run of characters that two texts share: where it begins in
each, and its length.
-/
structure SharedRun where
  left : Nat
  right : Nat
  length : Nat
  deriving Repr, DecidableEq

/-- How many characters two texts share at their beginning. -/
def commonStart : List Char → List Char → Nat
  | a :: as, b :: bs => if a = b then commonStart as bs + 1 else 0
  | _, _ => 0

/-- The longer of two runs; the first of two equally long ones. -/
def SharedRun.longer (first second : SharedRun) : SharedRun :=
  if first.length < second.length then second else first

/-- The longest run that begins at one place of the first text. -/
def longestFrom (left : Nat) (first second : List Char) : SharedRun :=
  (List.range second.length).foldl
    (fun best right =>
      best.longer ⟨left, right, commonStart first (second.drop right)⟩)
    ⟨left, 0, 0⟩

/-- The longest run that two texts share. -/
def longestShared (first second : List Char) : SharedRun :=
  (List.range first.length).foldl
    (fun best left => best.longer (longestFrom left (first.drop left) second))
    ⟨0, 0, 0⟩

/--
How many characters two texts have in common; every step takes
one off the depth.
-/
def commonCount : Nat → List Char → List Char → Nat
  | 0, _, _ => 0
  | depth + 1, first, second =>
      let run := longestShared first second
      if run.length = 0 then 0
      else
        commonCount depth (first.take run.left) (second.take run.right) +
          run.length + commonCount depth (first.drop (run.left + run.length))
            (second.drop (run.right + run.length))

/--
The share of characters that two texts have in common, as a fraction; empty
texts share all.
-/
def similarity (first second : String) : Nat × Nat :=
  let total := first.length + second.length
  if total = 0 then (1, 1)
  else (2 * commonCount (first.length + 1) first.toList second.toList, total)

/-- Whether one fraction is at least as great as another. -/
def isAtLeast (first second : Nat × Nat) : Bool :=
  decide (second.1 * first.2 ≤ first.1 * second.2)

/--
Whether a text with its similarity comes before another one: by similarity,
then by the text.
-/
def comesBefore (first second : (Nat × Nat) × String) : Bool :=
  if isAtLeast first.1 second.1 && isAtLeast second.1 first.1 then
    decide (second.2 ≤ first.2)
  else isAtLeast first.1 second.1

/--
The up to three texts that are most similar to a word, of those that share
three fifths with it.
-/
def closeMatches (word : String) (texts : List String) : List String :=
  let near :=
    (texts.map fun text => (similarity text word, text)).filter fun entry =>
      isAtLeast entry.1 (3, 5)
  ((near.mergeSort comesBefore).take 3).map Prod.snd

end DesignTokens.Text
