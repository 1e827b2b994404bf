namespace DesignTokens.Text

/-!
# Character ranges

Classes of characters are given by the code points they hold, as inclusive
ranges in ascending order.
-/

/-- Whether a character lies in one of the ranges. -/
def inRanges (ranges : List (Nat × Nat)) (c : Char) : Bool :=
  ranges.any (fun range => decide (range.1 ≤ c.toNat ∧ c.toNat ≤ range.2))

end DesignTokens.Text
