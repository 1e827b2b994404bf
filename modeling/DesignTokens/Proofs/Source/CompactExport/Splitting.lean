import DesignTokens.Proofs.Text.Depth
import DesignTokens.Source.CompactExport

namespace DesignTokens.CompactExport

/-!
# Splitting at commas

A text is split into the values of its modes, into the layers of a shadow, and
into constructors, and the first of these ignores stray closing parentheses.  In
a text that closes no parenthesis before it is opened, they all come to the same
pieces: these are the parts between the commas outside parentheses.
-/

open DesignTokens.Text

/--
Where no front of a text closes more than it opens, the depth never
falls below zero.
-/
theorem neverBelow_of_count_le
    {chars : List Char}
    (closesOpened : ∀ front, front <+: chars → front.count ')' ≤ front.count '(') :
    NeverBelow 0 chars := by
  intro front isFront
  have closed := closesOpened front isFront
  rw [foldl_depthAfter]
  omega

/--
Where stray closing parentheses do not occur, it does not matter that they
would be ignored.
-/
theorem splitTopLevel_eq_splitLayers
    {text : String}
    (neverBelow : NeverBelow 0 text.toList) :
    splitTopLevel text = splitLayers text := by
  rw [splitTopLevel, splitLayers, splitAtDepthZero_clamped neverBelow]

/--
Where no front of a text closes more parentheses than it opens, the layers of a
shadow are its top-level pieces without the empty ones, and the constructors of
a name are the pieces that begin with that name and a parenthesis.  Untrimmed
and joined with commas, the pieces give the text back; every comma in one of
them stands behind a parenthesis that is still open, and each piece but the last
closes all that it opens.
-/
theorem splitters_agree
    {text : String}
    (closesOpened :
      ∀ front, front <+: text.toList → front.count ')' ≤ front.count '(') :
    (splitLayers text).filter (fun piece => piece != "") =
        (splitTopLevel text).filter (fun piece => piece != "") ∧
      (∀ name, splitConstructors text name =
        (splitTopLevel text).filter
          (fun piece => startsWith (name ++ "(").toList piece.toList)) ∧
      ∃ pieces : List (List Char),
        splitTopLevel text =
          pieces.map (fun piece => String.ofList (trimChars piece)) ∧
          [','].intercalate pieces = text.toList ∧
          (∀ piece ∈ pieces, ∀ front behind, piece = front ++ ',' :: behind →
            front.count ')' < front.count '(') ∧
          ∀ piece ∈ pieces.dropLast, piece.count ')' = piece.count '(' := by
  have neverBelow := neverBelow_of_count_le closesOpened
  have sameLayers := splitTopLevel_eq_splitLayers neverBelow
  refine ⟨by rw [sameLayers], fun name => by rw [sameLayers, splitConstructors],
    splitAtDepthZero clampedDepthAfter 0 text.toList, rfl,
    intercalate_splitAtDepthZero _ _ _, ?_⟩
  rw [splitAtDepthZero_clamped neverBelow]
  obtain ⟨inside, closes⟩ := (cuts_splitAtDepthZero neverBelow).of_mem
  constructor
  · intro piece isPiece front behind shape
    have isOpen := inside piece isPiece front behind shape
    rw [foldl_depthAfter] at isOpen
    omega
  · intro piece isPiece
    have isClosed := closes piece isPiece
    rw [foldl_depthAfter] at isClosed
    omega

/-- Two constructors, and nothing between two commas. -/
def listed : String :=
  "Effect(color: rgb(0, 0, 0)), , Font(size: 2)"

/--
The layers of the list are its two constructors, and each is found by its name.
-/
theorem split_listed :
    (∀ front, front <+: listed.toList → front.count ')' ≤ front.count '(') ∧
      (splitLayers listed).filter (fun piece => piece != "") =
        ["Effect(color: rgb(0, 0, 0))", "Font(size: 2)"] ∧
      splitConstructors listed "Font" = ["Font(size: 2)"] := by
  have closesOpened :
      ∀ front, front <+: listed.toList → front.count ')' ≤ front.count '(' := by
    have inAllFronts :
        ∀ front ∈ listed.toList.inits, front.count ')' ≤ front.count '(' := by
      decide
    exact fun front isFront =>
      inAllFronts front ((List.mem_inits front _).mpr isFront)
  obtain ⟨layers, constructors, _⟩ := splitters_agree closesOpened
  have topLevel : splitTopLevel listed =
      ["Effect(color: rgb(0, 0, 0))", "", "Font(size: 2)"] := by
    decide
  refine ⟨closesOpened, ?_, ?_⟩
  · rw [layers, topLevel]
    decide
  · rw [constructors, topLevel]
    decide

end DesignTokens.CompactExport
