import DesignTokens.Source.Stylesheet.Extraction
import Mathlib.Data.List.TakeWhile

namespace DesignTokens.Stylesheet

/-!
# Scans of regions

A scan goes from block to block, and where a region stands in the style sheet
only shows in the places of its declarations.
-/

/-- The place behind some more text in front. -/
def Place.shifted (chars lineEnds : Nat) (place : Place) : Place :=
  ⟨chars + place.offset, lineEnds + place.lineEnds⟩

/-- The declaration behind some more text in front. -/
def Declaration.shifted (chars lineEnds : Nat) (declaration : Declaration) :
    Declaration :=
  { declaration with place := declaration.place.shifted chars lineEnds }

/-- The declarations behind a text. -/
def behind (text : List Char) (declarations : List Declaration) :
    List Declaration :=
  declarations.map (Declaration.shifted text.length (text.count '\n'))

namespace Place

theorem after_append
    (place : Place)
    (first second : List Char) :
    place.after (first ++ second) = (place.after first).after second := by
  simp [after, Nat.add_assoc]

theorem shifted_after
    (chars lineEnds : Nat)
    (place : Place)
    (text : List Char) :
    (place.shifted chars lineEnds).after text =
      (place.after text).shifted chars lineEnds := by
  simp [after, shifted, Nat.add_assoc]

theorem start_after
    (text : List Char) :
    start.after text = start.shifted text.length (text.count '\n') := by
  simp [after, shifted, start]

end Place

theorem behind_nil
    (found : List Declaration) :
    behind [] found = found := by
  have unmoved : Declaration.shifted 0 0 = id := by
    funext declaration
    simp [Declaration.shifted, Place.shifted]
  simp [behind, unmoved]

theorem behind_append
    (first second : List Char)
    (found : List Declaration) :
    behind (first ++ second) found = behind first (behind second found) := by
  simp [behind, Declaration.shifted, Place.shifted, Nat.add_assoc]

/-- The declarations of one block, by what stands in front of it. -/
def scanBlock
    (kinds : Kinds)
    (inDarkMedia : Bool)
    (heading : List Char)
    (inner : Place)
    (inside : List Char) : List Declaration :=
  if isTransparent heading then
    scan kinds (inDarkMedia || isDarkMedia heading) inner inside
  else
    match classify kinds inDarkMedia heading with
    | some context => declarations context inner inside
    | none => []

theorem scan_of_uncut
    {region : List Char}
    (isUncut : cut? region = none)
    (kinds : Kinds)
    (inDarkMedia : Bool)
    (place : Place) :
    scan kinds inDarkMedia place region = [] := by
  rw [scan]
  split
  · rfl
  · rename_i cut isCut
    cases isUncut.symm.trans isCut

/--
A region gives the declarations of its first block, and then those of
the text behind it.
-/
theorem scan_of_cut
    {region : List Char}
    {cut : Cut}
    (isCut : cut? region = some cut)
    (kinds : Kinds)
    (inDarkMedia : Bool)
    (place : Place) :
    scan kinds inDarkMedia place region =
      scanBlock kinds inDarkMedia (headingOf cut.before)
          (place.after (cut.before ++ ['\x7b'])) cut.inside ++
        scan kinds inDarkMedia
          ((place.after (cut.before ++ ['\x7b'])).after (cut.inside ++ ['\x7d']))
          cut.after := by
  rw [scan]
  split
  · rename_i isUncut
    cases isUncut.symm.trans isCut
  · rename_i other isOther
    obtain rfl := Option.some.inj (isCut.symm.trans isOther)
    rfl

/--
What is taken from a block is taken from the text inside it, or is one of its
own declarations.
-/
theorem cases_of_mem_scanBlock
    {kinds : Kinds}
    {inDarkMedia : Bool}
    {heading : List Char}
    {inner : Place}
    {inside : List Char}
    {declaration : Declaration}
    (inBlock : declaration ∈ scanBlock kinds inDarkMedia heading inner inside) :
    (isTransparent heading = true ∧
        declaration ∈ scan kinds (inDarkMedia || isDarkMedia heading) inner
          inside) ∨
      (isTransparent heading = false ∧
        ∃ context, classify kinds inDarkMedia heading = some context ∧
          declaration ∈ declarations context inner inside) := by
  unfold scanBlock at inBlock
  split at inBlock
  · rename_i isOutside
    exact .inl ⟨isOutside, inBlock⟩
  · rename_i isNotOutside
    split at inBlock
    · rename_i context isKind
      exact .inr ⟨eq_false_of_ne_true isNotOutside, context, isKind, inBlock⟩
    · cases inBlock

/--
Induction over regions: the text inside the first block and the text
behind it are shorter.
-/
theorem cut_induction
    {motive : List Char → Prop}
    (uncut : ∀ region, cut? region = none → motive region)
    (cut :
      ∀ region cut, cut? region = some cut → motive cut.inside → motive cut.after →
        motive region)
    (region : List Char) :
    motive region := by
  induction size : region.length using
    Nat.strong_induction_on generalizing region with
  | _ length inductionHypothesis =>
      cases isCut : cut? region with
      | none => exact uncut region isCut
      | some pieces =>
          obtain ⟨insideShorter, afterShorter⟩ := length_cut? isCut
          apply cut region pieces isCut
          · exact inductionHypothesis _ (size ▸ insideShorter) _ rfl
          · exact inductionHypothesis _ (size ▸ afterShorter) _ rfl

/--
A region that begins further behind gives the same declarations further behind.
-/
theorem scan_shifted
    (kinds : Kinds)
    (inDarkMedia : Bool)
    (chars lineEnds : Nat)
    (place : Place)
    (region : List Char) :
    scan kinds inDarkMedia (place.shifted chars lineEnds) region =
      (scan kinds inDarkMedia place region).map
        (Declaration.shifted chars lineEnds) := by
  have declarationsMove (context : Context) (place : Place) (body : List Char) :
      declarations context (place.shifted chars lineEnds) body =
        (declarations context place body).map
          (Declaration.shifted chars lineEnds) := by
    simp [declarations, Declaration.shifted, Place.shifted_after]
  induction region using cut_induction generalizing inDarkMedia place with
  | uncut region isUncut =>
      rw [scan_of_uncut isUncut, scan_of_uncut isUncut]
      rfl
  | cut region cut isCut insideMoves afterMoves =>
      have blockMoves (heading : List Char) (inner : Place) :
          scanBlock kinds inDarkMedia heading (inner.shifted chars lineEnds)
            cut.inside = (scanBlock kinds inDarkMedia heading inner cut.inside).map
            (Declaration.shifted chars lineEnds) := by
        unfold scanBlock
        split
        · exact insideMoves _ _
        · split
          · exact declarationsMove _ _ _
          · rfl
      rw [scan_of_cut isCut, scan_of_cut isCut, List.map_append,
        Place.shifted_after, Place.shifted_after, blockMoves]
      congr 1
      exact afterMoves _ _

/--
Behind a text, a scan gives the declarations that it gives at the start,
behind that text.
-/
theorem scan_start_after
    (kinds : Kinds)
    (inDarkMedia : Bool)
    (text region : List Char) :
    scan kinds inDarkMedia (Place.start.after text) region =
      behind text (scan kinds inDarkMedia Place.start region) := by
  rw [Place.start_after, scan_shifted]
  rfl

end DesignTokens.Stylesheet
