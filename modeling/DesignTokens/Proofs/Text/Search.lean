import DesignTokens.Text.Blank
import DesignTokens.Text.Casing
import DesignTokens.Text.Search
import DesignTokens.Text.Split
import Mathlib.Data.List.Infix

namespace DesignTokens.Text

/-!
# Searched texts

What a scanner leaves is the end of the text it was given, and what a search
finds, what a text contains and what it is cut into are made of its characters.
-/

theorem eq_append_of_after?
    {start chars rest : List Char}
    (isAfter : after? start chars = some rest) :
    chars = start ++ rest := by
  fun_induction after? start chars with
  | case1 chars => exact Option.some.inj isAfter
  | case2 => cases isAfter
  | case3 more c rest inductionHypothesis =>
      rw [inductionHypothesis isAfter, List.cons_append]
  | case4 => cases isAfter

theorem suffix_of_after?
    {start chars rest : List Char}
    (isAfter : after? start chars = some rest) :
    rest <:+ chars :=
  eq_append_of_after? isAfter ▸ List.suffix_append start rest

theorem prefix_of_after?
    {start chars rest : List Char}
    (isAfter : after? start chars = some rest) :
    start <+: chars :=
  eq_append_of_after? isAfter ▸ List.prefix_append start rest

/-- Behind its own beginning stands the rest of a text. -/
theorem after?_append
    (start rest : List Char) :
    after? start (start ++ rest) = some rest := by
  induction start with
  | nil => rfl
  | cons c start inductionHypothesis =>
      rw [List.cons_append, after?, if_pos rfl, inductionHypothesis]

/--
What stands behind a text does not matter, where it does not go on
what is looked for.
-/
theorem after?_append_of_not_mem
    {start : List Char}
    {c : Char}
    (isOther : c ∉ start)
    (front rest : List Char) :
    after? start (front ++ c :: rest) =
      (after? start front).map (· ++ c :: rest) := by
  induction start generalizing front with
  | nil => rfl
  | cons expected start inductionHypothesis =>
      obtain ⟨differs, notLater⟩ : c ≠ expected ∧ c ∉ start := by
        simpa using isOther
      cases front with
      | nil => simp [after?, differs]
      | cons first front =>
          rw [List.cons_append, after?, after?]
          split
          · exact inductionHypothesis notLater front
          · rfl

theorem takeWhile_append_of_not
    {holds : Char → Bool}
    {c : Char}
    (isOther : holds c = false)
    (front rest : List Char) :
    (front ++ c :: rest).takeWhile holds = front.takeWhile holds := by
  induction front with
  | nil => simp [isOther]
  | cons first front inductionHypothesis =>
      simp [List.takeWhile_cons, inductionHypothesis]

theorem dropWhile_append_of_not
    {holds : Char → Bool}
    {c : Char}
    (isOther : holds c = false)
    (front rest : List Char) :
    (front ++ c :: rest).dropWhile holds = front.dropWhile holds ++ c :: rest := by
  induction front with
  | nil => simp [isOther]
  | cons first front inductionHypothesis =>
      rw [List.cons_append, List.dropWhile_cons, List.dropWhile_cons,
        inductionHypothesis]
      split
      · rfl
      · rfl

theorem suffix_of_scanWord?
    {word chars rest : List Char}
    (isAfter : scanWord? word chars = some rest) :
    rest <:+ chars := by
  fun_induction scanWord? word chars with
  | case1 chars => exact Option.some.inj isAfter ▸ List.suffix_refl _
  | case2 => cases isAfter
  | case3 letter word c rest isSame inductionHypothesis =>
      exact (inductionHypothesis isAfter).trans (List.suffix_cons _ _)
  | case4 => cases isAfter

/--
Whether a word stands in front is seen on as many characters as it has letters.
-/
theorem scanWord?_append
    {word chars : List Char}
    (isLong : word.length ≤ chars.length)
    (tail : List Char) :
    scanWord? word (chars ++ tail) = (scanWord? word chars).map (· ++ tail) := by
  induction word generalizing chars with
  | nil =>
      rw [scanWord?, scanWord?]
      rfl
  | cons letter word inductionHypothesis =>
      cases chars with
      | nil => cases isLong
      | cons c rest =>
          rw [List.cons_append, scanWord?, scanWord?]
          split
          · exact inductionHypothesis (Nat.le_of_succ_le_succ isLong)
          · rfl

/-- What is taken as a word has a counterpart to each letter of it. -/
theorem exists_sameLetter_of_scanWord?
    {word chars rest : List Char}
    (isAfter : scanWord? word chars = some rest)
    {letter : Char}
    (isLetter : letter ∈ word) :
    ∃ c ∈ chars, sameLetter c letter = true := by
  fun_induction scanWord? word chars with
  | case1 => cases isLetter
  | case2 => cases isAfter
  | case3 first word c rest isSame inductionHypothesis =>
      rcases List.mem_cons.mp isLetter with rfl | isLater
      · exact ⟨c, List.mem_cons_self, isSame⟩
      · obtain ⟨later, isChar, isSame⟩ := inductionHypothesis isAfter isLater
        exact ⟨later, List.mem_cons_of_mem _ isChar, isSame⟩
  | case4 => cases isAfter

theorem mem_of_startsWith
    {start chars : List Char}
    (starts : startsWith start chars = true)
    {c : Char}
    (isChar : c ∈ start) :
    c ∈ chars :=
  (List.isPrefixOf_iff_prefix.mp starts).subset isChar

/-- A text has the characters of what it contains. -/
theorem mem_of_contains
    {wanted chars : List Char}
    (isThere : contains wanted chars = true)
    {c : Char}
    (isChar : c ∈ wanted) :
    c ∈ chars := by
  induction chars with
  | nil =>
      rw [contains, List.isEmpty_iff] at isThere
      rw [isThere] at isChar
      cases isChar
  | cons first rest inductionHypothesis =>
      rcases Bool.or_eq_true_iff.mp isThere with starts | isLater
      · exact mem_of_startsWith starts isChar
      · exact List.mem_cons_of_mem _ (inductionHypothesis isLater)

/-- A text has the characters of the whole words in it. -/
theorem mem_of_hasWholeWord
    {word chars : List Char}
    {previous : Option Char}
    (isThere : hasWholeWord word previous chars = true)
    {c : Char}
    (isChar : c ∈ word) :
    c ∈ chars := by
  induction chars generalizing previous with
  | nil => cases isThere
  | cons first rest inductionHypothesis =>
      simp only [hasWholeWord, Bool.or_eq_true, Bool.and_eq_true] at isThere
      rcases isThere with ⟨⟨_, starts⟩, _⟩ | isLater
      · exact mem_of_startsWith starts isChar
      · exact List.mem_cons_of_mem _ (inductionHypothesis isLater)

/-- Splitting adds no characters. -/
theorem mem_of_mem_splitOn
    {separator : Char}
    {chars piece : List Char}
    (isPiece : piece ∈ splitOn separator chars)
    {c : Char}
    (isChar : c ∈ piece) :
    c ∈ chars := by
  induction chars generalizing piece with
  | nil =>
      obtain rfl := List.mem_singleton.mp isPiece
      cases isChar
  | cons first rest inductionHypothesis =>
      rw [splitOn] at isPiece
      split at isPiece
      · rcases List.mem_cons.mp isPiece with rfl | inRest
        · cases isChar
        · exact List.mem_cons_of_mem _ (inductionHypothesis inRest isChar)
      · split at isPiece
        · obtain rfl := List.mem_singleton.mp isPiece
          exact List.mem_cons.mpr (.inl (List.mem_singleton.mp isChar))
        · rename_i head tail pieces
          rw [pieces] at inductionHypothesis
          rcases List.mem_cons.mp isPiece with rfl | inTail
          · rcases List.mem_cons.mp isChar with rfl | inHead
            · exact List.mem_cons_self
            · exact List.mem_cons_of_mem _
                (inductionHypothesis List.mem_cons_self inHead)
          · exact List.mem_cons_of_mem _
              (inductionHypothesis (List.mem_cons_of_mem _ inTail) isChar)

/-- No piece holds the separator. -/
theorem separator_not_mem_of_mem_splitOn
    {separator : Char}
    {chars piece : List Char}
    (isPiece : piece ∈ splitOn separator chars) :
    separator ∉ piece := by
  induction chars generalizing piece with
  | nil =>
      obtain rfl := List.mem_singleton.mp isPiece
      exact List.not_mem_nil
  | cons first rest inductionHypothesis =>
      rw [splitOn] at isPiece
      split at isPiece
      · rcases List.mem_cons.mp isPiece with rfl | inRest
        · exact List.not_mem_nil
        · exact inductionHypothesis inRest
      · rename_i isOther
        split at isPiece
        · obtain rfl := List.mem_singleton.mp isPiece
          exact fun isChar => isOther (List.mem_singleton.mp isChar).symm
        · rename_i head tail pieces
          rw [pieces] at inductionHypothesis
          rcases List.mem_cons.mp isPiece with rfl | inTail
          · exact fun isChar => (List.mem_cons.mp isChar).elim
              (fun same => isOther same.symm)
              (inductionHypothesis List.mem_cons_self)
          · exact inductionHypothesis (List.mem_cons_of_mem _ inTail)

/-- The first piece of a text is what stands before the first separator. -/
theorem head?_splitOn
    (separator : Char)
    (chars : List Char) :
    (splitOn separator chars).head? =
      some (chars.takeWhile (fun c => c != separator)) := by
  induction chars with
  | nil => rfl
  | cons c rest inductionHypothesis =>
      rw [splitOn]
      split
      · rename_i isSeparator
        simp [isSeparator]
      · rename_i isOther
        rw [List.takeWhile_cons_of_pos (by simpa using isOther)]
        cases pieces : splitOn separator rest with
        | nil => simp [pieces] at inductionHypothesis
        | cons piece more =>
            rw [pieces] at inductionHypothesis
            rw [← Option.some.inj inductionHypothesis]
            rfl

/-- A text without the separator is one piece. -/
theorem splitOn_of_not_mem
    {separator : Char}
    {chars : List Char}
    (isNone : separator ∉ chars) :
    splitOn separator chars = [chars] := by
  induction chars with
  | nil => rfl
  | cons c rest inductionHypothesis =>
      rw [List.mem_cons, not_or] at isNone
      rw [splitOn, if_neg (Ne.symm isNone.1), inductionHypothesis isNone.2]

/-- A text is cut behind a piece without the separator. -/
theorem splitOn_append
    {separator : Char}
    {piece : List Char}
    (isNone : separator ∉ piece)
    (rest : List Char) :
    splitOn separator (piece ++ separator :: rest) =
      piece :: splitOn separator rest := by
  induction piece with
  | nil => rw [List.nil_append, splitOn, if_pos rfl]
  | cons c piece inductionHypothesis =>
      rw [List.mem_cons, not_or] at isNone
      rw [List.cons_append, splitOn, if_neg (Ne.symm isNone.1),
        inductionHypothesis isNone.2]

/-- The last piece is empty when the text is, or ends with the separator. -/
theorem getLast?_splitOn_eq_nil_iff
    {separator : Char}
    {chars : List Char} :
    (splitOn separator chars).getLast? = some [] ↔
      chars = [] ∨ chars.getLast? = some separator := by
  induction isSize : chars.length using
    Nat.strong_induction_on generalizing chars with
  | h size inductionHypothesis =>
      by_cases isThere : separator ∈ chars
      · obtain ⟨piece, rest, rfl, isNone⟩ := List.eq_append_cons_of_mem isThere
        have shorter : rest.length < size := by
          rw [← isSize, List.length_append, List.length_cons]
          omega
        rw [splitOn_append isNone,
          List.getLast?_cons_of_ne_nil (splitOn_ne_nil separator rest),
          inductionHypothesis _ shorter rfl]
        cases rest <;> simp
      · rw [splitOn_of_not_mem isThere]
        have endsOtherwise : chars.getLast? ≠ some separator :=
          fun isLast => isThere (List.mem_of_getLast? isLast)
        simp [endsOtherwise]

/-- A text without commas is not cut. -/
theorem splitAtDepthZero_of_not_mem
    {chars : List Char}
    (noComma : ',' ∉ chars)
    (next : Int → Char → Int)
    (depth : Int) :
    splitAtDepthZero next depth chars = [chars] := by
  induction chars generalizing depth with
  | nil => rfl
  | cons c rest inductionHypothesis =>
      rw [List.mem_cons, not_or] at noComma
      rw [splitAtDepthZero, if_neg (fun isCut => noComma.1 isCut.1.symm),
        inductionHypothesis noComma.2]

theorem splitAtDepthZero_ne_nil
    (next : Int → Char → Int)
    (depth : Int)
    (chars : List Char) :
    splitAtDepthZero next depth chars ≠ [] := by
  cases chars with
  | nil => exact List.cons_ne_nil _ _
  | cons c rest =>
      rw [splitAtDepthZero]
      split
      · exact List.cons_ne_nil _ _
      · split
        · exact List.cons_ne_nil _ _
        · exact List.cons_ne_nil _ _

/-- A character that is no cut begins the first piece of the text behind it. -/
theorem exists_splitAtDepthZero_cons
    (next : Int → Char → Int)
    {depth : Int}
    {c : Char}
    (notCut : ¬ (c = ',' ∧ depth = 0))
    (rest : List Char) :
    ∃ piece pieces,
      splitAtDepthZero next (next depth c) rest = piece :: pieces ∧
        splitAtDepthZero next depth (c :: rest) = (c :: piece) :: pieces := by
  obtain ⟨piece, pieces, isSplit⟩ :=
    List.exists_cons_of_ne_nil (splitAtDepthZero_ne_nil next (next depth c) rest)
  refine ⟨piece, pieces, isSplit, ?_⟩
  rw [splitAtDepthZero, if_neg notCut, isSplit]

/-- Whatever a scanner takes anywhere is found by a scan at some place. -/
theorem exists_scan_of_mem_findAllFrom
    {α : Type}
    {scan : Option Char → List Char → Option (α × List Char)}
    {passed chars : List Char}
    {found : Match α}
    (isFound : found ∈ findAllFrom scan passed chars) :
    ∃ previous front after, scan previous front = some (found.found, after) := by
  fun_induction findAllFrom scan passed chars with
  | case1 => cases isFound
  | case2 passed c rest one after isTaken shorter taken inductionHypothesis =>
      rcases List.mem_cons.mp isFound with rfl | inRest
      · exact ⟨_, _, _, isTaken⟩
      · exact inductionHypothesis inRest
  | case3 passed c rest one after isTaken notShorter inductionHypothesis =>
      exact inductionHypothesis isFound
  | case4 passed c rest declined inductionHypothesis =>
      exact inductionHypothesis isFound

/--
Whatever a scanner takes in a text is found by a scan at its place in the text.
-/
theorem exists_place_of_mem_findAllFrom
    {α : Type}
    {scan : Option Char → List Char → Option (α × List Char)}
    (leavesSuffix : ∀ {previous chars one after},
      scan previous chars = some (one, after) → after <:+ chars)
    {passed chars : List Char}
    {found : Match α}
    (isFound : found ∈ findAllFrom scan passed chars) :
    ∃ previous front,
      scan previous front = some (found.found, found.after) ∧
        passed.reverse ++ chars = found.before ++ front := by
  fun_induction findAllFrom scan passed chars with
  | case1 => cases isFound
  | case2 passed c rest one after isTaken shorter taken inductionHypothesis =>
      rcases List.mem_cons.mp isFound with rfl | inRest
      · exact ⟨_, _, isTaken, rfl⟩
      · obtain ⟨previous, front, isScanned, shape⟩ := inductionHypothesis inRest
        refine ⟨previous, front, isScanned, ?_⟩
        have isWhole : taken ++ after = c :: rest :=
          List.suffix_iff_eq_append.mp (leavesSuffix isTaken)
        rw [← shape, List.reverse_append, List.reverse_reverse, List.append_assoc,
          isWhole]
  | case3 passed c rest one after isTaken notShorter inductionHypothesis =>
      obtain ⟨previous, front, isScanned, shape⟩ := inductionHypothesis isFound
      exact ⟨previous, front, isScanned, by simpa using shape⟩
  | case4 passed c rest declined inductionHypothesis =>
      obtain ⟨previous, front, isScanned, shape⟩ := inductionHypothesis isFound
      exact ⟨previous, front, isScanned, by simpa using shape⟩

/--
Matches stand one behind the other, and none of them in the text
already searched.
-/
theorem pairwise_findAllFrom
    {α : Type}
    (scan : Option Char → List Char → Option (α × List Char))
    (passed chars : List Char) :
    (findAllFrom scan passed chars).Pairwise
        (fun first second => first.before.length < second.before.length) ∧
      ∀ found ∈ findAllFrom scan passed chars,
        passed.length ≤ found.before.length := by
  fun_induction findAllFrom scan passed chars with
  | case1 => simp
  | case2 passed c rest one after isTaken shorter taken inductionHypothesis =>
      obtain ⟨restAscends, restBehind⟩ := inductionHypothesis
      -- Something is taken, so that the next match begins further behind.
      have isSome : 0 < taken.length := by
        simp only [taken, List.length_take, List.length_cons]
        omega
      have furtherBehind :
          ∀ found ∈ findAllFrom scan (taken.reverse ++ passed) after,
            passed.length < found.before.length := by
        intro found isFound
        have isBehind := restBehind found isFound
        rw [List.length_append, List.length_reverse] at isBehind
        omega
      constructor
      · refine List.pairwise_cons.mpr ⟨fun found isFound => ?_, restAscends⟩
        simpa using furtherBehind found isFound
      · refine List.forall_mem_cons.mpr ⟨by simp, fun found isFound => ?_⟩
        exact Nat.le_of_lt (furtherBehind found isFound)
  | case3 passed c rest one after isTaken notShorter inductionHypothesis =>
      exact ⟨inductionHypothesis.1, fun found isFound =>
        Nat.le_of_succ_le (inductionHypothesis.2 found isFound)⟩
  | case4 passed c rest declined inductionHypothesis =>
      exact ⟨inductionHypothesis.1, fun found isFound =>
        Nat.le_of_succ_le (inductionHypothesis.2 found isFound)⟩

/-- What a scanner takes in a text, without its places. -/
def foundIn
    {α : Type}
    (scan : List Char → Option (α × List Char))
    (chars : List Char) : List α :=
  (findAll scan chars).map Match.found

section Finding

variable {α : Type} {scan : List Char → Option (α × List Char)}

/-- What a scanner takes does not depend on the text before it. -/
theorem map_found_findAllFrom
    (scan : List Char → Option (α × List Char))
    (passed chars : List Char) :
    (findAllFrom (fun _ rest => scan rest) passed chars).map Match.found =
      foundIn scan chars := by
  induction isSize : chars.length using
    Nat.strong_induction_on generalizing passed chars with
  | h size inductionHypothesis =>
      rw [foundIn, findAll]
      cases chars with
      | nil => rw [findAllFrom, findAllFrom]
      | cons c rest =>
          have later (before other : List Char) (after : List Char)
              (shorter : after.length ≤ rest.length) :
                  (findAllFrom (fun _ left => scan left) before after).map
                    Match.found =
                      (findAllFrom (fun _ left => scan left) other after).map
                        Match.found := by
            have isLess : after.length < size := by
              rw [← isSize, List.length_cons]
              omega
            rw [inductionHypothesis _ isLess _ _ rfl,
              inductionHypothesis _ isLess _ _ rfl]
          rw [findAllFrom, findAllFrom]
          split
          · split
            · rename_i shorter
              rw [List.map_cons, List.map_cons, later _ _ _ shorter]
            · exact later _ _ _ (Nat.le_refl _)
          · exact later _ _ _ (Nat.le_refl _)

@[simp] theorem foundIn_nil :
    foundIn scan [] = [] := by
  rw [foundIn, findAll, findAllFrom]
  rfl

/-- Where nothing is taken, the search goes on with the next character. -/
theorem foundIn_cons
    {c : Char}
    {rest : List Char}
    (declined : scan (c :: rest) = none) :
    foundIn scan (c :: rest) = foundIn scan rest := by
  rw [foundIn, findAll, findAllFrom, declined]
  exact map_found_findAllFrom scan _ rest

/-- Where something is taken, the search goes on behind it. -/
theorem foundIn_of_taken
    {chars after : List Char}
    {found : α}
    (taken : scan chars = some (found, after))
    (shorter : after.length < chars.length) :
    foundIn scan chars = found :: foundIn scan after := by
  cases chars with
  | nil => cases shorter
  | cons c rest =>
      rw [List.length_cons, Nat.lt_succ_iff] at shorter
      rw [foundIn, findAll, findAllFrom, taken]
      simp only [if_pos shorter, List.map_cons]
      rw [map_found_findAllFrom]

/-- The first that a search takes is the first that is found. -/
theorem map_findFirst
    (shortens : ∀ chars found, scan chars = some found →
      found.2.length < chars.length)
    (chars : List Char) :
    (findFirst scan chars).map (fun found => found.2.1) =
      (foundIn scan chars).head? := by
  induction chars with
  | nil =>
      rw [foundIn_nil]
      rfl
  | cons c rest inductionHypothesis =>
      rw [findFirst]
      cases taken : scan (c :: rest) with
      | some found =>
          rw [foundIn_of_taken taken (shortens _ _ taken)]
          rfl
      | none =>
          rw [foundIn_cons taken, ← inductionHypothesis]
          cases findFirst scan rest <;> rfl

/--
Where a scanner declines at each place of a text, the search goes on
behind the text.
-/
theorem findFirst_append
    {front : List Char}
    (rest : List Char)
    (declined : ∀ chars, chars ≠ [] → chars <:+ front →
      scan (chars ++ rest) = none) :
    findFirst scan (front ++ rest) =
      (findFirst scan rest).map (fun found => (front ++ found.1, found.2)) := by
  induction front with
  | nil => exact Option.map_id'.symm
  | cons c front inductionHypothesis =>
      rw [List.cons_append, findFirst, ← List.cons_append,
        declined (c :: front) (List.cons_ne_nil _ _) (List.suffix_refl _),
        inductionHypothesis fun chars isThere isEnd =>
          declined chars isThere (isEnd.trans (List.suffix_cons c front))]
      cases findFirst scan rest <;> rfl

/-- Where nothing is found, the scanner declined at each place. -/
theorem eq_none_of_findFirst
    {chars suffix : List Char}
    (isNone : findFirst scan chars = none)
    (isThere : suffix ≠ [])
    (isEnd : suffix <:+ chars) :
    scan suffix = none := by
  induction chars with
  | nil => exact absurd (List.suffix_nil.mp isEnd) isThere
  | cons c rest inductionHypothesis =>
      rw [findFirst] at isNone
      cases taken : scan (c :: rest) with
      | some found =>
          rw [taken] at isNone
          cases isNone
      | none =>
          rw [taken, Option.map_eq_none_iff] at isNone
          rcases List.suffix_cons_iff.mp isEnd with rfl | isLater
          · exact taken
          · exact inductionHypothesis isNone isLater

end Finding

/-- Joined texts are the first one and the others, each behind a separator. -/
theorem toList_joinWith_cons
    (separator first : String)
    (rest : List String) :
    (joinWith separator (first :: rest)).toList =
      first.toList ++
        rest.flatMap (fun text => separator.toList ++ text.toList) := by
  rw [joinWith, String.toList_intercalate]
  induction rest generalizing first with
  | nil => simp
  | cons second rest inductionHypothesis =>
      simp only [List.map_cons] at *
      rw [List.intercalate_cons_cons, inductionHypothesis]
      simp

end DesignTokens.Text
