import DesignTokens.Proofs.Wire.Texts

namespace DesignTokens.Wire

/-!
# Values on one line

What is written on one line tells the value, up to doubles of one shortest
text: where a value ends can be seen from its own marks and from those behind
it, so no two values can share a line.  With the members of objects in
alphabetical order, two values have the same line exactly when they are alike.
-/

section Layout

/-- A member as it stands in a line. -/
def memberLine (member : String × Wire) : String :=
  Writer.text member.1 ++ ": " ++ member.2.toLine

mutual

/-- On one line, the depth of a value does not matter. -/
theorem value_line (depth : Nat) :
    (value : Wire) → Writer.value .line depth value = value.toLine
  | .null => rfl
  | .bool _ => rfl
  | .int _ => rfl
  | .float _ => rfl
  | .str _ => rfl
  | .list items => by
      rw [toLine, Writer.value, Writer.value, items_line, items_line]
      rfl
  | .obj members => by
      rw [toLine, Writer.value, Writer.value, members_line, members_line]
      rfl

theorem items_line (depth : Nat) : (items : List Wire) →
    Writer.items .line depth items = items.map toLine
  | [] => rfl
  | item :: rest => by
      rw [Writer.items, value_line, items_line, List.map_cons]

theorem members_line (depth : Nat) : (members : List (String × Wire)) →
    Writer.members .line depth members = members.map memberLine
  | [] => rfl
  | (name, value) :: rest => by
      rw [Writer.members, value_line, members_line, List.map_cons, memberLine]

end

theorem toLine_list
    (items : List Wire) :
    (Wire.list items).toLine =
      Writer.enclose .line 0 "[" "]" (items.map toLine) := by
  rw [toLine, Writer.value, items_line]

theorem toLine_obj
    (members : List (String × Wire)) :
    (Wire.obj members).toLine =
      Writer.enclose .line 0 "\x7b" "\x7d" (members.map memberLine) := by
  rw [toLine, Writer.value, members_line]

/-- Parts between marks, with a comma and a space between two of them. -/
theorem toList_enclose
    (opening closing : String)
    (parts : List String) :
    (Writer.enclose .line 0 opening closing parts).toList =
      opening.toList ++
        ([',', ' '].intercalate (parts.map String.toList) ++ closing.toList) := by
  unfold Writer.enclose
  split
  · rename_i isEmpty
    obtain rfl := List.isEmpty_iff.mp isEmpty
    simp
  · simp [Writer.Layout.line, String.toList_intercalate]

/-- A member as it stands in a line. -/
def memberChars (member : String × Wire) : List Char :=
  (memberLine member).toList

theorem chars_list
    (items : List Wire) :
    chars (.list items) =
      '[' :: ([',', ' '].intercalate (items.map chars) ++ [']']) := by
  rw [chars, toLine_list, toList_enclose, List.map_map]
  rfl

theorem chars_obj
    (members : List (String × Wire)) :
    chars (.obj members) =
      '\x7b' :: ([',', ' '].intercalate (members.map memberChars) ++ ['\x7d']) := by
  rw [chars, toLine_obj, toList_enclose, List.map_map]
  rfl

theorem memberChars_eq
    (member : String × Wire) :
    memberChars member =
      (Writer.text member.1).toList ++ ':' :: ' ' :: member.2.chars := by
  simp [memberChars, memberLine, chars]

end Layout

section Boundaries

/-- Nothing follows, or a mark that ends a value. -/
def AtBoundary (rest : List Char) : Prop :=
  ∀ mark ∈ rest.head?, mark = ',' ∨ mark = ']' ∨ mark = '\x7d'

theorem takeWhile_word
    {word rest : List Char}
    (ofWord : ∀ c ∈ word, isWordChar c = true)
    (ended : AtBoundary rest) :
    (word ++ rest).takeWhile isWordChar = word := by
  rw [List.takeWhile_append_of_pos ofWord]
  cases rest with
  | nil => simp
  | cons mark behind =>
      have noWord : isWordChar mark = false := by
        rcases ended mark rfl with rfl | rfl | rfl
        all_goals decide
      simp [noWord]

/--
What begins with a word and goes on with a boundary tells the word
and what follows.
-/
theorem word_append_inj
    {word other rest more : List Char}
    (ofWord : ∀ c ∈ word, isWordChar c = true)
    (ofOther : ∀ c ∈ other, isWordChar c = true)
    (ended : AtBoundary rest)
    (otherEnded : AtBoundary more)
    (same : word ++ rest = other ++ more) :
    word = other ∧ rest = more := by
  have sameWord : word = other := by
    rw [← takeWhile_word ofWord ended, same, takeWhile_word ofOther otherEnded]
  subst sameWord
  exact ⟨rfl, List.append_cancel_left same⟩

/-- A value begins with its mark, or with a character of its word. -/
theorem exists_head
    (value : Wire) :
    ∃ first chars,
      value.chars = first :: chars ∧
        value.mark? = if isWordChar first then none else some first := by
  cases marked : value.mark? with
  | none =>
      obtain ⟨nonempty, ofWord⟩ := word_chars marked
      obtain ⟨first, chars, isLine⟩ := List.exists_cons_of_ne_nil nonempty
      refine ⟨first, chars, isLine, ?_⟩
      rw [ofWord first (by simp [isLine]), if_pos rfl]
  | some mark =>
      cases value with
      | str content =>
          obtain rfl := Option.some.inj marked
          exact ⟨'"', _, Writer.toList_text content, rfl⟩
      | list items =>
          obtain rfl := Option.some.inj marked
          exact ⟨'[', _, chars_list items, rfl⟩
      | obj members =>
          obtain rfl := Option.some.inj marked
          exact ⟨'\x7b', _, chars_obj members, rfl⟩
      | _ => cases marked

/-- Values that share a line begin with the same mark. -/
theorem mark?_eq_of_append_eq
    {left right : Wire}
    {rest more : List Char}
    (same : left.chars ++ rest = right.chars ++ more) :
    left.mark? = right.mark? := by
  obtain ⟨first, chars, isLeft, leftMark⟩ := exists_head left
  obtain ⟨other, others, isRight, rightMark⟩ := exists_head right
  rw [isLeft, isRight] at same
  rw [leftMark, rightMark, List.head_eq_of_cons_eq same]

/-- No value begins with a mark that ends one. -/
theorem not_atBoundary_chars
    (value : Wire)
    (rest : List Char) :
    ¬ AtBoundary (value.chars ++ rest) := by
  obtain ⟨first, chars, isLine, marked⟩ := exists_head value
  intro ended
  rw [isLine] at ended
  rcases ended first rfl with rfl | rfl | rfl
  all_goals
    cases value <;> cases marked

/-- Parts, each behind a comma and a space. -/
def following (parts : List (List Char)) : List Char :=
  parts.flatMap ([',', ' '] ++ ·)

variable {α : Type} {spell : α → List Char} {Related : α → α → Prop}
  {closing : Char}

theorem atBoundary_closing
    (closes : closing = ']' ∨ closing = '\x7d')
    (rest : List Char) :
    AtBoundary (closing :: rest) := by
  intro mark isMark
  obtain rfl := Option.some.inj isMark
  exact .inr closes

theorem atBoundary_following
    (closes : closing = ']' ∨ closing = '\x7d')
    (items : List α)
    (rest : List Char) :
    AtBoundary (following (items.map spell) ++ closing :: rest) := by
  cases items with
  | nil => exact atBoundary_closing closes rest
  | cons item items =>
      intro mark isMark
      obtain rfl := Option.some.inj isMark
      exact .inl rfl

/--
What begins with the text of an item tells a related item and what follows,
up to a boundary.
-/
def Told (spell : α → List Char) (Related : α → α → Prop) (item : α) : Prop :=
  ∀ other rest more,
    AtBoundary rest → AtBoundary more → spell item ++ rest = spell other ++ more →
      Related item other ∧ rest = more

/-- An item that is told is told in front of others and of the closing mark. -/
theorem Told.before_following
    (closes : closing = ']' ∨ closing = '\x7d')
    {item other : α}
    {items others : List α}
    {rest more : List Char}
    (told : Told spell Related item)
    (same :
      spell item ++ (following (items.map spell) ++ closing :: rest) =
        spell other ++ (following (others.map spell) ++ closing :: more)) :
    Related item other ∧
      following (items.map spell) ++ closing :: rest =
        following (others.map spell) ++ closing :: more :=
  told other _ _ (atBoundary_following closes items rest)
    (atBoundary_following closes others more)
    same

/-- Items that are told one by one are told by their text behind commas. -/
theorem following_append_inj
    (closes : closing = ']' ∨ closing = '\x7d')
    {left right : List α}
    (told : ∀ item ∈ left, Told spell Related item)
    {rest more : List Char}
    (same :
      following (left.map spell) ++ closing :: rest =
        following (right.map spell) ++ closing :: more) :
    List.Forall₂ Related left right ∧ rest = more := by
  have notComma : closing ≠ ',' := by
    rcases closes with rfl | rfl
    all_goals decide
  induction left generalizing right with
  | nil =>
      cases right with
      | nil => exact ⟨.nil, List.tail_eq_of_cons_eq same⟩
      | cons other others => exact absurd (List.head_eq_of_cons_eq same) notComma
  | cons item items inductionHypothesis =>
      cases right with
      | nil => exact absurd (List.head_eq_of_cons_eq same).symm notComma
      | cons other others =>
          have behindComma :
              spell item ++ (following (items.map spell) ++ closing :: rest) =
                spell other ++
                  (following (others.map spell) ++ closing :: more) := by
            simpa [following] using same
          obtain ⟨isTold, restTold⟩ := List.forall_mem_cons.mp told
          obtain ⟨related, sameBehind⟩ := isTold.before_following closes behindComma
          obtain ⟨restRelated, sameRest⟩ := inductionHypothesis restTold sameBehind
          exact ⟨.cons related restRelated, sameRest⟩

theorem intercalate_cons
    (first : List Char)
    (rest : List (List Char)) :
    [',', ' '].intercalate (first :: rest) = first ++ following rest := by
  induction rest generalizing first with
  | nil => simp [following]
  | cons second rest inductionHypothesis =>
      rw [List.intercalate_cons_cons, inductionHypothesis]
      simp [following]

theorem joined_cons
    (item : α)
    (items : List α)
    (behind : List Char) :
    [',', ' '].intercalate ((item :: items).map spell) ++ behind =
      spell item ++ (following (items.map spell) ++ behind) := by
  rw [List.map_cons, intercalate_cons, List.append_assoc]

/-- Items that are told one by one are told by their text up to the closing mark. -/
theorem joined_append_inj
    (closes : closing = ']' ∨ closing = '\x7d')
    (begins : ∀ item rest, ¬ AtBoundary (spell item ++ rest))
    {left right : List α}
    (told : ∀ item ∈ left, Told spell Related item)
    {rest more : List Char}
    (same :
      [',', ' '].intercalate (left.map spell) ++ closing :: rest =
        [',', ' '].intercalate (right.map spell) ++ closing :: more) :
    List.Forall₂ Related left right ∧ rest = more := by
  cases left with
  | nil =>
      cases right with
      | nil => exact ⟨.nil, List.tail_eq_of_cons_eq same⟩
      | cons other others =>
          have begun : closing :: rest =
              spell other ++ (following (others.map spell) ++ closing :: more) := by
            rw [← joined_cons]
            exact same
          exact absurd (begun ▸ atBoundary_closing closes rest) (begins other _)
  | cons item items =>
      cases right with
      | nil =>
          have begun :
              spell item ++ (following (items.map spell) ++ closing :: rest) =
                closing :: more := by
            rw [← joined_cons]
            exact same
          exact absurd (begun ▸ atBoundary_closing closes more) (begins item _)
      | cons other others =>
          rw [joined_cons, joined_cons] at same
          obtain ⟨isTold, restTold⟩ := List.forall_mem_cons.mp told
          obtain ⟨related, sameBehind⟩ := isTold.before_following closes same
          obtain ⟨restRelated, sameRest⟩ :=
            following_append_inj closes restTold sameBehind
          exact ⟨.cons related restRelated, sameRest⟩

end Boundaries

section Values

theorem not_atBoundary_memberChars
    (member : String × Wire)
    (rest : List Char) :
    ¬ AtBoundary (memberChars member ++ rest) := by
  rw [memberChars_eq, Writer.toList_text]
  intro ended
  exact absurd (ended '"' rfl) (by decide)

/-- Members of one name with like values. -/
def MemberAlike (left right : String × Wire) : Prop :=
  left.1 = right.1 ∧ left.2.Alike right.2

theorem ItemsAlike.of_forall₂
    {left right : List Wire}
    (related : List.Forall₂ Alike left right) :
    ItemsAlike left right := by
  induction related with
  | nil => exact .nil
  | cons first _ inductionHypothesis => exact .cons first inductionHypothesis

theorem MembersAlike.of_forall₂
    {left right : List (String × Wire)}
    (related : List.Forall₂ MemberAlike left right) :
    MembersAlike left right := by
  induction related with
  | nil => exact .nil
  | @cons first other _ _ alike _ inductionHypothesis =>
      obtain ⟨name, value⟩ := first
      obtain ⟨otherName, otherValue⟩ := other
      obtain ⟨rfl, valueAlike⟩ := alike
      exact .cons name valueAlike inductionHypothesis

/-- A word is told by what begins with it. -/
theorem told_of_noMark
    {value : Wire}
    (noMark : value.mark? = none) :
    Told chars Alike value := by
  intro other rest more ended otherEnded same
  have otherNoMark : other.mark? = none := by
    rw [← mark?_eq_of_append_eq same, noMark]
  obtain ⟨sameWord, sameRest⟩ :=
    word_append_inj (word_chars noMark).2 (word_chars otherNoMark).2 ended
      otherEnded same
  exact ⟨alike_of_same_word noMark otherNoMark (String.toList_injective sameWord),
    sameRest⟩

/-- A member is told by what begins with it when its value is. -/
theorem told_member
    {member : String × Wire}
    (told : Told chars Alike member.2) :
    Told memberChars MemberAlike member := by
  intro other rest more ended otherEnded same
  rw [memberChars_eq, memberChars_eq, List.append_assoc, List.append_assoc] at same
  obtain ⟨sameName, sameBehind⟩ := Writer.text_append_inj same
  have sameValue : member.2.chars ++ rest = other.2.chars ++ more :=
    List.tail_eq_of_cons_eq (List.tail_eq_of_cons_eq sameBehind)
  obtain ⟨alike, sameRest⟩ := told other.2 rest more ended otherEnded sameValue
  exact ⟨⟨sameName, alike⟩, sameRest⟩

mutual

/-- Every value is told by what begins with it. -/
theorem told_value : (value : Wire) → Told chars Alike value
  | .null => told_of_noMark rfl
  | .bool _ => told_of_noMark rfl
  | .int _ => told_of_noMark rfl
  | .float _ => told_of_noMark rfl
  | .str content => by
      intro other rest more _ _ same
      have sameMark := mark?_eq_of_append_eq same
      cases other with
      | str otherContent =>
          obtain ⟨rfl, sameRest⟩ := Writer.text_append_inj same
          exact ⟨.str content, sameRest⟩
      | _ => cases sameMark
  | .list items => by
      intro other rest more _ _ same
      have sameMark := mark?_eq_of_append_eq same
      cases other with
      | list others =>
          rw [chars_list, chars_list, List.cons_append, List.cons_append,
            List.append_assoc, List.append_assoc] at same
          obtain ⟨related, sameRest⟩ :=
            joined_append_inj (.inl rfl) not_atBoundary_chars (told_items items)
              (List.tail_eq_of_cons_eq same)
          exact ⟨.list (.of_forall₂ related), sameRest⟩
      | _ => cases sameMark
  | .obj members => by
      intro other rest more _ _ same
      have sameMark := mark?_eq_of_append_eq same
      cases other with
      | obj others =>
          rw [chars_obj, chars_obj, List.cons_append, List.cons_append,
            List.append_assoc, List.append_assoc] at same
          obtain ⟨related, sameRest⟩ :=
            joined_append_inj (.inr rfl) not_atBoundary_memberChars
              (told_members members) (List.tail_eq_of_cons_eq same)
          exact ⟨.obj (.of_forall₂ related), sameRest⟩
      | _ => cases sameMark

theorem told_items : (items : List Wire) → ∀ item ∈ items, Told chars Alike item
  | [] => List.forall_mem_nil _
  | item :: rest => List.forall_mem_cons.mpr ⟨told_value item, told_items rest⟩

theorem told_members : (members : List (String × Wire)) →
    ∀ member ∈ members, Told memberChars MemberAlike member
  | [] => List.forall_mem_nil _
  | (_, value) :: rest =>
      List.forall_mem_cons.mpr ⟨told_member (told_value value), told_members rest⟩

end

/-- Values with the same line are alike. -/
theorem alike_of_toLine_eq
    {left right : Wire}
    (same : left.toLine = right.toLine) :
    left.Alike right := by
  have noRest : AtBoundary [] := by simp [AtBoundary]
  refine (told_value left right [] [] noRest noRest ?_).1
  simp only [chars, same]

end Values

section Sorted

/--
A member by its name and the line of its value, the members of objects in order.
-/
def sortedLine (member : String × Wire) : String × String :=
  (member.1, member.2.sorted.toLine)

theorem sortedMembers_eq_map
    (members : List (String × Wire)) :
    sortedMembers members =
      members.map (fun member => (member.1, member.2.sorted)) := by
  induction members with
  | nil => rfl
  | cons member rest inductionHypothesis =>
      rw [sortedMembers, inductionHypothesis, List.map_cons]

theorem sortedItems_eq_map
    (items : List Wire) :
    sortedItems items = items.map sorted := by
  induction items with
  | nil => rfl
  | cons item rest inductionHypothesis =>
      rw [sortedItems, inductionHypothesis, List.map_cons]

/-- The line of a sorted list is made of the lines of its sorted items. -/
theorem toLine_sorted_list
    (items : List Wire) :
    (Wire.list items).sorted.toLine =
      Writer.enclose .line 0 "[" "]"
        (items.map (fun item => item.sorted.toLine)) := by
  rw [sorted, toLine_list, sortedItems_eq_map, List.map_map]
  rfl

/--
The line of a sorted object is made of its names and of the lines of
its sorted values.
-/
theorem toLine_sorted_obj
    (members : List (String × Wire)) :
    (Wire.obj members).sorted.toLine =
      Writer.enclose .line 0 "\x7b" "\x7d"
        (((members.map sortedLine).mergeSort byName).map
          (fun member => Writer.text member.1 ++ ": " ++ member.2)) := by
  have sortedByName :
      (members.map sortedLine).mergeSort byName =
        ((sortedMembers members).mergeSort byName).map
          (fun member => (member.1, member.2.toLine)) := by
    rw [map_mergeSort_byName, sortedMembers_eq_map, List.map_map]
    rfl
  rw [sorted_obj, toLine_obj, sortedByName, List.map_map]
  rfl

mutual

/-- Like values have the same line once their members are in order. -/
theorem Alike.toLine_sorted_eq {left right : Wire} :
    left.Alike right → left.sorted.toLine = right.sorted.toLine
  | .null => rfl
  | .bool _ => rfl
  | .int _ => rfl
  | .float sameText => float_eq_iff.mpr sameText
  | .str _ => rfl
  | .list items => by
      rw [toLine_sorted_list, toLine_sorted_list, items.map_toLine_sorted_eq]
  | .obj members => by
      rw [toLine_sorted_obj, toLine_sorted_obj,
        mergeSort_byName_eq_iff.mpr members.named_eq]

theorem ItemsAlike.map_toLine_sorted_eq {left right : List Wire} :
    ItemsAlike left right →
      left.map (fun item => item.sorted.toLine) =
        right.map (fun item => item.sorted.toLine)
  | .nil => rfl
  | .cons first rest => by
      rw [List.map_cons, List.map_cons, first.toLine_sorted_eq,
        rest.map_toLine_sorted_eq]

theorem MembersAlike.named_eq {left right : List (String × Wire)} :
    MembersAlike left right →
      ∀ name, named name (left.map sortedLine) = named name (right.map sortedLine)
  | .nil, _ => rfl
  | .cons sameName first rest, name => by
      rw [List.map_cons, List.map_cons, named_cons, named_cons, rest.named_eq name,
        sortedLine, sortedLine, first.toLine_sorted_eq]
  | .swap differ _, name => by
      simp only [List.map_cons, named_cons, sortedLine]
      split_ifs with isFirst isSecond
      · exact absurd (isFirst.trans isSecond.symm) differ
      all_goals rfl
  | .trans first second, name => (first.named_eq name).trans (second.named_eq name)

end

/--
With members in order, two values have the same line exactly
when they are alike.
-/
theorem toLine_sorted_eq_iff
    {left right : Wire} :
    left.sorted.toLine = right.sorted.toLine ↔ left.Alike right := by
  constructor
  · intro same
    exact ((alike_sorted left).trans (alike_of_toLine_eq same)).trans
      (alike_sorted right).symm
  · exact Alike.toLine_sorted_eq

end Sorted

end DesignTokens.Wire
