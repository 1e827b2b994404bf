import DesignTokens.Source.Basic

namespace DesignTokens

/-!
# Readings that succeed

A reading goes step by step and ends with the first fault.  When it succeeds,
every step of it has succeeded.  Whether it succeeds can be told step by step,
without the results.
-/

variable {α β ε : Type}

/-- A sequence of two steps succeeds when both do. -/
theorem bind_eq_ok_iff
    {first : Except ε α}
    {next : α → Except ε β}
    {result : β} :
    (first >>= next) = .ok result ↔
      ∃ middle, first = .ok middle ∧ next middle = .ok result := by
  cases first <;> simp [bind, Except.bind]

/-- A changed result comes from a result. -/
theorem map_eq_ok_iff
    {reading : Except ε α}
    {change : α → β}
    {result : β} :
    reading.map change = .ok result ↔
      ∃ original, reading = .ok original ∧ change original = result := by
  cases reading <;> simp [Except.map]

/-- A changed result does not do away with what kept a result from being read. -/
theorem map_eq_error_iff
    {reading : Except ε α}
    {change : α → β}
    {reason : ε} :
    reading.map change = .error reason ↔ reading = .error reason := by
  cases reading <;> simp [Except.map]

/-- A result that is there was read. -/
theorem eq_ok_of_toOption
    {reading : Except ε α}
    {result : α}
    (isThere : reading.toOption = some result) :
    reading = .ok result := by
  cases reading with
  | error reason => cases isThere
  | ok found => exact congrArg Except.ok (Option.some.inj isThere)

/-- A result that passes a check was read. -/
theorem exists_of_any_join
    {reading : Except ε (Option α)}
    {holds : α → Bool}
    (isThere : reading.toOption.join.any holds = true) :
    ∃ found, reading = .ok (some found) ∧ holds found = true := by
  obtain ⟨found, isFound, isHeld⟩ := (Option.any_eq_true _ _).mp isThere
  exact ⟨found, eq_ok_of_toOption (Option.join_eq_some_iff.mp isFound), isHeld⟩

/--
A step that can only end with a fault gives the same result where
problems are possible.
-/
theorem lift_eq_ok_iff
    {reading : Except Fault α}
    {result : α} :
    (liftM reading : Except Failure α) = .ok result ↔ reading = .ok result := by
  cases reading <;>
    simp [liftM, MonadLiftT.monadLift, MonadLift.monadLift, Failure.lift]

/-- A step that succeeds hands its result on. -/
@[simp] theorem ok_bind
    (middle : α)
    (next : α → Except ε β) :
    ((.ok middle : Except ε α) >>= next) = next middle :=
  rfl

/-- A step that succeeds also does so where problems are possible. -/
@[simp] theorem lift_ok
    (result : α) :
    (liftM (.ok result : Except Fault α) : Except Failure α) = .ok result :=
  rfl

/-- Returning a value succeeds with that value. -/
theorem pure_eq_ok_iff
    {value result : α} :
    (pure value : Except ε α) = .ok result ↔ value = result := by
  simp [pure, Except.pure]

/-- Every result of a list of readings comes from one of the items. -/
theorem exists_of_mem_mapM
    {items : List α}
    {read : α → Except ε β}
    {results : List β}
    {result : β}
    (succeeded : items.mapM read = .ok results)
    (isResult : result ∈ results) :
    ∃ item ∈ items, read item = .ok result := by
  induction items generalizing results with
  | nil =>
      obtain rfl : [] = results := by simpa [pure, Except.pure] using succeeded
      cases isResult
  | cons first rest inductionHypothesis =>
      rw [List.mapM_cons] at succeeded
      obtain ⟨firstResult, firstRead, afterFirst⟩ := bind_eq_ok_iff.mp succeeded
      obtain ⟨restResults, restRead, joined⟩ := bind_eq_ok_iff.mp afterFirst
      obtain rfl := pure_eq_ok_iff.mp joined
      rcases List.mem_cons.mp isResult with rfl | inRest
      · exact ⟨first, by simp, firstRead⟩
      · obtain ⟨item, isItem, itemRead⟩ := inductionHypothesis restRead inRest
        exact ⟨item, List.mem_cons_of_mem _ isItem, itemRead⟩

/--
What each result shows of its item, the list of results shows of
the list of items.
-/
theorem map_of_mapM
    {γ : Type}
    {items : List α}
    {read : α → Except ε β}
    {results : List β}
    {shown : β → γ}
    {held : α → γ}
    (succeeded : items.mapM read = .ok results)
    (each : ∀ item result, read item = .ok result → shown result = held item) :
    results.map shown = items.map held := by
  induction items generalizing results with
  | nil =>
      obtain rfl : [] = results := by simpa [pure, Except.pure] using succeeded
      rfl
  | cons first rest inductionHypothesis =>
      rw [List.mapM_cons] at succeeded
      obtain ⟨firstResult, firstRead, afterFirst⟩ := bind_eq_ok_iff.mp succeeded
      obtain ⟨restResults, restRead, joined⟩ := bind_eq_ok_iff.mp afterFirst
      obtain rfl := pure_eq_ok_iff.mp joined
      rw [List.map_cons, List.map_cons, each first firstResult firstRead,
        inductionHypothesis restRead]

/-- When every item can be written and read back, so can the list. -/
theorem mapM_roundTrip
    {write : α → Except ε β}
    {read : β → Except ε α}
    {items : List α}
    (each : ∀ item ∈ items, ∃ form, write item = .ok form ∧ read form = .ok item) :
    ∃ forms, items.mapM write = .ok forms ∧ forms.mapM read = .ok items := by
  induction items with
  | nil => exact ⟨[], rfl, rfl⟩
  | cons first rest inductionHypothesis =>
      obtain ⟨form, written, readBack⟩ := each first (by simp)
      obtain ⟨forms, restWritten, restRead⟩ :=
        inductionHypothesis
          (fun item isItem => each item (List.mem_cons_of_mem _ isItem))
      refine ⟨form :: forms, ?_, ?_⟩
      · rw [List.mapM_cons, written, restWritten]
        rfl
      · rw [List.mapM_cons, readBack, restRead]
        rfl

/-- When a list is written and read back, so is every item. -/
theorem exists_of_mapM_roundTrip
    {write : α → Except ε β}
    {read : β → Except ε α}
    {items : List α}
    {forms : List β}
    (written : items.mapM write = .ok forms)
    (readBack : forms.mapM read = .ok items)
    {item : α}
    (isItem : item ∈ items) :
    ∃ form, write item = .ok form ∧ read form = .ok item := by
  induction items generalizing forms with
  | nil => cases isItem
  | cons first rest inductionHypothesis =>
      rw [List.mapM_cons] at written
      obtain ⟨form, firstWritten, afterFirst⟩ := bind_eq_ok_iff.mp written
      obtain ⟨restForms, restWritten, joined⟩ := bind_eq_ok_iff.mp afterFirst
      obtain rfl := pure_eq_ok_iff.mp joined
      rw [List.mapM_cons] at readBack
      obtain ⟨firstBack, firstRead, afterRead⟩ := bind_eq_ok_iff.mp readBack
      obtain ⟨restBack, restRead, rejoined⟩ := bind_eq_ok_iff.mp afterRead
      cases pure_eq_ok_iff.mp rejoined
      rcases List.mem_cons.mp isItem with rfl | inRest
      · exact ⟨form, firstWritten, firstRead⟩
      · exact inductionHypothesis restWritten restRead inRest

/--
When the form of every item reads back as the item, so do the forms of a list.
-/
theorem mapM_map
    {form : α → β}
    {read : β → Except ε α}
    {items : List α}
    (each : ∀ item ∈ items, read (form item) = .ok item) :
    (items.map form).mapM read = .ok items := by
  induction items with
  | nil => rfl
  | cons first rest inductionHypothesis =>
      have restRead :=
        inductionHypothesis
          (fun item isItem => each item (List.mem_cons_of_mem _ isItem))
      rw [List.map_cons, List.mapM_cons, each first (by simp), restRead]
      rfl

/-- A list is read alike by two readings that agree on its items. -/
theorem mapM_congr
    {items : List α}
    {first second : α → Except ε β}
    (agree : ∀ item ∈ items, first item = second item) :
    items.mapM first = items.mapM second := by
  induction items with
  | nil => rfl
  | cons item rest inductionHypothesis =>
      obtain ⟨itemAgrees, restAgree⟩ := List.forall_mem_cons.mp agree
      rw [List.mapM_cons, List.mapM_cons, itemAgrees, inductionHypothesis restAgree]

/--
When each item is read as a known result, the list is read as the
list of the results.
-/
theorem mapM_eq_ok_map
    {items : List α}
    {read : α → Except ε β}
    {result : α → β}
    (each : ∀ item ∈ items, read item = .ok (result item)) :
    items.mapM read = .ok (items.map result) := by
  rw [mapM_congr each]
  exact List.mapM_pure

/--
A list that cannot be read has an item that cannot be read, for the same reason.
-/
theorem exists_of_mapM_eq_error
    {items : List α}
    {read : α → Except ε β}
    {reason : ε}
    (failed : items.mapM read = .error reason) :
    ∃ item ∈ items, read item = .error reason := by
  induction items with
  | nil => cases failed
  | cons first rest inductionHypothesis =>
      rw [List.mapM_cons] at failed
      cases firstRead : read first with
      | error firstReason =>
          rw [firstRead] at failed
          cases failed
          exact ⟨first, by simp, firstRead⟩
      | ok firstResult =>
          rw [firstRead, ok_bind] at failed
          cases restRead : rest.mapM read with
          | error restReason =>
              rw [restRead] at failed
              cases failed
              obtain ⟨item, isItem, itemRead⟩ := inductionHypothesis restRead
              exact ⟨item, List.mem_cons_of_mem _ isItem, itemRead⟩
          | ok restResults =>
              rw [restRead] at failed
              cases failed

/--
Steps that combine what is known with a reading of an item read all items first.
-/
theorem foldlM_eq_map_mapM
    {γ : Type}
    (items : List α)
    (read : α → Except ε β)
    (combine : γ → β → γ)
    (start : γ) :
    items.foldlM (fun known item => (read item).map (combine known)) start =
      (items.mapM read).map (fun results => results.foldl combine start) := by
  induction items generalizing start with
  | nil => rfl
  | cons first rest inductionHypothesis =>
      rw [List.foldlM_cons, List.mapM_cons]
      cases read first with
      | error reason => rfl
      | ok firstResult =>
          rw [ok_bind]
          show rest.foldlM _ (combine start firstResult) = _
          rw [inductionHypothesis]
          cases rest.mapM read <;> rfl

/-- A reading comes to a result and not to a fault. -/
def Succeeds (reading : Except ε α) : Prop :=
  ∃ result, reading = .ok result

@[simp] theorem succeeds_ok
    (result : α) :
    Succeeds (.ok result : Except ε α) :=
  ⟨result, rfl⟩

@[simp] theorem not_succeeds_error
    (fault : ε) :
    ¬ Succeeds (.error fault : Except ε α) := by
  rintro ⟨_, isResult⟩
  cases isResult

@[simp] theorem succeeds_pure
    (value : α) :
    Succeeds (pure value : Except ε α) :=
  ⟨value, rfl⟩

/--
A sequence of two steps succeeds when the first does and the second does
with its result.
-/
theorem succeeds_bind_iff
    {first : Except ε α}
    {next : α → Except ε β} :
    Succeeds (first >>= next) ↔
      ∃ middle, first = .ok middle ∧ Succeeds (next middle) := by
  cases first <;> simp [bind, Except.bind]

/-- A sequence whose second step always succeeds does so when the first does. -/
theorem succeeds_bind_of_total
    {first : Except ε α}
    {next : α → Except ε β}
    (total : ∀ middle, Succeeds (next middle)) :
    Succeeds (first >>= next) ↔ Succeeds first := by
  rw [succeeds_bind_iff]
  constructor
  · rintro ⟨middle, isFirst, _⟩
    exact ⟨middle, isFirst⟩
  · rintro ⟨middle, isFirst⟩
    exact ⟨middle, isFirst, total middle⟩

/--
A sequence that only changes the result of its first step
succeeds when that does.
-/
theorem succeeds_bind_pure_iff
    {first : Except ε α}
    {change : α → β} :
    Succeeds (first >>= fun middle => pure (change middle)) ↔ Succeeds first :=
  succeeds_bind_of_total (fun _ => succeeds_pure _)

/--
A sequence whose second step succeeds alike for every result of the
first needs both to.
-/
theorem succeeds_bind_iff_and
    {first : Except ε α}
    {next : α → Except ε β}
    {fits : Prop}
    (alike : ∀ middle, Succeeds (next middle) ↔ fits) :
    Succeeds (first >>= next) ↔ Succeeds first ∧ fits := by
  rw [succeeds_bind_iff]
  simp only [alike, exists_and_right]
  rfl

/-- Changing the result does not decide on success. -/
@[simp] theorem succeeds_map_iff
    {reading : Except ε α}
    {change : α → β} :
    Succeeds (reading.map change) ↔ Succeeds reading := by
  cases reading <;> simp [Except.map]

/--
A step that can only end with a fault succeeds where problems are possible
as it does alone.
-/
@[simp] theorem succeeds_lift_iff
    {reading : Except Fault α} :
    Succeeds (liftM reading : Except Failure α) ↔ Succeeds reading := by
  cases reading <;>
    simp [liftM, MonadLiftT.monadLift, MonadLift.monadLift, Failure.lift]

/-- A source is let through when nothing speaks against it. -/
theorem succeeds_accept_iff
    {source : String}
    {reasons : List String} :
    Succeeds (accept source reasons) ↔ reasons = [] := by
  cases reasons <;> simp [accept]

/-- A list is read when each of its items is. -/
theorem succeeds_mapM_iff
    {items : List α}
    {read : α → Except ε β} :
    Succeeds (items.mapM read) ↔ ∀ item ∈ items, Succeeds (read item) := by
  induction items with
  | nil => simp
  | cons first rest inductionHypothesis =>
      rw [List.mapM_cons, succeeds_bind_iff,
        List.forall_mem_cons, ← inductionHypothesis]
      simp only [succeeds_bind_pure_iff]
      constructor
      · rintro ⟨result, firstRead, restReads⟩
        exact ⟨⟨result, firstRead⟩, restReads⟩
      · rintro ⟨⟨result, firstRead⟩, restReads⟩
        exact ⟨result, firstRead, restReads⟩

/--
Steps that do not depend on what is known succeed one after the other when
each of them does.
-/
theorem succeeds_foldlM_iff
    {items : List α}
    {step : β → α → Except ε β}
    {fits : α → Prop}
    (each : ∀ known item, Succeeds (step known item) ↔ fits item)
    (start : β) :
    Succeeds (items.foldlM step start) ↔ ∀ item ∈ items, fits item := by
  induction items generalizing start with
  | nil => simp
  | cons first rest inductionHypothesis =>
      rw [List.foldlM_cons, succeeds_bind_iff,
        List.forall_mem_cons, ← each start first]
      constructor
      · rintro ⟨known, firstStep, restSteps⟩
        exact ⟨⟨known, firstStep⟩, (inductionHypothesis known).mp restSteps⟩
      · rintro ⟨⟨known, firstStep⟩, restFits⟩
        exact ⟨known, firstStep, (inductionHypothesis known).mpr restFits⟩

/-- Items are checked when each of them is. -/
theorem succeeds_forM_iff
    {items : List α}
    {check : α → Except ε PUnit} :
    Succeeds (items.forM check) ↔ ∀ item ∈ items, Succeeds (check item) := by
  induction items with
  | nil => simp
  | cons first rest inductionHypothesis =>
      rw [List.forall_mem_cons, ← inductionHypothesis]
      exact succeeds_bind_iff_and (fun _ => Iff.rfl)

/-- A reading that ends without a result does so for a reason of some kind. -/
def FailsOnly (isReason : ε → Prop) (reading : Except ε α) : Prop :=
  ∀ reason, reading = .error reason → isReason reason

section Failing

variable {isReason : ε → Prop}

@[simp] theorem failsOnly_ok
    (result : α) :
    FailsOnly isReason (.ok result : Except ε α) := by
  rintro reason ⟨⟩

@[simp] theorem failsOnly_pure
    (result : α) :
    FailsOnly isReason (pure result : Except ε α) :=
  failsOnly_ok result

@[simp] theorem failsOnly_error_iff
    {reason : ε} :
    FailsOnly isReason (.error reason : Except ε α) ↔ isReason reason :=
  ⟨fun fails => fails reason rfl,
    fun isOne _ isSame => Except.error.inj isSame ▸ isOne⟩

/--
Two steps fail for such a reason when the first one does, and the
second one behind it.
-/
theorem FailsOnly.bind
    {first : Except ε α}
    {next : α → Except ε β}
    (firstFails : FailsOnly isReason first)
    (nextFails : ∀ middle, first = .ok middle → FailsOnly isReason (next middle)) :
    FailsOnly isReason (first >>= next) := by
  cases first with
  | error reason => exact failsOnly_error_iff.mpr (firstFails reason rfl)
  | ok middle => exact nextFails middle rfl

theorem FailsOnly.map
    {reading : Except ε α}
    (fails : FailsOnly isReason reading)
    (change : α → β) :
    FailsOnly isReason (reading.map change) :=
  fun reason isError => fails reason (map_eq_error_iff.mp isError)

/-- A list of readings fails for such a reason when each of them does. -/
theorem failsOnly_mapM
    {items : List α}
    {read : α → Except ε β}
    (each : ∀ item ∈ items, FailsOnly isReason (read item)) :
    FailsOnly isReason (items.mapM read) := by
  intro reason failed
  obtain ⟨item, isItem, itemFailed⟩ := exists_of_mapM_eq_error failed
  exact each item isItem reason itemFailed

/-- A weaker kind of reasons is one that a reading fails for, too. -/
theorem FailsOnly.mono
    {reading : Except ε α}
    {isOther : ε → Prop}
    (fails : FailsOnly isReason reading)
    (isWeaker : ∀ reason, isReason reason → isOther reason) :
    FailsOnly isOther reading :=
  fun reason isError => isWeaker reason (fails reason isError)

end Failing

/--
A step that can only end with a fault fails for that fault where
problems are possible.
-/
theorem FailsOnly.lift
    {isFault : Fault → Prop}
    {isReason : Failure → Prop}
    {reading : Except Fault α}
    (fails : FailsOnly isFault reading)
    (isLifted : ∀ fault, isFault fault → isReason (.fault fault)) :
    FailsOnly isReason (liftM reading : Except Failure α) := by
  cases reading with
  | error fault => exact failsOnly_error_iff.mpr (isLifted fault (fails fault rfl))
  | ok result => exact failsOnly_ok result

/-- Some item meets a condition, and all items before it pass another one. -/
inductive MeetsFirst (Passes Meets : α → Prop) : List α → Prop where
  | here {item : α} {rest : List α} :
      Meets item →
      MeetsFirst Passes Meets (item :: rest)
  | later {item : α} {rest : List α} :
      Passes item →
      MeetsFirst Passes Meets rest →
      MeetsFirst Passes Meets (item :: rest)

@[simp] theorem not_meetsFirst_nil
    (Passes Meets : α → Prop) :
    ¬ MeetsFirst Passes Meets [] := by
  rintro ⟨⟩

theorem meetsFirst_cons_iff
    {Passes Meets : α → Prop}
    {item : α}
    {rest : List α} :
    MeetsFirst Passes Meets (item :: rest) ↔
      Meets item ∨ (Passes item ∧ MeetsFirst Passes Meets rest) := by
  constructor
  · rintro (isMet | ⟨passes, restMeets⟩)
    · exact .inl isMet
    · exact .inr ⟨passes, restMeets⟩
  · rintro (isMet | ⟨passes, restMeets⟩)
    · exact .here isMet
    · exact .later passes restMeets

theorem MeetsFirst.imp
    {Passes Meets Fits : α → Prop}
    {items : List α}
    (first : MeetsFirst Passes Meets items)
    (fits : ∀ item ∈ items, Meets item → Fits item) :
    MeetsFirst Passes Fits items := by
  induction first with
  | here isMet => exact .here (fits _ List.mem_cons_self isMet)
  | later passes _ inductionHypothesis =>
      refine .later passes (inductionHypothesis (fun item isLater => ?_))
      exact fits item (List.mem_cons_of_mem _ isLater)

theorem MeetsFirst.exists_met
    {Passes Meets : α → Prop}
    {items : List α}
    (first : MeetsFirst Passes Meets items) :
    ∃ item ∈ items, Meets item := by
  induction first with
  | here isMet => exact ⟨_, List.mem_cons_self, isMet⟩
  | later _ _ inductionHypothesis =>
      obtain ⟨item, isLater, isMet⟩ := inductionHypothesis
      exact ⟨item, List.mem_cons_of_mem _ isLater, isMet⟩

/--
The item is one of the first list, or all of that list pass and it is
one of the second.
-/
theorem meetsFirst_append_iff
    {Passes Meets : α → Prop}
    {first second : List α} :
    MeetsFirst Passes Meets (first ++ second) ↔
      MeetsFirst Passes Meets first ∨
        ((∀ item ∈ first, Passes item) ∧ MeetsFirst Passes Meets second) := by
  induction first with
  | nil => simp
  | cons item rest inductionHypothesis =>
      rw [List.cons_append, meetsFirst_cons_iff, meetsFirst_cons_iff,
        inductionHypothesis, List.forall_mem_cons, and_or_left, or_assoc, and_assoc]

/--
What every step with an item of the list keeps, the whole
sequence of steps keeps.
-/
theorem holds_of_foldlM_of_mem
    {items : List α}
    {step : β → α → Except ε β}
    {start result : β}
    {holds : β → Prop}
    (kept : ∀ item ∈ items, ∀ known next, step known item = .ok next → holds known →
      holds next)
    (isStart : holds start)
    (succeeded : items.foldlM step start = .ok result) : holds result := by
  induction items generalizing start with
  | nil =>
      obtain rfl := pure_eq_ok_iff.mp succeeded
      exact isStart
  | cons first rest inductionHypothesis =>
      rw [List.foldlM_cons] at succeeded
      obtain ⟨known, firstStep, restSteps⟩ := bind_eq_ok_iff.mp succeeded
      obtain ⟨firstKeeps, restKeep⟩ := List.forall_mem_cons.mp kept
      exact inductionHypothesis restKeep (firstKeeps start known firstStep isStart)
        restSteps

/-- What every step keeps, the whole sequence of steps keeps. -/
theorem holds_of_foldlM
    {items : List α}
    {step : β → α → Except ε β}
    {start result : β}
    {holds : β → Prop}
    (kept : ∀ known item next, step known item = .ok next → holds known →
      holds next)
    (isStart : holds start)
    (succeeded : items.foldlM step start = .ok result) :
    holds result :=
  holds_of_foldlM_of_mem (fun item _ known next => kept known item next) isStart
    succeeded

end DesignTokens
