import DesignTokens.Proofs.Registry.Detection

namespace DesignTokens.Registry

/-!
# Falling back

Where no handler claims a context, detection falls back to another type.  For a
text this is always a registered one: the type of texts, or that of the handler
asked last.  For a design variable it is the type that stands for the declared
one, or else that of texts, whether or not texts are registered.
-/

/-! Building a registry. -/

/--
No tag is met twice when the tags are distinct, and apart from
those known already.
-/
theorem duplicate?_eq_none_iff
    {known : List String}
    {handlers : List Handler} :
    duplicate? known handlers = none ↔
      (∀ handler ∈ handlers, handler.tag ∉ known) ∧
        (handlers.map Handler.tag).Nodup := by
  induction handlers generalizing known with
  | nil => simp [duplicate?]
  | cons handler rest inductionHypothesis =>
      rw [duplicate?, List.forall_mem_cons, List.map_cons, List.nodup_cons]
      by_cases isKnown : handler.tag ∈ known
      · simp [isKnown]
      · have apart : (∀ other ∈ rest, other.tag ∉ handler.tag :: known) ↔
            handler.tag ∉ rest.map Handler.tag ∧
              ∀ other ∈ rest, other.tag ∉ known := by
          simp only [List.mem_cons, not_or, List.mem_map, not_exists, not_and]
          exact forall₂_and
        rw [if_neg (by simpa using isKnown), inductionHypothesis, apart, and_assoc]
        constructor
        · rintro ⟨isNew, unknown, distinct⟩
          exact ⟨⟨isKnown, unknown⟩, isNew, distinct⟩
        · rintro ⟨⟨_, unknown⟩, isNew, distinct⟩
          exact ⟨isNew, unknown, distinct⟩

/-- Handlers with distinct tags make up a registry. -/
theorem create_of_distinct
    {handlers : List Handler}
    (distinct : (handlers.map Handler.tag).Nodup) :
    create handlers = .ok ⟨handlers, byPriority handlers⟩ := by
  have noDuplicate : duplicate? [] handlers = none :=
    duplicate?_eq_none_iff.mpr ⟨by simp, distinct⟩
  rw [create, noDuplicate]

theorem mem_byPriority_iff
    {handlers : List Handler}
    {handler : Handler} :
    handler ∈ byPriority handlers ↔ handler ∈ handlers :=
  List.mem_mergeSort

/-- Each handler of a registry is found under its tag. -/
theorem get_tag_of_mem
    {registry : Registry}
    {handler : Handler}
    (distinct : (registry.registered.map Handler.tag).Nodup)
    (isHandler : handler ∈ registry.registered) :
    registry.get (.str handler.tag) = .ok handler := by
  rw [get, find?, find?_tag_of_mem distinct isHandler]

/-- A tag that is registered has a handler, and no other tag has one. -/
theorem exists_get_iff
    {registry : Registry}
    {tag : String} :
    (∃ handler, registry.get (.str tag) = .ok handler) ↔
      registry.has tag = true := by
  rw [get, has]
  cases registry.find? tag <;> simp

/-! Asking the handlers. -/

section Asking

variable {Context : Type} {claims : Handler → Context → Except Fault Bool}
  {context : Context}

/--
A handler cannot tell whether it claims the context, and all handlers
before it decline.
-/
def Falters (claims : Handler → Context → Except Fault Bool) (context : Context)
    (handlers : List Handler) : Prop :=
  MeetsFirst (fun handler => claims handler context = .ok false)
    (fun handler => ¬ Succeeds (claims handler context)) handlers

/-- The handlers come to a first claim, or to none, unless they falter. -/
theorem succeeds_firstClaim_iff
    {handlers : List Handler} :
    Succeeds (firstClaim claims context handlers) ↔
      ¬ Falters claims context handlers := by
  induction handlers with
  | nil => simp [firstClaim, Falters]
  | cons handler rest inductionHypothesis =>
      rw [succeeds_firstClaim_cons_iff, inductionHypothesis, Falters, Falters,
        meetsFirst_cons_iff, not_or, not_not]
      constructor
      · rintro (claimed | ⟨declined, restTell⟩)
        · refine ⟨⟨true, claimed⟩, ?_⟩
          rintro ⟨declined, _⟩
          cases claimed.symm.trans declined
        · exact ⟨⟨false, declined⟩, fun falters => restTell falters.2⟩
      · rintro ⟨⟨claimed, isAsked⟩, restTell⟩
        cases claimed with
        | true => exact .inl isAsked
        | false => exact .inr ⟨isAsked, fun falters => restTell ⟨isAsked, falters⟩⟩

end Asking

/-! The fallbacks. -/

/-- A type was detected, and there is a handler for it. -/
def Usable (registry : Registry) (detected : Except Fault String) : Prop :=
  ∃ tag handler, detected = .ok tag ∧ registry.get (.str tag) = .ok handler

theorem usable_ok_iff
    {registry : Registry}
    {tag : String} :
    registry.Usable (.ok tag) ↔ registry.has tag = true := by
  rw [← exists_get_iff, Usable]
  simp

/--
The tag that stands for the declared type of a variable; texts
stand for all others.
-/
def declaredFallback : Wire → String
  | .str name => (Wire.lookup? name nativeFallbacks).getD "string"
  | _ => "string"

/--
A variable falls back to the type that stands for its declared one, or to texts.
-/
theorem nativeFallback_of_isKey
    (registry : Registry)
    {resolvedType : Wire}
    (isKey : resolvedType.isKey = true) :
    registry.nativeFallback resolvedType =
      .ok (if registry.has (declaredFallback resolvedType) then
        declaredFallback resolvedType
        else "string") := by
  cases resolvedType with
  | str name => rfl
  | _ =>
      simp only [nativeFallback, isKey, if_true]
      rfl

/-- A declared type that is no key has no fallback. -/
theorem not_usable_nativeFallback
    {registry : Registry}
    {resolvedType : Wire}
    (noKey : ¬ resolvedType.isKey = true) :
    ¬ registry.Usable (registry.nativeFallback resolvedType) := by
  rintro ⟨tag, handler, isTag, _⟩
  cases resolvedType with
  | str name => exact noKey rfl
  | _ => simp [nativeFallback, noKey] at isTag

theorem usable_nativeFallback_iff
    {registry : Registry}
    {resolvedType : Wire} :
    registry.Usable (registry.nativeFallback resolvedType) ↔
      resolvedType.isKey = true ∧
        (registry.has (declaredFallback resolvedType) = true ∨
          registry.has "string" = true) := by
  by_cases isKey : resolvedType.isKey = true
  · rw [nativeFallback_of_isKey registry isKey, usable_ok_iff]
    by_cases isRegistered : registry.has (declaredFallback resolvedType) = true
    · simp [isKey, isRegistered]
    · simp [isKey, isRegistered]
  · exact iff_of_false (not_usable_nativeFallback isKey)
      (fun usable => isKey usable.1)

section Detecting

variable {handlers : List Handler}

/--
The text that no handler claims is a text, or belongs to the handler asked last.
-/
theorem usable_compactFallback
    (nonempty : handlers ≠ [])
    (distinct : (handlers.map Handler.tag).Nodup) :
    Usable ⟨handlers, byPriority handlers⟩
      (compactFallback ⟨handlers, byPriority handlers⟩) := by
  unfold compactFallback
  split
  · rename_i isRegistered
    exact usable_ok_iff.mpr isRegistered
  · have isAsked : byPriority handlers ≠ [] := by
      obtain ⟨handler, isHandler⟩ := List.exists_mem_of_ne_nil handlers nonempty
      exact List.ne_nil_of_mem (mem_byPriority_iff.mpr isHandler)
    have isLast := List.getLast?_eq_some_getLast isAsked
    have isHandler := mem_byPriority_iff.mp (List.getLast_mem isAsked)
    simp only [isLast]
    exact ⟨_, _, rfl, get_tag_of_mem distinct isHandler⟩

/-- The type of a first claim is that of a registered handler. -/
theorem usable_of_firstClaim
    {Context : Type}
    {claims : Handler → Context → Except Fault Bool}
    {context : Context}
    {tag : String}
    (distinct : (handlers.map Handler.tag).Nodup)
    (isFirst : firstClaim claims context (byPriority handlers) = .ok (some tag)) :
    Usable ⟨handlers, byPriority handlers⟩ (.ok tag) := by
  obtain ⟨handler, isAsked, rfl, _⟩ := exists_of_firstClaim isFirst
  exact ⟨_, handler, rfl, get_tag_of_mem distinct (mem_byPriority_iff.mp isAsked)⟩

/--
Detecting the type of a text ends with a registered one, unless the
handlers falter.
-/
theorem usable_detectCompact_iff
    (nonempty : handlers ≠ [])
    (distinct : (handlers.map Handler.tag).Nodup)
    {context : CompactContext} :
    Usable ⟨handlers, byPriority handlers⟩
        (detectCompact ⟨handlers, byPriority handlers⟩ context) ↔
      ¬ Falters Handler.detectCompact context (byPriority handlers) := by
  rw [← succeeds_firstClaim_iff]
  constructor
  · rintro ⟨tag, _, detected, _⟩
    obtain ⟨tag?, isFirst, _⟩ := bind_eq_ok_iff.mp detected
    exact ⟨tag?, isFirst⟩
  · rintro ⟨tag?, isFirst⟩
    rw [detectCompact, isFirst, ok_bind]
    cases tag? with
    | some tag => exact usable_of_firstClaim distinct isFirst
    | none => exact usable_compactFallback nonempty distinct

/--
Detecting the type of a design variable ends with a registered one when the
handlers do not falter and one of them claims the variable, or there is a
registered type to fall back to.
-/
theorem usable_detectNative_iff
    (distinct : (handlers.map Handler.tag).Nodup)
    {context : NativeContext} :
    Usable ⟨handlers, byPriority handlers⟩
        (detectNative ⟨handlers, byPriority handlers⟩ context) ↔
      ¬ Falters Handler.detectNative context (byPriority handlers) ∧
        ((∃ handler ∈ handlers, handler.detectNative context = .ok true) ∨
          (context.resolvedType.isKey = true ∧
            (has ⟨handlers, byPriority handlers⟩
              (declaredFallback context.resolvedType) = true ∨
              has ⟨handlers, byPriority handlers⟩ "string" = true))) := by
  rw [← succeeds_firstClaim_iff, ← usable_nativeFallback_iff]
  constructor
  · rintro ⟨tag, handler, detected, isRegistered⟩
    obtain ⟨tag?, isFirst, chosen⟩ := bind_eq_ok_iff.mp detected
    refine ⟨⟨tag?, isFirst⟩, ?_⟩
    cases tag? with
    | some first =>
        obtain ⟨claiming, isAsked, _, claimed⟩ := exists_of_firstClaim isFirst
        exact .inl ⟨claiming, mem_byPriority_iff.mp isAsked, claimed⟩
    | none => exact .inr ⟨tag, handler, chosen, isRegistered⟩
  · rintro ⟨⟨tag?, isFirst⟩, claimedOrFallback⟩
    rw [detectNative, isFirst, ok_bind]
    cases tag? with
    | some tag => exact usable_of_firstClaim distinct isFirst
    | none =>
        rcases claimedOrFallback with ⟨handler, isHandler, claimed⟩ | fallback
        · have declined :=
            declines_of_firstClaim_eq_none isFirst handler
              (mem_byPriority_iff.mpr isHandler)
          cases claimed.symm.trans declined
        · exact fallback

end Detecting

/--
Handlers with distinct tags, at least one, make up a registry.  It detects a
registered type for every text, unless a handler that is reached cannot tell
whether it claims the text.  For a design variable that no handler claims, the
type is a registered one only if the type that stands for the declared one is
registered, or that of texts.
-/
theorem detected_types_usable_iff
    {handlers : List Handler}
    (nonempty : handlers ≠ [])
    (distinct : (handlers.map Handler.tag).Nodup) :
    ∃ registry, create handlers = .ok registry ∧
      (∀ context : CompactContext,
        registry.Usable (registry.detectCompact context) ↔
          ¬ Falters Handler.detectCompact context registry.ordered) ∧
      ∀ context : NativeContext,
        registry.Usable (registry.detectNative context) ↔
          ¬ Falters Handler.detectNative context registry.ordered ∧
            ((∃ handler ∈ handlers, handler.detectNative context = .ok true) ∨
              (context.resolvedType.isKey = true ∧
                (registry.has (declaredFallback context.resolvedType) = true ∨
                  registry.has "string" = true))) := by
  refine ⟨⟨handlers, byPriority handlers⟩, create_of_distinct distinct, ?_, ?_⟩
  · exact fun context => usable_detectCompact_iff nonempty distinct
  · exact fun context => usable_detectNative_iff distinct

/--
With numbers and truth values alone, a text that neither claims is still
given one of them.
-/
theorem detected_types_usable_of_two :
    [Handler.boolean, Handler.number] ≠ [] ∧
      ([Handler.boolean, Handler.number].map Handler.tag).Nodup ∧
      ∃ registry, create [Handler.boolean, Handler.number] = .ok registry ∧
        registry.Usable (registry.detectCompact ⟨"label", "hello"⟩) ∧
        registry.Usable (registry.detectNative ⟨.str "FLOAT", [], "gap"⟩) := by
  have nonempty : [Handler.boolean, Handler.number] ≠ [] := by simp
  have distinct : ([Handler.boolean, Handler.number].map Handler.tag).Nodup :=
    by decide +kernel
  obtain ⟨registry, isCreated, compact, native⟩ :=
    detected_types_usable_iff nonempty distinct
  obtain rfl := Except.ok.inj ((create_of_distinct distinct).symm.trans isCreated)
  have canTell {Context : Type} {claims : Handler → Context → Except Fault Bool}
    {context : Context}
    (tells : ∀ handler ∈ [Handler.boolean, Handler.number],
      Succeeds (claims handler context)) :
          ¬ Falters claims context (byPriority [Handler.boolean, Handler.number]) :=
    succeeds_firstClaim_iff.mp
      (succeeds_firstClaim fun handler isAsked =>
        tells handler (mem_byPriority_iff.mp isAsked))
  refine ⟨nonempty, distinct, _, isCreated, (compact _).mpr (canTell ?_),
    (native _).mpr ⟨canTell ?_, .inl ⟨Handler.number, by simp, rfl⟩⟩⟩
  · simp [Handler.boolean, Handler.number]
  · simp [Handler.boolean, Handler.number]

/--
With colors alone, a number among the design variables falls back to texts,
which are unknown.
-/
theorem detectNative_unregistered :
    ∃ registry, create [Handler.color] = .ok registry ∧
      registry.detectNative ⟨.str "FLOAT", [], ""⟩ = .ok "string" ∧
      registry.get (.str "string") =
        .error (.problem (.unknownType (.str "string") ["color"])) := by
  refine ⟨⟨[Handler.color], byPriority [Handler.color]⟩,
    create_of_distinct (by simp), ?_, ?_⟩
  · rw [byPriority, List.mergeSort_singleton]
    rfl
  · rfl

end DesignTokens.Registry
