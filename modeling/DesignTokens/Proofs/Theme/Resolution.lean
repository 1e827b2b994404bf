import DesignTokens.Proofs.Graph.Edge
import Mathlib.Data.List.Nodup

namespace DesignTokens

/-!
# Resolution follows the graph

Resolving a token takes the hops of the graph of the mode, one lazily found
token after the other.  It fails exactly when the walk from the target of the
token enters a cycle, and the chain it reports is the walk up to the first path
that comes again; otherwise the walk ends, and what the token stands for is the
value of the last token, if there is one.
-/

open Relation

namespace Theme

/-- No hop leads on from a key without a token. -/
theorem not_leadsTo_of_none
    {theme : Theme}
    {mode : Label}
    {key next : String}
    (isMissing : theme.find? key mode = none) :
    ¬ theme.LeadsTo mode key next := by
  rintro ⟨token, _, isThere, _, _⟩
  cases isMissing.symm.trans isThere

/-- No hop leads on from a key whose token is no reference. -/
theorem not_leadsTo_of_value
    {theme : Theme}
    {mode : Label}
    {key next : String}
    {found : Token}
    (isThere : theme.find? key mode = some found)
    (isValue : found.value.reference? = none) :
    ¬ theme.LeadsTo mode key next := by
  rintro ⟨token, reference, isToken, isReference, _⟩
  obtain rfl : found = token := Option.some.inj (isThere.symm.trans isToken)
  rw [isReference] at isValue
  cases isValue

/--
A walk that has passed the given chain without repetition either comes back to
one of its keys, which is the problem reported, or reaches an end, whose value
is the result.
-/
theorem resolveFrom_outcome
    {theme : Theme}
    {mode : Label}
    {chain : List String}
    {token : Token}
    {start : String}
    {reference : Reference}
    (isReference : token.value.reference? = some reference)
    (begins : (chain ++ [reference.path]).head? = some start)
    (follows : (chain ++ [reference.path]).IsChain (theme.LeadsTo mode))
    (distinct : chain.Nodup) :
    (∃ walk,
      FirstReturn (theme.LeadsTo mode) start walk ∧
        theme.resolveFrom mode chain token = .error (.circularReference walk)) ∨
    (∃ last,
      EndsAt (theme.LeadsTo mode) reference.path last ∧
        theme.resolveFrom mode chain token =
          .ok ((theme.find? last mode).map Token.value)) := by
  fun_induction Theme.resolveFrom theme mode chain token generalizing reference with
  | case1 chain token isValue =>
      cases isValue.symm.trans isReference
  | case2 chain token target isTarget isPassed =>
      obtain rfl : target = reference :=
        Option.some.inj (isTarget.symm.trans isReference)
      refine .inl ⟨chain ++ [target.path], ⟨begins, follows, ?_, ?_⟩, rfl⟩
      · simpa using distinct
      · simpa using isPassed
  | case3 chain token target isTarget isNew isMissing =>
      obtain rfl : target = reference :=
        Option.some.inj (isTarget.symm.trans isReference)
      refine .inr ⟨target.path, ⟨.refl, fun _ => not_leadsTo_of_none isMissing⟩, ?_⟩
      rw [isMissing]
      rfl
  | case4 chain token target isTarget isNew found isThere inductionHypothesis =>
      obtain rfl : target = reference :=
        Option.some.inj (isTarget.symm.trans isReference)
      cases isNext : found.value.reference? with
      | none =>
          refine .inr ⟨target.path,
            ⟨.refl, fun _ => not_leadsTo_of_value isThere isNext⟩, ?_⟩
          rw [isThere, resolveFrom, isNext]
          rfl
      | some next =>
          have hop : theme.LeadsTo mode target.path next.path :=
            ⟨found, next, isThere, TokenValue.reference?_eq_some.mp isNext, rfl⟩
          have nextBegins :
              (chain ++ [target.path] ++ [next.path]).head? = some start := by
            rw [List.head?_append, begins]
            rfl
          have nextFollows :
              (chain ++ [target.path] ++ [next.path]).IsChain
                (theme.LeadsTo mode) := by
            rw [List.append_assoc]
            exact List.isChain_split.mpr ⟨follows, .cons_cons hop (.singleton _)⟩
          have nextDistinct : (chain ++ [target.path]).Nodup := by
            rw [← List.concat_eq_append]
            exact distinct.concat (by simpa using isNew)
          rcases inductionHypothesis isNext nextBegins nextFollows nextDistinct with
            ⟨walk, returned, failed⟩ | ⟨last, ⟨reached, noHop⟩, succeeded⟩
          · exact .inl ⟨walk, returned, failed⟩
          · exact .inr ⟨last, ⟨reached.head hop, noHop⟩, succeeded⟩

/--
Resolving a reference is one of two things: a first return, or the
end of the walk.
-/
theorem resolve_outcome
    {theme : Theme}
    {mode : Label}
    {token : Token}
    {reference : Reference}
    (isReference : token.value = .reference reference) :
    (∃ walk,
      FirstReturn (theme.LeadsTo mode) reference.path walk ∧
        theme.resolve token mode = .error (.circularReference walk)) ∨
    (∃ last,
      EndsAt (theme.LeadsTo mode) reference.path last ∧
        theme.resolve token mode = .ok ((theme.find? last mode).map Token.value)) :=
  resolveFrom_outcome (TokenValue.reference?_eq_some.mpr isReference) rfl (by simp)
    (by simp)

/-- Resolving fails with a first return of the walk, and with nothing else. -/
theorem resolve_eq_error_iff
    {theme : Theme}
    {mode : Label}
    {token : Token}
    {reference : Reference}
    {problem : Problem}
    (isReference : token.value = .reference reference) :
    theme.resolve token mode = .error problem ↔
      ∃ walk,
        FirstReturn (theme.LeadsTo mode) reference.path walk ∧
          problem = .circularReference walk := by
  have unique := LeadsTo.unique theme mode
  rcases @resolve_outcome theme mode token reference isReference with
    ⟨walk, returned, failed⟩ | ⟨last, ends, succeeded⟩
  · rw [failed]
    constructor
    · rintro ⟨⟩
      exact ⟨walk, returned, rfl⟩
    · rintro ⟨other, otherReturned, rfl⟩
      rw [returned.unique unique otherReturned]
  · rw [succeeded]
    constructor
    · rintro ⟨⟩
    · rintro ⟨other, otherReturned, _⟩
      exact (otherReturned.entersCycle.not_endsAt unique ends).elim

/--
Resolving succeeds with what stands at the end of the walk, and
with nothing else.
-/
theorem resolve_eq_ok_iff
    {theme : Theme}
    {mode : Label}
    {token : Token}
    {reference : Reference}
    {value? : Option TokenValue}
    (isReference : token.value = .reference reference) :
    theme.resolve token mode = .ok value? ↔
      ∃ last,
        EndsAt (theme.LeadsTo mode) reference.path last ∧
          value? = (theme.find? last mode).map Token.value := by
  have unique := LeadsTo.unique theme mode
  rcases @resolve_outcome theme mode token reference isReference with
    ⟨walk, returned, failed⟩ | ⟨last, ends, succeeded⟩
  · rw [failed]
    constructor
    · rintro ⟨⟩
    · rintro ⟨last, ends, _⟩
      exact (returned.entersCycle.not_endsAt unique ends).elim
  · rw [succeeded]
    constructor
    · rintro ⟨⟩
      exact ⟨last, ends, rfl⟩
    · rintro ⟨other, otherEnds, rfl⟩
      rw [ends.unique unique otherEnds]

/-- Resolving fails exactly when the walk from the target enters a cycle. -/
theorem exists_resolve_error_iff
    {theme : Theme}
    {mode : Label}
    {token : Token}
    {reference : Reference}
    (isReference : token.value = .reference reference) :
    (∃ problem, theme.resolve token mode = .error problem) ↔
      EntersCycle (theme.LeadsTo mode) reference.path := by
  constructor
  · rintro ⟨problem, failed⟩
    obtain ⟨walk, returned, _⟩ := (resolve_eq_error_iff isReference).mp failed
    exact returned.entersCycle
  · intro enters
    rcases @resolve_outcome theme mode token reference isReference with
      ⟨walk, _, failed⟩ | ⟨last, ends, _⟩
    · exact ⟨_, failed⟩
    · exact (enters.not_endsAt (LeadsTo.unique theme mode) ends).elim

/--
The graph of a mode has one entry for each key whose token in that mode is a
reference, with its path as the only target, and resolution walks that graph
from the target of a token.  It fails exactly when the walk enters a cycle, with
the walk up to the first path that comes again; it succeeds with the value that
stands where the walk ends, if there is a token; a token that is no reference
stands for its own value.
-/
theorem resolve_walks_referenceGraph
    (theme : Theme)
    (mode : Label) :
    ((theme.referenceGraph mode).map Prod.fst).Nodup ∧
    (∀ key targets,
      Wire.lookup? key (theme.referenceGraph mode) = some targets ↔
        ∃ token reference,
          theme.find? key mode = some token ∧
            token.value = .reference reference ∧
            targets = [reference.path]) ∧
    (∀ token : Token,
      token.value.reference? = none →
        theme.resolve token mode = .ok (some token.value)) ∧
    (∀ (token : Token) (reference : Reference),
      token.value = .reference reference →
        ((∃ problem, theme.resolve token mode = .error problem) ↔
          EntersCycle (theme.referenceGraph mode).Edge reference.path) ∧
        (∀ problem,
          theme.resolve token mode = .error problem ↔
            ∃ walk,
              FirstReturn (theme.referenceGraph mode).Edge reference.path walk ∧
                problem = .circularReference walk) ∧
        (∀ value?,
          theme.resolve token mode = .ok value? ↔
            ∃ last,
              EndsAt (theme.referenceGraph mode).Edge reference.path last ∧
                value? = (theme.find? last mode).map Token.value)) := by
  have sameHops : (theme.referenceGraph mode).Edge = theme.LeadsTo mode := by
    funext source target
    exact propext edge_referenceGraph
  refine ⟨nodup_referenceGraph theme mode,
    fun _ _ => lookup?_referenceGraph, ?_, ?_⟩
  · intro token isValue
    rw [resolve, resolveFrom, isValue]
  · intro token reference isReference
    rw [sameHops]
    exact ⟨exists_resolve_error_iff isReference,
      fun _ => resolve_eq_error_iff isReference,
      fun _ => resolve_eq_ok_iff isReference⟩

/-- A color token that references a path. -/
def pointer (path : String) : Token :=
  .plain "color" (.reference ⟨path⟩)

/-- A way into two tokens that reference each other. -/
def tangle : Theme where
  name := .str "tangle"
  collections :=
    [ { name := .str "colors"
        modes := [.str "light"]
        defaultMode := .str "light"
        tokens :=
          [ (.str "light",
              [ ("entry", .token (pointer "first")),
                ("first", .token (pointer "second")),
                ("second", .token (pointer "first")) ]) ]
        description := .null } ]
  provenance? := none
  description := .null

/--
The walk into the tangle is reported up to the path at which it closes, and a
number stands for itself.
-/
theorem resolve_tangle :
    (pointer "entry").value = .reference ⟨"entry"⟩ ∧
      tangle.resolve (pointer "entry") .null =
        .error (.circularReference ["entry", "first", "second", "first"]) ∧
      (TokenValue.plain (.int 4)).reference? = none ∧
      tangle.resolve (.plain "number" (.plain (.int 4))) .null =
        .ok (some (.plain (.int 4))) := by
  obtain ⟨_, _, ownValue, walks⟩ := resolve_walks_referenceGraph tangle .null
  refine ⟨rfl, ?_, rfl, ownValue (.plain "number" (.plain (.int 4))) rfl⟩
  refine ((walks (pointer "entry") ⟨"entry"⟩ rfl).2.1 _).mpr
    ⟨_, ⟨rfl, ?_, by decide, by simp⟩, rfl⟩
  have entryHop : (tangle.referenceGraph .null).Edge "entry" "first" :=
    ⟨["first"], rfl, by simp⟩
  have firstHop : (tangle.referenceGraph .null).Edge "first" "second" :=
    ⟨["second"], rfl, by simp⟩
  have secondHop : (tangle.referenceGraph .null).Edge "second" "first" :=
    ⟨["first"], rfl, by simp⟩
  simp [entryHop, firstHop, secondHop]

end Theme

end DesignTokens
