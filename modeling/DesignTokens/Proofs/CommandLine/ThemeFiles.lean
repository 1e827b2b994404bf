import DesignTokens.CommandLine.Run
import DesignTokens.Proofs.Theme.Kinds

namespace DesignTokens

/-!
# Files with themes

A file that holds no theme is told as a problem, except when its document asks for
members where no object stands.  That is a fault of its own, and a run that lints
the file crashes with it.
-/

open Registry (standard)

namespace Theme

/-- How reading a theme from the text of a file ends. -/
inductive FileOutcome (path : FilePath) (text : String) :
    Except Failure Theme → Prop where
  | noDocument :
      Wire.parse? text = none →
      FileOutcome path text (.error (.problem (unreadable "theme" path)))
  | theme {data : Wire} {theme : Theme} :
      Wire.parse? text = some data →
      Theme.hasObjects data = true →
      FileOutcome path text (.ok theme)
  | unreadable {data : Wire} :
      Wire.parse? text = some data →
      FileOutcome path text
        (.error (.problem (DesignTokens.unreadable "theme" path)))
  | unknownType {data tag : Wire} :
      Wire.parse? text = some data →
      FileOutcome path text (.error (.problem (standard.unknown tag)))
  | noMember {data : Wire} {kind member : String} :
      Wire.parse? text = some data →
      Theme.hasObjects data = false →
      FileOutcome path text (.error (.fault (.noMember kind member)))

/--
A file is read as a theme or told as a problem, unless members are
asked for in vain.
-/
theorem fileOutcome_ofText
    (path : FilePath)
    (text : String) :
    FileOutcome path text (ofText standard path text) := by
  unfold ofText
  cases isDocument : Wire.parse? text with
  | none => exact .noDocument isDocument
  | some data =>
      dsimp only
      cases isDecoded : Theme.decode standard data with
      | ok theme => exact .theme isDocument (Theme.hasObjects_of_decode isDecoded)
      | error failure =>
          have foreseen := Theme.failsOnly_decode data failure isDecoded
          cases failure with
          | problem problem =>
              obtain ⟨tag, rfl⟩ := foreseen
              exact .unknownType isDocument
          | fault fault =>
              rcases foreseen with isFileFault | ⟨inVain, kind, member, rfl⟩
              · simp only [fileFailure, isFileFault, if_true]
                exact .unreadable isDocument
              · exact .noMember isDocument inVain

end Theme

namespace Console

theorem withoutCodes_of_not_mem
    {chars : List Char}
    (noEscape : '\x1b' ∉ chars) :
    withoutCodes chars = chars := by
  induction chars with
  | nil => rw [withoutCodes]
  | cons c rest inductionHypothesis =>
      rw [List.mem_cons, not_or] at noEscape
      rw [withoutCodes, inductionHypothesis noEscape.2]
      intro isEscape
      exact noEscape.1 isEscape.symm

/-- A text without escape characters comes through as it is. -/
theorem through_of_not_mem
    (console : Console)
    {text : String}
    (noEscape : '\x1b' ∉ text.toList) :
    console.through text = text := by
  rw [through, withoutCodes_of_not_mem noEscape, String.ofList_toList, ite_self]

end Console

namespace CommandLine

theorem loadTheme_of_read?
    {desk : Desk}
    {path : FilePath}
    {text : String}
    (isRead : desk.tree.read? path = some text) :
    loadTheme desk path none = .ok ⟨[], Theme.ofText desk.registry path text⟩ := by
  have isThere : desk.tree.isThere path = true := by
    rw [FileTree.isThere, FileTree.isFile, isRead]
    rfl
  simp [loadTheme, isThere, isRead]

/--
A run ends with a problem when its exit code is that of the problem, when all it
writes is the problem with a mark on the error stream, and when the files are as
they were.
-/
structure EndsWith (desk : Desk) (problem : Problem) (outcome : Outcome) :
    Prop where
  exitCode : outcome.exitCode = problem.exitCode
  inColor :
    desk.console.usesColor = true →
      outcome.lines =
        [⟨.err,
          desk.console.through ("\x1b[91m✗\x1b[0m " ++ problem.format .terminal)⟩]
  inPlain :
    desk.console.usesColor = false →
      outcome.lines =
        [⟨.err, desk.console.through ("[FAIL] " ++ problem.format .plain)⟩]
  tree : outcome.tree = desk.tree

theorem endsWith_fail
    (desk : Desk)
    (problem : Problem) :
    EndsWith desk problem (desk.fail [] problem) where
  exitCode := rfl
  inColor usesColor := by
    simp [Desk.fail, Desk.finish, Console.error, Console.say, Console.markText,
      usesColor, Console.Mark.colored]
  inPlain noColor := by
    simp [Desk.fail, Desk.finish, Console.error, Console.say, Console.markText,
      noColor, Console.Mark.plain]
  tree := rfl

section Linting

variable {desk : Desk} (isStandard : desk.registry = standard)
  {path : FilePath} {text : String} (isRead : desk.tree.read? path = some text)
  (config? : Option FilePath) (preset? : Option Lint.Preset) (asJson : Bool)
include isStandard isRead

theorem runLint_of_problem
    {problem : Problem}
    (isProblem : Theme.ofText standard path text = .error (.problem problem)) :
    runLint desk path none config? preset? asJson = .ok (desk.fail [] problem) := by
  rw [runLint, loadTheme_of_read? isRead, isStandard, isProblem]
  rfl

theorem runLint_of_fault
    {fault : Fault}
    (isFault : Theme.ofText standard path text = .error (.fault fault)) :
    runLint desk path none config? preset? asJson =
      .error (.failure (.fault fault)) := by
  rw [runLint, loadTheme_of_read? isRead, isStandard, isFault]
  rfl

/--
A run that lints a file ends with the formatted problem and its exit code when
the file is told as a problem, and crashes when members are asked for in vain.
-/
theorem runLint_of_theme_file :
    Theme.FileOutcome path text (Theme.ofText standard path text) ∧
      (∀ problem, Theme.ofText standard path text = .error (.problem problem) →
        ∃ outcome, runLint desk path none config? preset? asJson = .ok outcome ∧
          EndsWith desk problem outcome) ∧
      ∀ fault, Theme.ofText standard path text = .error (.fault fault) →
        runLint desk path none config? preset? asJson =
          .error (.failure (.fault fault)) := by
  refine ⟨Theme.fileOutcome_ofText path text, fun problem isProblem => ?_,
    fun _ isFault =>
      runLint_of_fault isStandard isRead config? preset? asJson isFault⟩
  exact ⟨_, runLint_of_problem isStandard isRead config? preset? asJson isProblem,
    endsWith_fail desk problem⟩

end Linting

/-- What a run works with in a directory with one file. -/
def deskFor (text : String) : Desk where
  tree := ⟨⟨true, []⟩, [(["theme.json"], text)], []⟩
  console := ⟨false, false, false, false⟩
  sinks := []
  registry := standard

/-- The exit code and the words of the problem that a text is told as. -/
def told? (text : String) : Option (Nat × String) :=
  match Theme.ofText standard (.ofText "theme.json") text with
  | .error (.problem problem) => some (problem.exitCode, problem.format .plain)
  | _ => none

/-- What is written on a document without a name. -/
def namelessText : String :=
  "Error: Invalid theme input: Cannot read theme.json\n" ++
    "Suggestion: Run validate() on the source to inspect every problem\n" ++
    "  source: theme\n" ++
    "  errors: 1"

/-- A document without a name is told as a problem. -/
theorem runLint_of_nameless_theme :
    ∃ outcome,
      runLint (deskFor "\x7b\x7d") (.ofText "theme.json") none none none false =
          .ok outcome ∧
        outcome.exitCode = 2 ∧
        outcome.lines = [⟨.err, "[FAIL] " ++ namelessText⟩] ∧
        outcome.tree = (deskFor "\x7b\x7d").tree := by
  have isRead :
      (deskFor "\x7b\x7d").tree.read? (.ofText "theme.json") = some "\x7b\x7d" := by
    decide +kernel
  have isTold : told? "\x7b\x7d" = some (2, namelessText) := by
    decide +kernel
  obtain ⟨_, ofProblem, _⟩ := runLint_of_theme_file rfl isRead none none false
  unfold told? at isTold
  split at isTold
  · rename_i problem isProblem
    obtain ⟨exitCode, isText⟩ := Prod.mk.inj (Option.some.inj isTold)
    obtain ⟨outcome, isRun, ends⟩ := ofProblem problem isProblem
    refine ⟨outcome, isRun, ends.exitCode.trans exitCode, ?_, ends.tree⟩
    rw [ends.inPlain rfl, isText, Console.through_of_not_mem _ (by decide +kernel)]
  · cases isTold

/-- Whether a text asks for a member in vain. -/
def asksInVain (text : String) : Bool :=
  match Theme.ofText standard (.ofText "theme.json") text with
  | .error (.fault (.noMember _ _)) => true
  | _ => false

/-- A run crashes on a document that is a list. -/
theorem runLint_of_list_crashes :
    ∃ kind member,
      runLint (deskFor "[]") (.ofText "theme.json") none none none false =
      .error (.failure (.fault (.noMember kind member))) := by
  have isRead : (deskFor "[]").tree.read? (.ofText "theme.json") = some "[]" := by
    decide +kernel
  have isVain : asksInVain "[]" = true := by
    decide +kernel
  unfold asksInVain at isVain
  split at isVain
  · rename_i kind member isFault
    exact ⟨kind, member, runLint_of_fault rfl isRead none none false isFault⟩
  · cases isVain

end CommandLine

end DesignTokens
