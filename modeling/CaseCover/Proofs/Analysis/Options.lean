import CaseCover.Proofs.Analysis.Traversal
import CaseCover.Proofs.Sorting

/-!
# Runs with some kinds of constructs

Options only choose among the verdicts. What is said about a statement when both kinds of constructs
are judged is said when its kind is asked for, and nothing is said otherwise (`verdictOn_eq`): a
statement that is passed over is still entered, and the links that a chain covers are if statements
like the chain itself. So a run with one kind reports what the full run reports at statements of that
kind (`reported_eq_filter`), and the full run is put together from the two by the turns of the
statements.
-/

namespace CaseCover.Analysis

/-- A switch statement with all its parts. -/
def isSwitch : Stmt → Bool
  | .switchOn .. => true
  | _ => false

/-- An if statement with all its parts. -/
def isIfStmt : Stmt → Bool
  | .ifChain .. => true
  | _ => false

/-- The options ask for statements of this kind. -/
def asksFor (opts : Options) (s : Stmt) : Bool :=
  opts.switches && isSwitch s || opts.ifChains && isIfStmt s

/-- The statement that is visited at turn `n` is of a kind. -/
def isAt (kind : Stmt → Bool) (files : List SourceFile) (n : Nat) : Bool :=
  (visited files)[n]?.any kind

/-- What a run reports: each diagnostic with the turn of the statement that it is about. -/
def reported (o : Shapes) (opts : Options) (files : List SourceFile) : List (Nat × Diagnostic) :=
  (verdicts o opts files).zipIdx.filterMap fun (v, n) => v.map fun d => (n, d)

variable {o : Shapes} {opts : Options} {files : List SourceFile}

/-! ## Verdicts -/

/-- Options choose among the verdicts of the run with both kinds. -/
theorem verdictOn_eq (o : Shapes) (opts : Options) (all : List Stmt) (n : Nat) (s : Stmt) :
    verdictOn o opts all n s = if asksFor opts s then verdictOn o .default all n s else none := by
  cases s with
  | switchOn pos init tag body =>
    cases hopts : opts.switches <;>
      simp [verdictOn, asksFor, isSwitch, isIfStmt, hopts, Options.default]
  | ifChain pos init cond body other =>
    cases hopts : opts.ifChains <;>
      simp [verdictOn, asksFor, isSwitch, isIfStmt, hopts, Options.default]
  | _ => simp [verdictOn, asksFor, isSwitch, isIfStmt]

/-- A verdict is about a statement of a kind that is asked for, and stands at its header. -/
theorem verdictOn_eq_some {all : List Stmt} {n : Nat} {s : Stmt} {d : Diagnostic}
    (h : verdictOn o opts all n s = some d) :
    asksFor opts s = true ∧ d.pos = s.pos ∧ d.stop = headerStop s := by
  have hheader (hd : (Finding.of? o s).map diagnostic = some d) :
      d.pos = s.pos ∧ d.stop = headerStop s := by
    obtain ⟨f, hf, rfl⟩ := Option.map_eq_some_iff.mp hd
    obtain ⟨m, -, hm⟩ := Option.bind_eq_some_iff.mp hf
    rw [diagnostic, Finding.node_of_ofMatch? hm]
    exact ⟨rfl, rfl⟩
  rw [verdictOn_eq] at h
  split at h
  · next hasks =>
    refine ⟨hasks, ?_⟩
    cases s with
    | switchOn pos init tag body => exact hheader h
    | ifChain pos init cond body other =>
      rw [verdictOn] at h
      split at h
      · exact hheader h
      · cases h
    | _ => cases h
  · cases h

theorem zipIdx_verdicts (o : Shapes) (opts : Options) (files : List SourceFile) :
    (verdicts o opts files).zipIdx = (verdicts o .default files).zipIdx.map fun (v, n) =>
      (if isAt (asksFor opts) files n then v else none, n) := by
  refine List.ext_getElem? fun n => ?_
  rw [List.getElem?_map, List.getElem?_zipIdx, List.getElem?_zipIdx, Nat.zero_add]
  cases hs : (visited files)[n]? with
  | some s =>
    rw [getElem?_verdicts hs, getElem?_verdicts hs, verdictOn_eq]
    simp [isAt, hs]
  | none =>
    have hlen (opts : Options) : (verdicts o opts files).length ≤ n := by
      rw [verdicts, length_verdictsFrom]
      exact List.getElem?_eq_none_iff.mp hs
    rw [List.getElem?_eq_none (hlen opts), List.getElem?_eq_none (hlen .default)]
    rfl

/-! ## What is reported -/

theorem mem_reported {r : Nat × Diagnostic} : r ∈ reported o opts files ↔
    ∃ s, (visited files)[r.1]? = some s ∧ verdictOn o opts (visited files) r.1 s = some r.2 := by
  have hverdict : r ∈ reported o opts files ↔ (verdicts o opts files)[r.1]? = some (some r.2) := by
    rw [reported, List.mem_filterMap]
    constructor
    · rintro ⟨⟨v, n⟩, hv, hr⟩
      obtain ⟨d, rfl, rfl⟩ := Option.map_eq_some_iff.mp hr
      exact List.mk_mem_zipIdx_iff_getElem?.mp hv
    · intro hr
      exact ⟨(some r.2, r.1), List.mk_mem_zipIdx_iff_getElem?.mpr hr, rfl⟩
  rw [hverdict]
  cases hs : (visited files)[r.1]? with
  | some s => simp [getElem?_verdicts hs]
  | none =>
    have hlen : (verdicts o opts files).length ≤ r.1 := by
      rw [verdicts, length_verdictsFrom]
      exact List.getElem?_eq_none_iff.mp hs
    simp [List.getElem?_eq_none hlen]

theorem map_reported (o : Shapes) (opts : Options) (files : List SourceFile) :
    (reported o opts files).map (·.2) = diagnostics o opts files := by
  calc (reported o opts files).map (·.2)
      = (verdicts o opts files).zipIdx.filterMap (·.1) := by
        rw [reported, List.map_filterMap]
        congr 1
        funext ⟨v, n⟩
        cases v <;> rfl
    _ = ((verdicts o opts files).zipIdx.map (·.1)).filterMap id := by
        rw [List.filterMap_map]
        rfl
    _ = diagnostics o opts files := by rw [List.zipIdx_map_fst, diagnostics]

theorem reported_pairwise (o : Shapes) (opts : Options) (files : List SourceFile) :
    (reported o opts files).Pairwise fun r r' => r.1 < r'.1 := by
  have hturns : (verdicts o opts files).zipIdx.Pairwise fun p q => p.2 < q.2 := by
    rw [← List.pairwise_map, List.zipIdx_map_snd]
    exact List.pairwise_lt_range' 1
  refine List.pairwise_filterMap.mpr (hturns.imp ?_)
  rintro ⟨v, n⟩ ⟨w, k⟩ hlt r hr r' hr'
  obtain ⟨d, -, rfl⟩ := Option.map_eq_some_iff.mp hr
  obtain ⟨d', -, rfl⟩ := Option.map_eq_some_iff.mp hr'
  exact hlt

/-- A run reports what the run with both kinds reports at statements that are asked for. -/
theorem reported_eq_filter (o : Shapes) (opts : Options) (files : List SourceFile) :
    reported o opts files =
      (reported o .default files).filter fun r => isAt (asksFor opts) files r.1 := by
  rw [reported, zipIdx_verdicts, List.filterMap_map, reported, List.filter_filterMap]
  congr 1
  funext ⟨v, n⟩
  cases v with
  | none => simp
  | some d => by_cases h : isAt (asksFor opts) files n = true <;> simp [h, Option.filter]

theorem located_of_mem_reported {r : Nat × Diagnostic} (h : r ∈ reported o opts files) :
    ∃ s, (visited files)[r.1]? = some s ∧ asksFor opts s = true ∧ r.2.pos = s.pos ∧
      r.2.stop = headerStop s := by
  obtain ⟨s, hs, hverdict⟩ := mem_reported.mp h
  exact ⟨s, hs, verdictOn_eq_some hverdict⟩

/-- What is reported is about a switch statement or about an if statement, and not about both. -/
theorem isAt_isIfStmt_of_mem_reported {r : Nat × Diagnostic} (h : r ∈ reported o opts files) :
    isAt isIfStmt files r.1 = !isAt isSwitch files r.1 := by
  obtain ⟨s, hs, hasks, -⟩ := located_of_mem_reported h
  simp only [isAt, hs, Option.any_some]
  cases s with
  | switchOn | ifChain => rfl
  | _ => simp [asksFor, isSwitch, isIfStmt] at hasks

/-- The run with switch statements only, and the one with if statements only. -/
theorem reported_switches (o : Shapes) (files : List SourceFile) :
    reported o ⟨true, false⟩ files =
      (reported o .default files).filter fun r => isAt isSwitch files r.1 := by
  have hkind : asksFor ⟨true, false⟩ = isSwitch := by
    funext s
    simp [asksFor]
  rw [reported_eq_filter, hkind]

theorem reported_ifChains (o : Shapes) (files : List SourceFile) :
    reported o ⟨false, true⟩ files =
      (reported o .default files).filter fun r => isAt isIfStmt files r.1 := by
  have hkind : asksFor ⟨false, true⟩ = isIfStmt := by
    funext s
    simp [asksFor]
  rw [reported_eq_filter, hkind]

theorem merge_reported (o : Shapes) (files : List SourceFile) :
    (reported o ⟨true, false⟩ files).merge (reported o ⟨false, true⟩ files)
      (fun r r' => r.1 ≤ r'.1) = reported o .default files := by
  have hothers : (reported o .default files).filter (fun r => isAt isIfStmt files r.1) =
      (reported o .default files).filter fun r => !isAt isSwitch files r.1 :=
    List.filter_congr fun r hr => isAt_isIfStmt_of_mem_reported hr
  rw [reported_switches, reported_ifChains, hothers]
  refine merge_filter_not ((reported_pairwise o .default files).imp fun {r r'} hlt => ?_) _
  exact ⟨decide_eq_true (Nat.le_of_lt hlt), decide_eq_false (Nat.not_le.mpr hlt)⟩

/-! ## The law -/

/-- How the runs with one kind of constructs are related to the run with both. -/
structure OptionsLaw (o : Shapes) (files : List SourceFile) : Prop where
  /-- The diagnostics of a run are what it reports at one turn after another. -/
  inOrder : ∀ opts, (reported o opts files).map (·.2) = diagnostics o opts files ∧
    (reported o opts files).Pairwise fun r r' => r.1 < r'.1
  /-- A diagnostic is located at the header of the statement of its turn, which is a switch
  statement or an if statement. -/
  located : ∀ opts, ∀ r ∈ reported o opts files, ∃ s, (visited files)[r.1]? = some s ∧
    (isSwitch s || isIfStmt s) = true ∧ r.2.pos = s.pos ∧ r.2.stop = headerStop s
  /-- The run with switch statements reports what the full run reports at switch statements. -/
  switches : reported o ⟨true, false⟩ files =
    (reported o .default files).filter fun r => isAt isSwitch files r.1
  /-- The run with if statements reports what the full run reports at if statements. -/
  ifChains : reported o ⟨false, true⟩ files =
    (reported o .default files).filter fun r => isAt isIfStmt files r.1
  /-- Both leave diagnostics of the full run out, and keep the order of the others. -/
  sublists : (diagnostics o ⟨true, false⟩ files).Sublist (diagnostics o .default files) ∧
    (diagnostics o ⟨false, true⟩ files).Sublist (diagnostics o .default files)
  /-- The full run is the merge of the two by turns. -/
  merged : reported o .default files =
    (reported o ⟨true, false⟩ files).merge (reported o ⟨false, true⟩ files) fun r r' => r.1 ≤ r'.1

/-- The options of an analysis are independent of each other. -/
theorem optionsLaw (o : Shapes) (files : List SourceFile) : OptionsLaw o files where
  inOrder opts := ⟨map_reported o opts files, reported_pairwise o opts files⟩
  located opts r hr := by
    obtain ⟨s, hs, hasks, hheader⟩ := located_of_mem_reported hr
    refine ⟨s, hs, ?_, hheader⟩
    rcases Bool.or_eq_true_iff.mp hasks with h | h
    · rw [(Bool.and_eq_true_iff.mp h).2, Bool.true_or]
    · rw [(Bool.and_eq_true_iff.mp h).2, Bool.or_true]
  switches := reported_switches o files
  ifChains := reported_ifChains o files
  sublists := by
    simp only [← map_reported, reported_switches, reported_ifChains]
    exact ⟨List.filter_sublist.map _, List.filter_sublist.map _⟩
  merged := (merge_reported o files).symm

end CaseCover.Analysis
