import CaseCover.Proofs.Analysis.Links
import CaseCover.Proofs.Coverage.ChainMeaning

/-!
# What the analysis says about each statement

The analysis visits the statements of a package one after the other and carries the turns of covered
links along. `CoveredUpTo` is the invariant of the walk: after `n` turns these are exactly the later
links of the chains that have been recognised so far, whether or not a chain was itself covered when
it was visited. So the verdict on a statement does not depend on the walk (`getElem?_verdicts`).
-/

namespace CaseCover.Analysis

/-- The statement is recognised as a chain. -/
def isChain (o : Shapes) (s : Stmt) : Bool := (Match.ofChain? o s).isSome

/-- Some recognised chain has a later link that is visited at turn `k`. -/
def isCovered (o : Shapes) (all : List Stmt) (k : Nat) : Bool :=
  all.zipIdx.any fun (s, i) => isChain o s && (laterTurns i s).contains k

/-- What is said about the statement `s` that is visited at turn `n`. -/
def verdictOn (o : Shapes) (opts : Options) (all : List Stmt) (n : Nat) (s : Stmt) :
    Option Diagnostic :=
  match s with
  | .switchOn .. => if opts.switches then (Finding.of? o s).map diagnostic else none
  | .ifChain .. =>
    if opts.ifChains && !isCovered o all n then (Finding.of? o s).map diagnostic else none
  | _ => none

/-- After `n` turns `covered` holds the later links of the chains recognised so far. -/
def CoveredUpTo (o : Shapes) (opts : Options) (all : List Stmt) (n : Nat) (covered : List Nat) :
    Prop :=
  ∀ k, k ∈ covered ↔ opts.ifChains = true ∧
    ∃ i s, i < n ∧ all[i]? = some s ∧ isChain o s = true ∧ k ∈ laterTurns i s

theorem isCovered_iff {o : Shapes} {all : List Stmt} {k : Nat} :
    isCovered o all k = true ↔
      ∃ i s, all[i]? = some s ∧ isChain o s = true ∧ k ∈ laterTurns i s := by
  unfold isCovered
  rw [List.any_eq_true]
  constructor
  · rintro ⟨⟨s, i⟩, hmem, h⟩
    rw [Bool.and_eq_true, List.contains_iff_mem] at h
    exact ⟨i, s, List.mk_mem_zipIdx_iff_getElem?.mp hmem, h⟩
  · rintro ⟨i, s, hs, hchain, hk⟩
    refine ⟨(s, i), List.mk_mem_zipIdx_iff_getElem?.mpr hs, ?_⟩
    rw [Bool.and_eq_true, List.contains_iff_mem]
    exact ⟨hchain, hk⟩

/-- Only earlier chains cover a link. -/
theorem CoveredUpTo.mem_iff {o : Shapes} {opts : Options} {all : List Stmt} {n : Nat}
    {covered : List Nat} (h : CoveredUpTo o opts all n covered) (hopts : opts.ifChains = true) :
    n ∈ covered ↔ isCovered o all n = true := by
  rw [h n, isCovered_iff]
  constructor
  · rintro ⟨-, i, s, -, hs⟩
    exact ⟨i, s, hs⟩
  · rintro ⟨i, s, hs, hchain, hn⟩
    exact ⟨hopts, i, s, lt_of_mem_laterTurns hn, hs, hchain, hn⟩

/-- What chains cover up to a turn, chains before it cover or the one that is visited then. -/
theorem covers_before_succ_iff {o : Shapes} {all : List Stmt} {n k : Nat} {s : Stmt}
    (hs : all[n]? = some s) :
    (∃ i t, i < n + 1 ∧ all[i]? = some t ∧ isChain o t = true ∧ k ∈ laterTurns i t) ↔
      (∃ i t, i < n ∧ all[i]? = some t ∧ isChain o t = true ∧ k ∈ laterTurns i t) ∨
        isChain o s = true ∧ k ∈ laterTurns n s := by
  constructor
  · rintro ⟨i, t, hi, ht, hcovers⟩
    rcases Nat.lt_succ_iff_lt_or_eq.mp hi with hlt | rfl
    · exact .inl ⟨i, t, hlt, ht, hcovers⟩
    · rw [hs] at ht
      cases ht
      exact .inr hcovers
  · rintro (⟨i, t, hi, ht⟩ | hcovers)
    · exact ⟨i, t, Nat.lt_succ_of_lt hi, ht⟩
    · exact ⟨n, s, Nat.lt_succ_self n, hs, hcovers⟩

/-- One more turn without a newly recognised chain. -/
theorem CoveredUpTo.skip {o : Shapes} {opts : Options} {all : List Stmt} {n : Nat}
    {covered : List Nat} {s : Stmt} (h : CoveredUpTo o opts all n covered) (hs : all[n]? = some s)
    (hskip : opts.ifChains = true → isChain o s = true → laterTurns n s ⊆ covered) :
    CoveredUpTo o opts all (n + 1) covered := by
  intro k
  rw [covers_before_succ_iff hs, h k]
  refine and_congr_right fun hopts => (or_iff_left_of_imp ?_).symm
  rintro ⟨hchain, hk⟩
  exact ((h k).mp (hskip hopts hchain hk)).2

/-- A recognised chain adds its later links. -/
theorem CoveredUpTo.add {o : Shapes} {opts : Options} {all : List Stmt} {n : Nat}
    {covered : List Nat} {s : Stmt} (h : CoveredUpTo o opts all n covered) (hs : all[n]? = some s)
    (hopts : opts.ifChains = true) (hchain : isChain o s = true) :
    CoveredUpTo o opts all (n + 1) (laterTurns n s ++ covered) := by
  intro k
  rw [covers_before_succ_iff hs, List.mem_append, h k, and_iff_right hopts, and_iff_right hopts,
    and_iff_right hchain, or_comm]

theorem isIf_of_isChain {o : Shapes} {s : Stmt} (h : isChain o s = true) : IsIf s := by
  obtain ⟨m, hm⟩ := Option.isSome_iff_exists.mp h
  obtain ⟨pos, init, cond, body, other, -, -, rfl, -⟩ := Match.ofChain?_eq_some hm
  exact ⟨pos, init, cond, body, other, rfl⟩

/-- The verdict on an if statement that is not covered, and what it covers. -/
theorem judge_of_isIf {o : Shapes} {opts : Options} {covered : List Nat} {n : Nat} {s : Stmt}
    (hs : IsIf s) (hopts : opts.ifChains = true) (hn : n ∉ covered) :
    judge o opts covered n s = ((Finding.of? o s).map diagnostic,
      if isChain o s then laterTurns n s ++ covered else covered) := by
  obtain ⟨pos, init, cond, body, other, rfl⟩ := hs
  have hskip : (!opts.ifChains || covered.contains n) = false := by
    simpa [hopts] using hn
  rw [judge, hskip, if_neg (by simp)]
  cases hm : Match.ofChain? o (.ifChain pos init cond body other) with
  | some m => simp [isChain, hm, Finding.of?_ofChain hm]
  | none => simp [isChain, hm, Finding.of?, recognise]

/-- One turn: the verdict is the one that does not know of the walk, and the invariant holds on. -/
theorem judge_spec {o : Shapes} {opts : Options} {all : List Stmt} (hall : Nested all) {n : Nat}
    {covered : List Nat} {s : Stmt} (h : CoveredUpTo o opts all n covered)
    (hs : all[n]? = some s) :
    (judge o opts covered n s).1 = verdictOn o opts all n s ∧
      CoveredUpTo o opts all (n + 1) (judge o opts covered n s).2 := by
  have hother (hif : ¬ IsIf s) : CoveredUpTo o opts all (n + 1) covered :=
    h.skip hs fun _ hchain => absurd (isIf_of_isChain hchain) hif
  cases s with
  | switchOn pos init tag body =>
    have hkeep : CoveredUpTo o opts all (n + 1) covered :=
      hother (by rintro ⟨_, _, _, _, _, h⟩; cases h)
    cases hsw : opts.switches with
    | true => simpa [judge, verdictOn, hsw] using hkeep
    | false => simpa [judge, verdictOn, hsw] using hkeep
  | ifChain pos init cond body other =>
    have hif : IsIf (.ifChain pos init cond body other) := ⟨pos, init, cond, body, other, rfl⟩
    cases hopts : opts.ifChains with
    | false =>
      have hkeep : CoveredUpTo o opts all (n + 1) covered :=
        h.skip hs fun htrue => by rw [hopts] at htrue; cases htrue
      simpa [judge, verdictOn, hopts] using hkeep
    | true =>
      by_cases hn : n ∈ covered
      · -- a covered link adds nothing: its later links are later links of what covers it
        have hkeep : CoveredUpTo o opts all (n + 1) covered := by
          refine h.skip hs fun _ _ k hk => ?_
          obtain ⟨-, i, t, hi, ht, hchain, hnt⟩ := (h n).mp hn
          have hlink := mem_linksAt_of_getElem? hall ht hs hnt
          exact (h k).mpr ⟨hopts, i, t, hi, ht, hchain, laterTurns_subset hlink hk⟩
        have hcov := (h.mem_iff hopts).mp hn
        simpa [judge, verdictOn, hopts, hn, hcov] using hkeep
      · have hcov : isCovered o all n = false := by
          rw [Bool.eq_false_iff]
          exact fun hc => hn ((h.mem_iff hopts).mpr hc)
        rw [judge_of_isIf hif hopts hn]
        refine ⟨by simp [verdictOn, hopts, hcov], ?_⟩
        dsimp only
        split
        · next hchain => exact h.add hs hopts hchain
        · next hchain => exact h.skip hs fun _ hc => absurd hc hchain
  | _ => exact ⟨rfl, hother (by rintro ⟨_, _, _, _, _, h⟩; cases h)⟩

/-! ## The whole walk -/

theorem length_verdictsFrom (o : Shapes) (opts : Options) (covered : List Nat) (n : Nat)
    (ss : List Stmt) : (verdictsFrom o opts covered n ss).length = ss.length := by
  induction ss generalizing covered n with
  | nil => rfl
  | cons s ss ih => simp [verdictsFrom, ih]

theorem drop_eq_cons {all : List Stmt} {n : Nat} {s : Stmt} (hs : all[n]? = some s) :
    all.drop n = s :: all.drop (n + 1) := by
  obtain ⟨hn, rfl⟩ := List.getElem?_eq_some_iff.mp hs
  exact List.drop_eq_getElem_cons hn

theorem getElem?_verdictsFrom {o : Shapes} {opts : Options} {all : List Stmt} (hall : Nested all)
    {n : Nat} {covered : List Nat} (h : CoveredUpTo o opts all n covered) {k : Nat} {s : Stmt}
    (hs : all[n + k]? = some s) :
    (verdictsFrom o opts covered n (all.drop n))[k]? = some (verdictOn o opts all (n + k) s) := by
  -- on the number of turns up to `k`: each turn hands the invariant on to the next
  induction k generalizing n covered with
  | zero =>
    rw [Nat.add_zero] at hs ⊢
    rw [drop_eq_cons hs, verdictsFrom, List.getElem?_cons_zero, (judge_spec hall h hs).1]
  | succ k ih =>
    obtain ⟨t, ht⟩ : ∃ t, all[n]? = some t := by
      obtain ⟨hlt, -⟩ := List.getElem?_eq_some_iff.mp hs
      exact ⟨all[n], List.getElem?_eq_getElem (by omega)⟩
    rw [drop_eq_cons ht, verdictsFrom, List.getElem?_cons_succ,
      ih (judge_spec hall h ht).2 (by rw [← hs]; congr 1; omega)]
    congr 2
    omega

/-- The verdict on a statement depends on the recognised chains, not on the walk. -/
theorem getElem?_verdicts {o : Shapes} {opts : Options} {files : List SourceFile} {n : Nat}
    {s : Stmt} (hs : (visited files)[n]? = some s) :
    (verdicts o opts files)[n]? = some (verdictOn o opts (visited files) n s) := by
  have hstart : CoveredUpTo o opts (visited files) 0 [] := by
    intro k
    constructor
    · intro h
      cases h
    · rintro ⟨-, i, t, hi, -⟩
      omega
  have := getElem?_verdictsFrom (nested_visited files) hstart (k := n) (s := s)
    (by rw [Nat.zero_add]; exact hs)
  rw [Nat.zero_add] at this
  exact this

/-! ## Chains -/

/-- A link is covered exactly when a link before it in the chain is recognised. -/
theorem isCovered_link_iff {o : Shapes} {all : List Stmt} (hall : Nested all) {n k : Nat}
    {s t : Stmt} (hs : all[n]? = some s) (hhead : IsHead all n) (ht : (k, t) ∈ linksAt n s) :
    isCovered o all k = true ↔ ∃ l ∈ linksAt n s, l.1 < k ∧ isChain o l.2 = true := by
  rw [isCovered_iff]
  constructor
  · rintro ⟨i, u, hu, hchain, hk⟩
    exact ⟨(i, u), mem_linksAt_of_mem_laterTurns hall hs hhead hu ht hk, lt_of_mem_laterTurns hk,
      hchain⟩
  · rintro ⟨⟨i, u⟩, hmem, hlt, hchain⟩
    exact ⟨i, u, getElem?_of_mem_linksAt hall hs hmem, hchain, mem_laterTurns_of_lt hmem ht hlt⟩

/-- The first recognised link of a chain. -/
def firstChain (o : Shapes) (links : List (Nat × Stmt)) : Option (Nat × Stmt) :=
  links.find? fun l => isChain o l.2

/-- No recognised link comes before the first one. -/
theorem firstChain_before {o : Shapes} {n : Nat} {s : Stmt} {l l' : Nat × Stmt}
    (hl : firstChain o (linksAt n s) = some l) (hl' : l' ∈ linksAt n s)
    (hchain : isChain o l'.2 = true) : l' = l ∨ l.1 < l'.1 := by
  obtain ⟨-, before, after, hsplit, hbefore⟩ := List.find?_eq_some_iff_append.mp hl
  have hpair := linksAt_pairwise n s
  rw [hsplit] at hl' hpair
  rw [List.pairwise_append, List.pairwise_cons] at hpair
  rcases List.mem_append.mp hl' with h | h
  · have hnot := hbefore l' h
    rw [hchain] at hnot
    cases hnot
  · rcases List.mem_cons.mp h with rfl | h
    · exact Or.inl rfl
    · exact Or.inr (hpair.2.1.1 l' h)

/-- The first recognised link of a chain is not covered. -/
theorem isCovered_firstChain {o : Shapes} {all : List Stmt} (hall : Nested all) {n : Nat}
    {s : Stmt} (hs : all[n]? = some s) (hhead : IsHead all n) {l : Nat × Stmt}
    (hl : firstChain o (linksAt n s) = some l) : isCovered o all l.1 = false := by
  have hmem : l ∈ linksAt n s := List.mem_of_find?_eq_some hl
  rw [Bool.eq_false_iff]
  intro hcov
  obtain ⟨l', hl', hlt, hchain⟩ := (isCovered_link_iff hall hs hhead hmem).mp hcov
  rcases firstChain_before hl hl' hchain with rfl | hgt
  · omega
  · omega

/-- Any other recognised link is covered. -/
theorem isCovered_of_ne_firstChain {o : Shapes} {all : List Stmt} (hall : Nested all) {n : Nat}
    {s : Stmt} (hs : all[n]? = some s) (hhead : IsHead all n) {l : Nat × Stmt}
    (hl : l ∈ linksAt n s) (hchain : isChain o l.2 = true)
    (hne : firstChain o (linksAt n s) ≠ some l) : isCovered o all l.1 = true := by
  rw [isCovered_link_iff hall hs hhead hl]
  cases hfirst : firstChain o (linksAt n s) with
  | none => exact absurd hchain (List.find?_eq_none.mp hfirst l hl)
  | some l' =>
    obtain ⟨hchain', -⟩ := List.find?_eq_some_iff_append.mp hfirst
    refine ⟨l', List.mem_of_find?_eq_some hfirst, ?_, hchain'⟩
    rcases firstChain_before hfirst hl hchain with rfl | hlt
    · exact absurd hfirst hne
    · exact hlt

/-- What stands after the last link of a chain. -/
def chainEnd : Stmt → Stmt
  | .ifChain _ _ _ _ other => chainEnd other
  | s => s

theorem chainEnd_of_mem_linksAt {n k : Nat} {s t : Stmt} (h : (k, t) ∈ linksAt n s) :
    chainEnd t = chainEnd s := by
  induction h using mem_linksAt_induct with
  | self ht => rfl
  | link n s hs h ih =>
    rw [ih]
    obtain ⟨pos, init, cond, body, other, rfl⟩ := hs
    rfl

theorem chainEnd_of_addLinks {o : Shapes} {c c' : Chain} {s : Stmt}
    (h : c.addLinks o s = some c') : chainEnd s = .absent ∨ chainEnd s = .bareIf := by
  fun_induction Chain.addLinks o c s generalizing c' with
  | case1 c => exact Or.inl rfl
  | case2 c => exact Or.inr rfl
  | case3 c pos cond body other ih =>
    obtain ⟨d, -, hother⟩ := Option.bind_eq_some_iff.mp h
    exact ih d hother
  | case4 => cases h

/-- A chain that ends in an else block is not recognised. -/
theorem isChain_of_chainEnd_block {o : Shapes} {s : Stmt} {start close : Pos} {body : List Stmt}
    (h : chainEnd s = .block start body close) : isChain o s = false := by
  rw [Bool.eq_false_iff]
  intro hchain
  obtain ⟨m, hm⟩ := Option.isSome_iff_exists.mp hchain
  obtain ⟨pos, init, cond, inner, other, first, last, rfl, -, hlinks, -⟩ :=
    Match.ofChain?_eq_some hm
  rw [chainEnd] at h
  rcases chainEnd_of_addLinks hlinks with hend | hend <;> rw [hend] at h <;> cases h

/-! ## The law -/

/-- The verdict on a link: a finding of its own if it is the first recognised link of its chain, and
nothing otherwise. -/
theorem verdictOn_link {o : Shapes} {all : List Stmt} (hall : Nested all) {n : Nat} {s : Stmt}
    (hs : all[n]? = some s) (hhead : IsHead all n) {l : Nat × Stmt} (hl : l ∈ linksAt n s) :
    (firstChain o (linksAt n s) = some l →
      verdictOn o .default all l.1 l.2 = (Finding.of? o l.2).map diagnostic) ∧
    (firstChain o (linksAt n s) ≠ some l → verdictOn o .default all l.1 l.2 = none) := by
  obtain ⟨k, t⟩ := l
  obtain ⟨pos, init, cond, body, other, rfl⟩ := isIf_of_mem_linksAt hl
  have hdefault (b : Bool) : (Options.default.ifChains && b) = b := Bool.true_and b
  constructor
  · intro hfirst
    have := isCovered_firstChain hall hs hhead hfirst
    simp [verdictOn, hdefault, this]
  · intro hne
    cases hchain : isChain o (.ifChain pos init cond body other) with
    | true =>
      have := isCovered_of_ne_firstChain hall hs hhead hl hchain hne
      simp [verdictOn, hdefault, this]
    | false =>
      have hnone : Match.ofChain? o (.ifChain pos init cond body other) = none :=
        Option.not_isSome_iff_eq_none.mp (by rw [isChain] at hchain; simp [hchain])
      simp [verdictOn, Finding.of?, recognise, hnone]

/-- How the diagnostics of a package come about, when both kinds of constructs are judged. -/
structure TraversalLaw (o : Shapes) (files : List SourceFile) : Prop where
  /-- A part of a file is visited before its own parts, and these one after the other. -/
  depthFirst : visited files = (files.map SourcePart.file).flatMap SourcePart.statements ∧
    ∀ p : SourcePart, p.statements = p.own ++ p.children.flatMap SourcePart.statements
  /-- Every statement at any depth is visited, and nothing else. -/
  everywhere : ∀ s, s ∈ visited files ↔
    ∃ f ∈ files, SourcePart.Within (.file f) (.stmt s) ∧ s.isAbsent = false
  /-- There is a verdict for each statement, and the diagnostics are what these say, in order. -/
  inOrder : (verdicts o .default files).length = (visited files).length ∧
    diagnostics o .default files = (verdicts o .default files).filterMap id
  /-- The verdict on a switch statement is its finding. -/
  switches : ∀ (n : Nat) (pos : Pos) (init : Stmt) (tag : Expr) (body : Stmt),
    (visited files)[n]? = some (.switchOn pos init tag body) →
    (verdicts o .default files)[n]? =
      some ((Finding.of? o (.switchOn pos init tag body)).map diagnostic)
  /-- Every if statement is a link of a maximal chain. -/
  chains : ∀ (k : Nat) (t : Stmt), (visited files)[k]? = some t → IsIf t →
    ∃ n s, (visited files)[n]? = some s ∧ IsHead (visited files) n ∧ (k, t) ∈ linksAt n s
  /-- The links after the first one are the if statements in its else chain. -/
  later : ∀ n s found, s.laterLinks = .ok found → ((linksAt n s).drop 1).map (·.2) = found
  /-- The links of a maximal chain are visited at their turns. The first one that is recognised has
  its finding as verdict, and nothing is said about the others. -/
  links : ∀ (n : Nat) (s : Stmt), (visited files)[n]? = some s → IsHead (visited files) n →
    ∀ l ∈ linksAt n s,
    (visited files)[l.1]? = some l.2 ∧
    (firstChain o (linksAt n s) = some l →
      (verdicts o .default files)[l.1]? = some ((Finding.of? o l.2).map diagnostic)) ∧
    (firstChain o (linksAt n s) ≠ some l → (verdicts o .default files)[l.1]? = some none)
  /-- Nothing is said about a chain that ends in an else block. -/
  closed : ∀ (n : Nat) (s : Stmt) (start close : Pos) (body : List Stmt),
    (visited files)[n]? = some s → IsHead (visited files) n →
    chainEnd s = .block start body close → ∀ l ∈ linksAt n s,
      (verdicts o .default files)[l.1]? = some none
  /-- Nothing is said about any other statement. -/
  others : ∀ (n : Nat) (s : Stmt), (visited files)[n]? = some s → ¬ IsIf s →
    (∀ pos init tag body, s ≠ Stmt.switchOn pos init tag body) →
      (verdicts o .default files)[n]? = some none

theorem visited_eq (files : List SourceFile) :
    visited files = (files.map SourcePart.file).flatMap SourcePart.statements := by
  rw [List.flatMap_map]
  rfl

theorem mem_visited_iff {files : List SourceFile} {s : Stmt} : s ∈ visited files ↔
    ∃ f ∈ files, SourcePart.Within (.file f) (.stmt s) ∧ s.isAbsent = false := by
  rw [visited, List.mem_flatMap]
  constructor
  · rintro ⟨f, hf, hs⟩
    exact ⟨f, hf, SourcePart.mem_statements_iff.mp hs⟩
  · rintro ⟨f, hf, hs⟩
    exact ⟨f, hf, SourcePart.mem_statements_iff.mpr hs⟩

/-- Every package is analysed by the law. -/
theorem traversalLaw (o : Shapes) (files : List SourceFile) : TraversalLaw o files := by
  have hall := nested_visited files
  have hlinks {n : Nat} {s : Stmt} (hs : (visited files)[n]? = some s)
      (hhead : IsHead (visited files) n) {l : Nat × Stmt} (hl : l ∈ linksAt n s) :
      (visited files)[l.1]? = some l.2 ∧
      (firstChain o (linksAt n s) = some l →
        (verdicts o .default files)[l.1]? = some ((Finding.of? o l.2).map diagnostic)) ∧
      (firstChain o (linksAt n s) ≠ some l → (verdicts o .default files)[l.1]? = some none) := by
    have hvis := getElem?_of_mem_linksAt hall hs hl
    obtain ⟨hfirst, hrest⟩ := verdictOn_link (o := o) hall hs hhead hl
    refine ⟨hvis, fun h => ?_, fun h => ?_⟩
    · rw [getElem?_verdicts hvis, hfirst h]
    · rw [getElem?_verdicts hvis, hrest h]
  refine ⟨⟨visited_eq files, SourcePart.statements_eq⟩, fun s => mem_visited_iff,
    ⟨length_verdictsFrom o .default [] 0 _, rfl⟩, ?_, ?_,
    fun n s found => map_linksAt_of_laterLinks, ?_, ?_, ?_⟩
  · intro n pos init tag body hs
    rw [getElem?_verdicts hs]
    rfl
  · intro k t ht hif
    exact exists_head hall ht hif
  · intro n s hs hhead l hl
    exact hlinks hs hhead hl
  · intro n s start close body hs hhead hend l hl
    refine (hlinks hs hhead hl).2.2 fun hfirst => ?_
    have hchain : isChain o l.2 = true := (List.find?_eq_some_iff_append.mp hfirst).1
    have hend' := chainEnd_of_mem_linksAt hl
    rw [hend] at hend'
    rw [isChain_of_chainEnd_block hend'] at hchain
    cases hchain
  · intro n s hs hif hswitch
    rw [getElem?_verdicts hs]
    cases s with
    | switchOn pos init tag body => exact absurd rfl (hswitch pos init tag body)
    | ifChain pos init cond body other => exact absurd ⟨pos, init, cond, body, other, rfl⟩ hif
    | _ => rfl

end CaseCover.Analysis
