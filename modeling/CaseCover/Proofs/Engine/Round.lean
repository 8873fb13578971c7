import CaseCover.Engine
import CaseCover.Proofs.Issue.Order

/-!
# Rules that run side by side

An engine starts its rules one after the other, in no particular order, and leaves out the ignored
ones. The rules run at the same time. One that is done adds its issues to what was found, without
those that are suppressed or in ignored files, and no other rule adds anything meanwhile. When all
rules are done, what was found is sorted.

Whatever the order, the batches of all rules that are not ignored are found, each of them once
(`Accounted`). The rules have different names, so issues at one spot come from one batch, and
sorting keeps their order: the outcome is that of `Engine.gather` for every schedule.
-/

namespace CaseCover

open Engine (RuleReport)

/-- Rules that run side by side. Each of them is known by what it is going to report. -/
structure Round where
  /-- Rules that have not been started, in the order in which they will be. -/
  waiting : List RuleReport
  /-- Rules that have been started and are not done. -/
  running : List RuleReport
  /-- What the rules that are done have found. -/
  found : List Issue

namespace Round

/-- The next rule is started, or one that is running gets done. -/
inductive Move where
  | start
  | finish (rule : Nat)

/-- No rule has been started. -/
def ofRules (order : List RuleReport) : Round := ⟨order, [], []⟩

/-- The issues of a report that count. -/
def batch (e : Engine) (s : Suppression) (r : RuleReport) : List Issue :=
  r.issues.filter (e.counts s)

/-- The round after a move, if the move is possible. -/
def step (e : Engine) (s : Suppression) (round : Round) : Move → Option Round
  | .start =>
    match round.waiting with
    | [] => none
    | r :: rest =>
      if e.ignoredRules.contains r.rule then some { round with waiting := rest }
      else some { round with waiting := rest, running := round.running ++ [r] }
  | .finish n =>
    round.running[n]?.map fun r =>
      { round with running := round.running.eraseIdx n, found := round.found ++ batch e s r }

/-- The round after moves, if all of them are possible. -/
def run (e : Engine) (s : Suppression) (round : Round) (moves : List Move) : Option Round :=
  moves.foldlM (step e s) round

/-- All rules are done. -/
def isFinished (round : Round) : Bool := round.waiting.isEmpty && round.running.isEmpty

/-! ## Batches -/

variable {e : Engine} {s : Suppression} {round round' : Round} {m : Move}

/-- The rules that are not ignored. -/
def active (e : Engine) (rs : List RuleReport) : List RuleReport :=
  rs.filter fun r => !e.ignoredRules.contains r.rule

/-- What was found are the batches of rules that are done, and these and the rules that are not done
yet are the rules that are not ignored. -/
def Accounted (e : Engine) (s : Suppression) (order : List RuleReport) (round : Round) : Prop :=
  ∃ done, round.found = done.flatMap (batch e s) ∧
    (done ++ round.running ++ active e round.waiting).Perm (active e order)

theorem accounted_ofRules (e : Engine) (s : Suppression) (order : List RuleReport) :
    Accounted e s order (ofRules order) :=
  ⟨[], rfl, .refl _⟩

theorem accounted_step {order : List RuleReport} (h : Accounted e s order round)
    (hstep : round.step e s m = some round') : Accounted e s order round' := by
  obtain ⟨done, hfound, hperm⟩ := h
  cases m with
  | start =>
    rw [step] at hstep
    split at hstep
    · cases hstep
    · next r rest hwaiting =>
      rw [hwaiting, active, List.filter_cons] at hperm
      split at hstep
      · next hignored =>
        cases hstep
        rw [if_neg (by simpa using hignored)] at hperm
        exact ⟨done, hfound, hperm⟩
      · next hactive =>
        cases hstep
        rw [if_pos (by simpa using hactive)] at hperm
        refine ⟨done, hfound, ?_⟩
        rw [List.append_assoc, List.append_assoc, List.singleton_append, ← List.append_assoc]
        exact hperm
  | finish n =>
    obtain ⟨r, hr, rfl⟩ := Option.map_eq_some_iff.mp hstep
    obtain ⟨hlt, rfl⟩ := List.getElem?_eq_some_iff.mp hr
    have hcut : (round.running[n] :: round.running.eraseIdx n).Perm round.running := by
      have hmiddle : (round.running.take n ++ round.running[n] :: round.running.drop (n + 1)).Perm
          (round.running[n] :: (round.running.take n ++ round.running.drop (n + 1))) :=
        List.perm_middle
      rw [List.getElem_cons_drop, List.take_append_drop] at hmiddle
      rw [List.eraseIdx_eq_take_drop_succ]
      exact hmiddle.symm
    -- The rule moves from those that run to the end of those that are done, with its batch.
    refine ⟨done ++ [round.running[n]], by simp [hfound], ?_⟩
    refine (List.Perm.append_right _ ?_).trans hperm
    rw [List.append_assoc]
    exact hcut.append_left done

theorem accounted_run {order : List RuleReport} {moves : List Move} (h : Accounted e s order round)
    (hrun : round.run e s moves = some round') : Accounted e s order round' := by
  induction moves generalizing round with
  | nil =>
    cases hrun
    exact h
  | cons m moves ih =>
    rw [run, List.foldlM_cons] at hrun
    obtain ⟨round₁, hstep, hrun⟩ := Option.bind_eq_some_iff.mp hrun
    exact ih (accounted_step h hstep) hrun

/-- Every round can be finished: the rules that wait are started, then those that run get done. -/
theorem exists_completion (e : Engine) (s : Suppression) (round : Round) :
    ∃ moves round', round.run e s moves = some round' ∧ round'.isFinished = true := by
  obtain ⟨waiting, running, found⟩ := round
  induction waiting generalizing running with
  | nil =>
    induction running generalizing found with
    | nil => exact ⟨[], _, rfl, rfl⟩
    | cons r running ih =>
      obtain ⟨moves, round', hrun, hfinished⟩ := ih (found ++ batch e s r)
      exact ⟨.finish 0 :: moves, round', hrun, hfinished⟩
  | cons r waiting ih =>
    cases hignored : e.ignoredRules.contains r.rule with
    | true =>
      obtain ⟨moves, round', hrun, hfinished⟩ := ih running
      refine ⟨.start :: moves, round', ?_, hfinished⟩
      rw [run, List.foldlM_cons, step]
      simp only [hignored]
      exact hrun
    | false =>
      obtain ⟨moves, round', hrun, hfinished⟩ := ih (running ++ [r])
      refine ⟨.start :: moves, round', ?_, hfinished⟩
      rw [run, List.foldlM_cons, step]
      simp only [hignored]
      exact hrun

/-! ## The outcome -/

/-- The rules have different names, and each reports issues under its own name. -/
structure NamedApart (rs : List RuleReport) : Prop where
  names : (rs.map (·.rule)).Nodup
  own : ∀ r ∈ rs, ∀ i ∈ r.issues, i.rule = r.rule

theorem NamedApart.perm {rs rs' : List RuleReport} (h : NamedApart rs) (hperm : rs.Perm rs') :
    NamedApart rs' :=
  ⟨(hperm.map _).nodup_iff.mp h.names, fun r hr => h.own r (hperm.mem_iff.mpr hr)⟩

theorem NamedApart.active {rs : List RuleReport} (h : NamedApart rs) (e : Engine) :
    NamedApart (active e rs) :=
  ⟨h.names.sublist (List.filter_sublist.map _), fun r hr => h.own r (List.mem_filter.mp hr).1⟩

/-- A rule has no issue at a spot of another rule. -/
theorem filter_spot_batch {r : RuleReport} (hown : ∀ i ∈ r.issues, i.rule = r.rule) {i : Issue}
    (hother : r.rule ≠ i.rule) : (batch e s r).filter (fun j => j.spot = i.spot) = [] := by
  refine List.filter_eq_nil_iff.mpr fun j hj hspot => hother ?_
  simp only [Issue.spot, decide_eq_true_eq, Prod.mk.injEq] at hspot
  rw [← hown j (List.mem_filter.mp hj).1, hspot.2.2.2]

/-- The order of batches does not show after sorting. -/
theorem sort_batches_eq_of_perm {rs rs' : List RuleReport} (h : NamedApart rs)
    (hperm : rs.Perm rs') :
    Issue.sort (rs.flatMap (batch e s)) = Issue.sort (rs'.flatMap (batch e s)) := by
  refine Issue.sort_eq_of_spots fun i => ?_
  rw [List.flatMap_def, List.flatMap_def]
  refine filter_flatten_eq_of_apart (hperm.map _) (List.pairwise_map.mpr ?_)
  refine (List.pairwise_map.mp h.names).imp_of_mem fun {r r'} hr hr' hne => ?_
  -- A spot names its rule, so of two batches at most one has issues there.
  by_cases hrule : r.rule = i.rule
  · exact .inr (filter_spot_batch (h.own r' hr') (by rw [← hrule]; exact hne.symm))
  · exact .inl (filter_spot_batch (h.own r hr) hrule)

/-- The issues at a spot of a rule are those of its batch. -/
theorem filter_spot_batches {rs : List RuleReport} (h : NamedApart rs) {r : RuleReport}
    (hr : r ∈ rs) {i : Issue} (hi : i.rule = r.rule) :
    (rs.flatMap (batch e s)).filter (fun j => j.spot = i.spot) =
      (batch e s r).filter fun j => j.spot = i.spot := by
  obtain ⟨front, back, rfl⟩ := List.append_of_mem hr
  -- With the rule taken to the front, its name is none of the others.
  have hfirst := h.perm List.perm_middle
  have hnone {l : List RuleReport} (hl : ∀ r' ∈ l, r' ∈ front ++ back) :
      (l.flatMap (batch e s)).filter (fun j => j.spot = i.spot) = [] := by
    rw [List.filter_flatMap, List.flatMap_eq_nil_iff]
    intro r' hr'
    refine filter_spot_batch (hfirst.own r' (List.mem_cons_of_mem _ (hl r' hr'))) fun heq => ?_
    exact (List.nodup_cons.mp hfirst.names).1 (List.mem_map.mpr ⟨r', hl r' hr', heq.trans hi⟩)
  rw [List.flatMap_append, List.flatMap_cons, List.filter_append, List.filter_append,
    hnone fun r' hr' => List.mem_append_left _ hr', hnone fun r' hr' => List.mem_append_right _ hr',
    List.nil_append, List.append_nil]

theorem gather_eq (e : Engine) (s : Suppression) (rs : List RuleReport) :
    e.gather s rs = Issue.sort ((active e rs).flatMap (batch e s)) := by
  rw [Engine.gather, List.filter_flatMap]
  rfl

/-- Every round of rules with different names has the outcome of `Engine.gather`, in whatever order
the rules are started and get done, and every round can be finished. The outcome has the issues of
the rules that are not ignored which are neither suppressed where they start nor in an ignored
file. They are in the order of issues, and those at one spot are as their rule reported them. -/
theorem outcomeLaw (e : Engine) (s : Suppression) (rules : List RuleReport)
    (hnames : (rules.map (·.rule)).Nodup)
    (hown : ∀ r ∈ rules, ∀ i ∈ r.issues, i.rule = r.rule) :
    (∀ order, order.Perm rules → ∀ moves round, (ofRules order).run e s moves = some round →
      (round.isFinished = true → Issue.sort round.found = e.gather s rules) ∧
      ∃ more round', round.run e s more = some round' ∧ round'.isFinished = true) ∧
    (e.gather s rules).Perm
      ((rules.filter fun r => !e.ignoredRules.contains r.rule).flatMap fun r =>
        r.issues.filter fun i => !s.suppresses i.start i.rule && !e.ignoresFile i.filename) ∧
    (e.gather s rules).Pairwise Issue.Precedes ∧
    ∀ r ∈ rules, e.ignoredRules.contains r.rule = false → ∀ i : Issue, i.rule = r.rule →
      (e.gather s rules).filter (fun j => j.spot = i.spot) =
        (r.issues.filter fun j => !s.suppresses j.start j.rule && !e.ignoresFile j.filename).filter
          fun j => j.spot = i.spot := by
  have hapart : NamedApart rules := ⟨hnames, hown⟩
  have hcounts :
      e.counts s = fun i => !s.suppresses i.start i.rule && !e.ignoresFile i.filename := by
    funext i
    rw [Engine.counts, Bool.not_or]
  rw [gather_eq, ← hcounts]
  refine ⟨fun order horder moves round hrun => ⟨fun hfinished => ?_, exists_completion e s round⟩,
    Issue.sort_perm _, Issue.sort_pairwise _, fun r hr hactive i hi => ?_⟩
  · obtain ⟨done, hfound, hperm⟩ := accounted_run (accounted_ofRules e s order) hrun
    simp only [isFinished, Bool.and_eq_true, List.isEmpty_iff] at hfinished
    rw [hfinished.1, hfinished.2, List.append_nil] at hperm
    rw [hfound]
    have hdone : done.Perm (active e rules) := by
      refine List.Perm.trans ?_ (hperm.trans (horder.filter _))
      rw [active, List.filter_nil, List.append_nil]
    exact (sort_batches_eq_of_perm (hapart.active e) hdone.symm).symm
  · have hmem : r ∈ active e rules := List.mem_filter.mpr ⟨hr, by rw [hactive]; rfl⟩
    rw [Issue.filter_spot_sort, filter_spot_batches (hapart.active e) hmem hi]
    rfl

/-- A rule that reports one issue for each message, all of them at one place. -/
def reportAt (rule : Text) (messages : List Text) : RuleReport :=
  ⟨rule, messages.map fun message =>
    ⟨rule, "totality", "a.go", message, [], ⟨"a.go", 9, 2, 1⟩, ⟨"a.go", 12, 2, 4⟩, .error⟩⟩

/-- An engine without rules of its own that ignores one. -/
def ignoring (rule : Text) : Engine := ⟨"/w", [], false, [], [rule], []⟩

/-- Of two rules at one place, the one that was started last gets done first. -/
theorem outcomeLaw_twoRules :
    ∃ round, (ofRules [reportAt "b" ["2", "1"], reportAt "c" ["3"], reportAt "a" ["4"]]).run
        (ignoring "c") ⟨[]⟩ [.start, .start, .start, .finish 1, .finish 0] = some round ∧
      round.isFinished = true ∧ round.found.map (·.message) = [utf8 "4", utf8 "2", utf8 "1"] ∧
      Issue.sort round.found = (ignoring "c").gather ⟨[]⟩
        [reportAt "a" ["4"], reportAt "b" ["2", "1"], reportAt "c" ["3"]] := by
  have hrun : (ofRules [reportAt "b" ["2", "1"], reportAt "c" ["3"], reportAt "a" ["4"]]).run
      (ignoring "c") ⟨[]⟩ [.start, .start, .start, .finish 1, .finish 0] =
        some ⟨[], [], (reportAt "a" ["4"]).issues ++ (reportAt "b" ["2", "1"]).issues⟩ := by
    rfl
  have horder : [reportAt "b" ["2", "1"], reportAt "c" ["3"], reportAt "a" ["4"]].Perm
      [reportAt "a" ["4"], reportAt "b" ["2", "1"], reportAt "c" ["3"]] :=
    @List.perm_append_comm _ [_, _] [_]
  refine ⟨_, hrun, rfl, rfl, ?_⟩
  exact ((outcomeLaw (ignoring "c") ⟨[]⟩ _ (by decide) (by decide)).1 _ horder _ _ hrun).1 rfl

end Round

end CaseCover
