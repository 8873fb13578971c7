import CaseCover.Proofs.Coverage.ChainMeaning

/-!
# Missing values as a difference

The missing values are the domain without the handled values, each value once. It matters which
values of the domain are handled, and not in which order or how often (`missing_congr`). Repeated
values can be left out before handled ones (`missing_eq_filter`), so values can be handled in
stages.

That takes more than equality gives when numbers have been rounded to 512 digits: the values of the
domain must be sharp among those of the domain and the handled ones (`Value.IsSharpIn`).
-/

namespace CaseCover

/-- The values that equal none of the values before them. -/
def Value.firsts (vs : List Value) : List Value :=
  (vs.zipIdx.filter fun p => !occursIn (vs.take p.2) p.1).map (·.1)

/-! ## Which values are handled -/

theorem keptFrom_congr {handled handled' domain : List Value}
    (h : ∀ v ∈ domain, Value.occursIn handled' v = Value.occursIn handled v)
    (found : List Value) : keptFrom handled' found domain = keptFrom handled found domain := by
  induction domain generalizing found with
  | nil => rfl
  | cons v rest ih =>
    obtain ⟨hv, hrest⟩ := List.forall_mem_cons.mp h
    rw [keptFrom, keptFrom, hv, ih hrest, ih hrest]

/-- Of the handled values it matters only which values of the domain they equal. -/
theorem missing_congr {handled handled' domain : List Value}
    (h : ∀ v ∈ domain, Value.occursIn handled' v = Value.occursIn handled v) :
    missing domain handled' = missing domain handled := by
  rw [missing_eq_keptFrom, missing_eq_keptFrom, keptFrom_congr h]

/-- Lists with the same values, as far as these equal values of the domain, handle the same. -/
theorem occursIn_eq_of_mem_iff {handled handled' : List Value} {v : Value}
    (h : ∀ w, w.same v = true → (w ∈ handled' ↔ w ∈ handled)) :
    Value.occursIn handled' v = Value.occursIn handled v := by
  rw [Bool.eq_iff_iff, Value.occursIn_iff, Value.occursIn_iff]
  constructor
  · rintro ⟨w, hw, hsame⟩
    exact ⟨w, (h w hsame).mp hw, hsame⟩
  · rintro ⟨w, hw, hsame⟩
    exact ⟨w, (h w hsame).mpr hw, hsame⟩

/-! ## Repeated values first -/

section Sharp

variable {vs handled : List Value}

/-- Handled values can be left out at the end. `found` are the values kept so far and `seen` those
that would be kept if nothing were handled; for what is not handled, both say the same. -/
theorem keptFrom_eq_filter (hhandled : handled ⊆ vs) {domain found seen : List Value}
    (hdomain : ∀ v ∈ domain, v ∈ vs ∧ v.IsSharpIn vs)
    (hseen : ∀ w ∈ domain, Value.occursIn handled w = false →
      Value.occursIn found w = Value.occursIn seen w) :
    keptFrom handled found domain =
      (keptFrom [] seen domain).filter fun v => !Value.occursIn handled v := by
  induction domain generalizing found seen with
  | nil => rfl
  | cons v rest ih =>
    obtain ⟨⟨-, hsharp⟩, hrest⟩ := List.forall_mem_cons.mp hdomain
    obtain ⟨hv, hseen⟩ := List.forall_mem_cons.mp hseen
    rw [keptFrom, keptFrom, Value.occursIn_nil, Bool.false_or]
    by_cases hh : Value.occursIn handled v = true
    · -- what equals `v` is handled as well, so having seen `v` makes no difference
      have hnext : ∀ w ∈ rest, Value.occursIn handled w = false →
          Value.occursIn found w = Value.occursIn (v :: seen) w := by
        intro w hw hnot
        have hne : v.same w = false := by
          rw [Bool.eq_false_iff]
          intro hsame
          rw [hsharp.occursIn hhandled (hrest w hw).1 hh hsame] at hnot
          cases hnot
        rw [Value.occursIn_cons, hne, Bool.false_or]
        exact hseen w hw hnot
      rw [hh, Bool.true_or, if_pos rfl]
      split
      · exact ih hrest hseen
      · rw [List.filter_cons_of_neg (by simp [hh])]
        exact ih hrest hnext
    · rw [Bool.not_eq_true] at hh
      rw [hh, hv hh, Bool.false_or]
      split
      · exact ih hrest hseen
      · rw [List.filter_cons_of_pos (by simp [hh])]
        refine congrArg (v :: ·) (ih hrest fun w hw hnot => ?_)
        rw [Value.occursIn_cons, Value.occursIn_cons, hseen w hw hnot]

/-- With nothing handled, what is kept are the values that equal none before them. `found` are the
values kept among the `earlier` ones; both say the same of the values that follow. -/
theorem keptFrom_nil_eq_firsts (earlier : List Value) {domain found : List Value}
    (hdomain : ∀ v ∈ domain, v ∈ vs ∧ v.IsSharpIn vs) (hfound : found ⊆ vs)
    (hearlier : ∀ w ∈ domain, Value.occursIn found w = Value.occursIn earlier w) :
    keptFrom [] found domain =
      ((domain.zipIdx earlier.length).filter fun p =>
        !Value.occursIn ((earlier ++ domain).take p.2) p.1).map (·.1) := by
  induction domain generalizing found earlier with
  | nil => rfl
  | cons v rest ih =>
    obtain ⟨⟨hmem, hsharp⟩, hrest⟩ := List.forall_mem_cons.mp hdomain
    obtain ⟨hv, hearlier⟩ := List.forall_mem_cons.mp hearlier
    have hnext {found' : List Value} (hsub : found' ⊆ vs)
        (h : ∀ w ∈ rest, Value.occursIn found' w = Value.occursIn (earlier ++ [v]) w) :
        keptFrom [] found' rest = ((rest.zipIdx (earlier.length + 1)).filter fun p =>
          !Value.occursIn ((earlier ++ v :: rest).take p.2) p.1).map (·.1) := by
      have := ih _ hrest hsub h
      rwa [List.length_append, List.length_singleton, List.append_assoc,
        List.singleton_append] at this
    rw [keptFrom, List.zipIdx_cons, Value.occursIn_nil, Bool.false_or]
    by_cases hf : Value.occursIn found v = true
    · rw [if_pos hf, List.filter_cons_of_neg (by simp [← hv, hf])]
      refine hnext hfound fun w hw => ?_
      rw [Value.occursIn_append, Value.occursIn_cons, Value.occursIn_nil, Bool.or_false,
        ← hearlier w hw]
      -- a value that equals `v` equals what was found for `v`
      cases hsame : v.same w with
      | false => rw [Bool.or_false]
      | true => rw [hsharp.occursIn hfound (hrest w hw).1 hf hsame, Bool.true_or]
    · rw [if_neg hf, List.filter_cons_of_pos (by simpa [← hv] using hf), List.map_cons]
      refine congrArg (v :: ·) (hnext (List.cons_subset.mpr ⟨hmem, hfound⟩) fun w hw => ?_)
      rw [Value.occursIn_cons, Value.occursIn_append, Value.occursIn_cons, Value.occursIn_nil,
        Bool.or_false, hearlier w hw, Bool.or_comm]

variable {domain : List Value} (hsharp : ∀ v ∈ domain, v.IsSharpIn (domain ++ handled))

include hsharp

theorem missing_eq_filter :
    missing domain handled = (missing domain []).filter fun v => !Value.occursIn handled v := by
  rw [missing_eq_keptFrom, missing_eq_keptFrom]
  exact keptFrom_eq_filter (List.subset_append_right _ _)
    (fun v hv => ⟨List.mem_append_left _ hv, hsharp v hv⟩) fun _ _ _ => rfl

theorem missing_nil_eq_firsts : missing domain [] = Value.firsts domain := by
  rw [missing_eq_keptFrom]
  exact keptFrom_nil_eq_firsts []
    (fun v hv => ⟨List.mem_append_left _ hv, hsharp v hv⟩) (List.nil_subset _) fun _ _ => rfl

end Sharp

/-- Values that are unequal already are left out only when they are handled. -/
theorem keptFrom_of_pairwise {vs found : List Value} (handled : List Value)
    (hvs : vs.Pairwise fun v w => v.same w = false)
    (hfound : ∀ v ∈ vs, Value.occursIn found v = false) :
    keptFrom handled found vs = vs.filter fun v => !Value.occursIn handled v := by
  induction vs generalizing found with
  | nil => rfl
  | cons v rest ih =>
    obtain ⟨hv, hrest⟩ := List.pairwise_cons.mp hvs
    obtain ⟨hnew, hfound⟩ := List.forall_mem_cons.mp hfound
    rw [keptFrom, hnew, Bool.or_false]
    by_cases hh : Value.occursIn handled v = true
    · rw [if_pos hh, List.filter_cons_of_neg (by simp [hh]), ih hrest hfound]
    · rw [if_neg hh, List.filter_cons_of_pos (by simpa using hh)]
      refine congrArg (v :: ·) (ih hrest fun w hw => ?_)
      rw [Value.occursIn_cons, hv w hw, hfound w hw, Bool.or_self]

/-- It makes no difference whether handled values are left out on the way or before. -/
theorem keptFrom_filter (handled found domain : List Value) :
    keptFrom [] found (domain.filter fun v => !Value.occursIn handled v) =
      keptFrom handled found domain := by
  induction domain generalizing found with
  | nil => rfl
  | cons v rest ih =>
    rw [keptFrom]
    by_cases hh : Value.occursIn handled v = true
    · rw [hh, Bool.true_or, if_pos rfl, List.filter_cons_of_neg (by simp [hh]), ih]
    · rw [List.filter_cons_of_pos (by simpa using hh), keptFrom, Value.occursIn_nil,
        Bool.eq_false_iff.mpr hh, ih, ih]

/-! ## Handling in stages -/

theorem missing_filter (domain handled : List Value) :
    missing (domain.filter fun v => !Value.occursIn handled v) [] = missing domain handled := by
  rw [missing_eq_keptFrom, missing_eq_keptFrom, keptFrom_filter]

theorem missing_missing (domain h₁ h₂ : List Value) :
    missing (missing domain h₁) h₂ =
      (missing domain h₁).filter fun v => !Value.occursIn h₂ v := by
  rw [missing_eq_keptFrom (missing domain h₁)]
  exact keptFrom_of_pairwise h₂ (missing_pairwise domain h₁) fun _ _ => rfl

theorem missing_append {domain h₁ h₂ : List Value}
    (hsharp : ∀ v ∈ domain, v.IsSharpIn (domain ++ (h₁ ++ h₂))) :
    missing domain (h₁ ++ h₂) = missing (missing domain h₁) h₂ := by
  have hsub : domain ++ h₁ ⊆ domain ++ (h₁ ++ h₂) :=
    ((List.sublist_append_left h₁ h₂).append_left domain).subset
  have hfirst : ∀ v ∈ domain, v.IsSharpIn (domain ++ h₁) := fun v hv => (hsharp v hv).mono hsub
  calc missing domain (h₁ ++ h₂)
      = (missing domain []).filter fun v => !Value.occursIn (h₁ ++ h₂) v := missing_eq_filter hsharp
    _ = ((missing domain []).filter fun v => !Value.occursIn h₁ v).filter fun v =>
          !Value.occursIn h₂ v := by
        simp only [List.filter_filter, Value.occursIn_append, Bool.not_or, Bool.and_comm]
    _ = (missing domain h₁).filter fun v => !Value.occursIn h₂ v := by
        rw [← missing_eq_filter hfirst]
    _ = missing (missing domain h₁) h₂ := (missing_missing domain h₁ h₂).symm

/-! ## Closed unions -/

/-- The distinct values of literals, collected behind those that are known. -/
theorem foldl_distinct_eq (ls : List Literal) (known : List Value) :
    ls.foldl (fun vs l => if Value.occursIn vs l.value then vs else vs ++ [l.value]) known =
      known ++ keptFrom [] known.reverse (ls.map (·.value)) := by
  induction ls generalizing known with
  | nil => exact (List.append_nil known).symm
  | cons l ls ih =>
    have hsame : Value.occursIn known.reverse l.value = Value.occursIn known l.value :=
      List.any_reverse
    rw [List.foldl_cons, List.map_cons, keptFrom, Value.occursIn_nil, Bool.false_or, hsame]
    split
    · exact ih known
    · rw [ih, List.reverse_append, List.append_assoc]
      rfl

/-- The distinct values of a closed union are those that are missing when nothing is handled. -/
theorem Shape.closedValues?_eq {t : Shape} {ls : List Literal} (h : t.closedMembers? = some ls) :
    t.closedValues? = some (missing (ls.map (·.value)) []) := by
  rw [closedValues?, h, Option.map_some, foldl_distinct_eq, missing_eq_keptFrom]
  rfl

/-! ## The difference -/

/-- A sharp value of the domain is handled, or else exactly one missing value equals it. -/
theorem countP_missing {domain handled : List Value} {v : Value} (hv : v ∈ domain)
    (hp : v.IsProper) (hsharp : v.IsSharpIn (domain ++ handled)) :
    (missing domain handled).countP v.same = if Value.occursIn handled v then 0 else 1 := by
  have hdomain {w : Value} (hw : w ∈ missing domain handled) : w ∈ domain ++ handled :=
    List.mem_append_left _ (mem_missing hw).1
  split
  · next hh =>
    refine List.countP_eq_zero.mpr fun w hw hsame => ?_
    have hnot := (mem_missing hw).2
    rw [hsharp.occursIn (List.subset_append_right _ _) (hdomain hw) hh hsame] at hnot
    cases hnot
  · next hh =>
    rw [Bool.not_eq_true] at hh
    obtain ⟨w, hw, hwv⟩ := Value.occursIn_iff.mp (occursIn_missing hv hp hh)
    have hvw : v.same w = true := by rw [Value.same_comm, hwv]
    obtain ⟨front, back, hcut⟩ := List.append_of_mem hw
    have hpair := missing_pairwise domain handled
    rw [hcut] at hpair hdomain ⊢
    obtain ⟨-, hback, hfront⟩ := List.pairwise_append.mp hpair
    have hback := (List.pairwise_cons.mp hback).1
    -- another missing value that equals `v` would equal `w`
    have hnofront : ∀ u ∈ front, ¬ v.same u = true := by
      intro u hu hvu
      have huw := hsharp u (hdomain (by simp [hu])) w (hdomain (by simp))
        (by rw [Value.same_comm, hvu]) hvw
      rw [hfront u hu w List.mem_cons_self] at huw
      cases huw
    have hnoback : ∀ u ∈ back, ¬ v.same u = true := by
      intro u hu hvu
      have hwu := hsharp w (hdomain (by simp)) u (hdomain (by simp [hu])) hwv hvu
      rw [hback u hu] at hwu
      cases hwu
    rw [List.countP_append, List.countP_cons_of_pos hvw, List.countP_eq_zero.mpr hnofront,
      List.countP_eq_zero.mpr hnoback]

/-- A sharp value of the domain equals a missing value exactly if it is not handled. -/
theorem occursIn_missing_eq {domain handled : List Value} {v : Value} (hv : v ∈ domain)
    (hp : v.IsProper) (hsharp : v.IsSharpIn (domain ++ handled)) :
    Value.occursIn (missing domain handled) v = !Value.occursIn handled v := by
  have hcount := countP_missing hv hp hsharp
  have hoccurs : Value.occursIn (missing domain handled) v = true ↔
      0 < (missing domain handled).countP v.same := by
    rw [Value.occursIn_eq_any, List.any_eq_true, List.countP_pos_iff]
  rw [Bool.eq_iff_iff, hoccurs, hcount]
  cases Value.occursIn handled v <;> decide

/-- What is missing of a domain is its difference with the handled values. -/
structure IsDifference (domain handled : List Value) : Prop where
  /-- Missing values are unhandled values of the domain, in its order. -/
  unhandled : (missing domain handled).Sublist (domain.filter fun v => !Value.occursIn handled v)
  /-- No two of them are equal. -/
  distinct : (missing domain handled).Pairwise fun v w => v.same w = false
  /-- A value of the domain is handled, or equals a missing value. -/
  complete : ∀ v ∈ domain, Value.occursIn handled v = true ∨
    ∃ w ∈ missing domain handled, v.same w = true
  /-- A sharp value of the domain is handled, or else it equals exactly one missing value. -/
  exclusive : ∀ v ∈ domain, v.IsSharpIn (domain ++ handled) →
    (missing domain handled).countP v.same = if Value.occursIn handled v then 0 else 1
  /-- The order of the handled values, repetitions, and values that equal none of the domain make no
  difference. -/
  asSet : ∀ handled', (∀ v ∈ domain, ∀ w, w.same v = true → (w ∈ handled' ↔ w ∈ handled)) →
    missing domain handled' = missing domain handled
  /-- Of sharp values, those are missing that equal no handled value and none before them. -/
  firsts : (∀ v ∈ domain, v.IsSharpIn (domain ++ handled)) →
    missing domain handled = (Value.firsts domain).filter fun v => !Value.occursIn handled v
  /-- Sharp values can be handled in stages. -/
  inStages : (∀ v ∈ domain, v.IsSharpIn (domain ++ handled)) → ∀ h₁ h₂, handled = h₁ ++ h₂ →
    missing domain handled = missing (missing domain h₁) h₂
  /-- If the values of a closed union are sharp, its distinct values that are not handled are
  missing. -/
  ofUnion : (∀ v ∈ domain, v.IsSharpIn (domain ++ handled)) → ∀ (t : Shape) (ls : List Literal),
    t.closedMembers? = some ls → ls.map (·.value) = domain → ∃ vs, t.closedValues? = some vs ∧
      missing domain handled = vs.filter fun v => !Value.occursIn handled v

/-- What is missing is the difference of the domain and the handled values. Where the difference
needs sharp values, those that are kept exactly will do. -/
theorem missing_isDifference (domain handled : List Value) (hp : ∀ v ∈ domain, v.IsProper) :
    IsDifference domain handled ∧
      ∀ v : Value, v.isExact = true → v.IsSharpIn (domain ++ handled) := by
  refine ⟨⟨missing_sublist domain handled, missing_pairwise domain handled, ?_, ?_, ?_, ?_, ?_, ?_⟩,
    fun v hv => Value.isSharpIn_of_isExact hv _⟩
  · intro v hv
    by_cases hh : Value.occursIn handled v = true
    · exact Or.inl hh
    · rw [Bool.not_eq_true] at hh
      obtain ⟨w, hw, hsame⟩ := Value.occursIn_iff.mp (occursIn_missing hv (hp v hv) hh)
      exact Or.inr ⟨w, hw, by rw [Value.same_comm, hsame]⟩
  · exact fun v hv hsharp => countP_missing hv (hp v hv) hsharp
  · exact fun handled' h => missing_congr fun v hv => occursIn_eq_of_mem_iff (h v hv)
  · intro hsharp
    rw [missing_eq_filter hsharp, missing_nil_eq_firsts hsharp]
  · rintro hsharp h₁ h₂ rfl
    exact missing_append hsharp
  · rintro hsharp t ls ht rfl
    exact ⟨_, Shape.closedValues?_eq ht, missing_eq_filter hsharp⟩

/-- A large even number. -/
def evenPower : Value := .of (.int (2 ^ 5000))

/-- The number after it. To 512 digits both are the same. -/
def oddPower : Value := .of (.int (2 ^ 5000 + 1))

/-- That number with 512 digits. -/
def roundedPower : Value := .of (.real (.wide ⟨1, 5000⟩))

/-- Whole numbers and one as a fraction, with repetitions, and a number that has been rounded but
equals none of the others. -/
def mixedNumbers : List Value :=
  [.of (.int 3), .of (.int 1), roundedPower, .of (.frac 3), .of (.int 2), .of (.int 1)]

theorem missing_of_mixedNumbers :
    (∀ v ∈ mixedNumbers, v.IsProper) ∧
    (∀ v ∈ mixedNumbers, v.IsSharpIn (mixedNumbers ++ [.of (.frac 2), .of (.int 1)])) ∧
    missing mixedNumbers [.of (.frac 2), .of (.int 1)] = [.of (.int 3), roundedPower] ∧
    missing mixedNumbers [.of (.frac 2), .of (.int 1)] =
      missing (missing mixedNumbers [.of (.frac 2)]) [.of (.int 1)] ∧
    missing mixedNumbers [.of (.frac 2), .of (.int 1)] =
      (Value.firsts mixedNumbers).filter fun v =>
        !Value.occursIn [.of (.frac 2), .of (.int 1)] v := by
  have hproper : ∀ v ∈ mixedNumbers, v.IsProper := by decide
  have hsharp : ∀ v ∈ mixedNumbers,
      v.IsSharpIn (mixedNumbers ++ [.of (.frac 2), .of (.int 1)]) := by decide +kernel
  have hlaw := (missing_isDifference mixedNumbers [.of (.frac 2), .of (.int 1)] hproper).1
  exact ⟨hproper, hsharp, by decide +kernel, hlaw.inStages hsharp [_] [_] rfl, hlaw.firsts hsharp⟩

/-- A constant with a rounded value, and one with a value that equals it. -/
def roundedConstants : List Literal := [⟨roundedPower, "Rounded", 1⟩, ⟨oddPower, "Odd", 2⟩]

/-- `x` is one of the two, and the constant `e` equals the first of them, but not the second. -/
def shapesOfRounded : Shapes :=
  shapesOfTexts [("x", .union (roundedConstants.map .literal)),
    ("e", .literal ⟨evenPower, "e", 3⟩), ("c", .literal ⟨.of (.int 3), "c", 4⟩)]

/-- What is recognised in a construct that compares `x` with constants. -/
def roundedMatch (handled : List Value) : Match := ⟨.ident ⟨0, [0x78]⟩, roundedConstants, handled⟩

/-- The rounded value is not sharp: it equals `2 ^ 5000`, which is handled, and `2 ^ 5000 + 1`,
which is not. So the latter is missing though an earlier value of the domain equals it, and the
rounded value is handled and equals a missing one. In stages nothing is missing, and none of the
distinct values of the union is unhandled. -/
theorem missing_at_rounded :
    (∀ v ∈ [roundedPower, oddPower, evenPower], v.IsProper) ∧
    missing [roundedPower, oddPower] [evenPower] = [oddPower] ∧
    missing [roundedPower, oddPower] [evenPower] ≠
      (Value.firsts [roundedPower, oddPower]).filter (fun v => !Value.occursIn [evenPower] v) ∧
    (missing [roundedPower, oddPower] [evenPower]).countP roundedPower.same ≠
      (if Value.occursIn [evenPower] roundedPower then 0 else 1) ∧
    missing [roundedPower, oddPower] ([] ++ [evenPower]) ≠
      missing (missing [roundedPower, oddPower] []) [evenPower] ∧
    some (missing (roundedConstants.map (·.value)) [evenPower]) ≠
      (Shape.union (roundedConstants.map .literal)).closedValues?.map
        (·.filter fun v => !Value.occursIn [evenPower] v) := by
  decide +kernel

end CaseCover
