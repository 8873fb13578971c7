import CaseCover.Analysis
import CaseCover.Proofs.Source.Preorder

/-!
# Links and the turns at which they are visited

`linksAt n s` gives the links of the chain of `s` together with turns, counted from the turn `n` of
`s` itself. In a list of statements in depth-first order these turns are right: the list has each
link at its turn (`getElem?_of_mem_linksAt`). A link is the else part of at most one statement, so
two chains that share a link are one chain from there on (`mem_linksAt_of_mem_laterTurns`).
-/

namespace CaseCover.Analysis

/-- The statements inside an if statement that come before its else part. -/
def inside : Stmt → List Stmt
  | .ifChain _ init cond body _ => init.statements ++ cond.statements ++ body.statements
  | _ => []

/-- The else part of an if statement. -/
def elsePart : Stmt → Stmt
  | .ifChain _ _ _ _ other => other
  | s => s

/-- An if statement, with all its parts. -/
def IsIf (s : Stmt) : Prop := ∃ pos init cond body other, s = .ifChain pos init cond body other

/-! ## Chains as lists -/

/-- The chain of an if statement goes on with that of its else part. -/
theorem linksAt_of_isIf {s : Stmt} (hs : IsIf s) (n : Nat) :
    linksAt n s = (n, s) :: linksAt (n + 1 + (inside s).length) (elsePart s) := by
  obtain ⟨pos, init, cond, body, other, rfl⟩ := hs
  rw [linksAt]
  rfl

theorem linksAt_of_not_isIf {s : Stmt} (hs : ¬ IsIf s) (n : Nat) : linksAt n s = [] := by
  cases s with
  | ifChain pos init cond body other => exact absurd ⟨pos, init, cond, body, other, rfl⟩ hs
  | _ => rfl

/-- Induction along the links of a chain. -/
theorem linksAt_induct {motive : Nat → Stmt → Prop}
    (link : ∀ n s, IsIf s → motive (n + 1 + (inside s).length) (elsePart s) → motive n s)
    (stop : ∀ n s, ¬ IsIf s → motive n s) (n : Nat) (s : Stmt) : motive n s := by
  fun_induction linksAt n s with
  | case1 n pos init cond body other inside ih => exact link n _ ⟨_, _, _, _, _, rfl⟩ ih
  | case2 s n hs =>
    refine stop n s ?_
    rintro ⟨pos, init, cond, body, other, rfl⟩
    exact hs _ _ _ _ _ rfl

theorem mem_linksAt_self {s : Stmt} (hs : IsIf s) (n : Nat) : (n, s) ∈ linksAt n s := by
  rw [linksAt_of_isIf hs]
  exact List.mem_cons_self

theorem mem_linksAt_of_else {n k : Nat} {s t : Stmt} (hs : IsIf s)
    (h : (k, t) ∈ linksAt (n + 1 + (inside s).length) (elsePart s)) : (k, t) ∈ linksAt n s := by
  rw [linksAt_of_isIf hs]
  exact List.mem_cons_of_mem _ h

/-- Induction from a link back to the start of the chain. -/
theorem mem_linksAt_induct {k : Nat} {t : Stmt}
    {motive : (n : Nat) → (s : Stmt) → (k, t) ∈ linksAt n s → Prop}
    (self : ∀ ht : IsIf t, motive k t (mem_linksAt_self ht k))
    (link : ∀ n s (hs : IsIf s) (h : (k, t) ∈ linksAt (n + 1 + (inside s).length) (elsePart s)),
      motive _ _ h → motive n s (mem_linksAt_of_else hs h))
    {n : Nat} {s : Stmt} (h : (k, t) ∈ linksAt n s) : motive n s h := by
  induction n, s using linksAt_induct with
  | link n s hs ih =>
    have hmem := h
    rw [linksAt_of_isIf hs] at hmem
    rcases List.mem_cons.mp hmem with heq | hlater
    · cases heq
      exact self hs
    · exact link n s hs hlater (ih hlater)
  | stop n s hs =>
    rw [linksAt_of_not_isIf hs] at h
    cases h

theorem isIf_of_mem_linksAt {n k : Nat} {s t : Stmt} (h : (k, t) ∈ linksAt n s) : IsIf t := by
  induction h using mem_linksAt_induct with
  | self ht => exact ht
  | link n s hs h ih => exact ih

/-- The chain of a link is the rest of the chain that it belongs to. -/
theorem linksAt_suffix {n k : Nat} {s t : Stmt} (h : (k, t) ∈ linksAt n s) :
    linksAt k t <:+ linksAt n s := by
  induction h using mem_linksAt_induct with
  | self ht => exact List.suffix_rfl
  | link n s hs h ih =>
    rw [linksAt_of_isIf hs]
    exact ih.trans (List.suffix_cons _ _)

/-- The later turns are those of all links but the first one. -/
theorem mem_laterTurns_iff {n k : Nat} {s : Stmt} :
    k ∈ laterTurns n s ↔ ∃ t, (k, t) ∈ (linksAt n s).drop 1 := by
  rw [laterTurns, List.mem_map]
  constructor
  · rintro ⟨⟨k, t⟩, h, rfl⟩
    exact ⟨t, h⟩
  · rintro ⟨t, h⟩
    exact ⟨(k, t), h, rfl⟩

theorem mem_laterTurns_of_ne {n k : Nat} {s t : Stmt} (h : (k, t) ∈ linksAt n s) (hne : k ≠ n) :
    k ∈ laterTurns n s := by
  refine mem_laterTurns_iff.mpr ⟨t, ?_⟩
  by_cases hs : IsIf s
  · rw [linksAt_of_isIf hs] at h ⊢
    rcases List.mem_cons.mp h with h | h
    · cases h
      exact absurd rfl hne
    · exact h
  · rw [linksAt_of_not_isIf hs] at h
    cases h

/-- What comes after a later link comes after the first one, too. -/
theorem laterTurns_subset {n k : Nat} {s t : Stmt} (h : (k, t) ∈ linksAt n s) :
    laterTurns k t ⊆ laterTurns n s := by
  intro i hi
  obtain ⟨u, hu⟩ := mem_laterTurns_iff.mp hi
  obtain ⟨front, hfront⟩ := linksAt_suffix h
  refine mem_laterTurns_iff.mpr ⟨u, ?_⟩
  rw [← hfront]
  cases front with
  | nil => exact hu
  | cons l front => exact List.mem_append_right front (List.mem_of_mem_drop hu)

/-- A link after the first one is the else part of a link before it. -/
theorem exists_link_before {n k : Nat} {s t : Stmt} (h : (k, t) ∈ linksAt n s) :
    (k, t) = (n, s) ∨
      ∃ j u, (j, u) ∈ linksAt n s ∧ k = j + 1 + (inside u).length ∧ elsePart u = t := by
  induction h using mem_linksAt_induct with
  | self ht => exact Or.inl rfl
  | link n s hs h ih =>
    right
    rcases ih with heq | ⟨j, u, hu, hk, ht⟩
    · cases heq
      exact ⟨n, s, mem_linksAt_self hs n, rfl, rfl⟩
    · exact ⟨j, u, mem_linksAt_of_else hs hu, hk, ht⟩

theorem le_of_mem_linksAt {n k : Nat} {s t : Stmt} (h : (k, t) ∈ linksAt n s) : n ≤ k := by
  induction h using mem_linksAt_induct with
  | self ht => exact Nat.le_refl _
  | link n s hs h ih => omega

theorem lt_of_mem_laterTurns {n k : Nat} {s : Stmt} (h : k ∈ laterTurns n s) : n < k := by
  obtain ⟨t, ht⟩ := mem_laterTurns_iff.mp h
  by_cases hs : IsIf s
  · rw [linksAt_of_isIf hs] at ht
    have := le_of_mem_linksAt ht
    omega
  · rw [linksAt_of_not_isIf hs] at ht
    cases ht

/-- Later links have later turns. -/
theorem linksAt_pairwise (n : Nat) (s : Stmt) :
    (linksAt n s).Pairwise fun l l' => l.1 < l'.1 := by
  induction n, s using linksAt_induct with
  | link n s hs ih =>
    rw [linksAt_of_isIf hs]
    refine List.pairwise_cons.mpr ⟨fun l hl => ?_, ih⟩
    have := le_of_mem_linksAt hl
    dsimp only
    omega
  | stop n s hs =>
    rw [linksAt_of_not_isIf hs]
    exact List.Pairwise.nil

/-- Of two links of a chain, the one with the later turn comes after the other. -/
theorem mem_laterTurns_of_lt {n j k : Nat} {s t u : Stmt} (ht : (j, t) ∈ linksAt n s)
    (hu : (k, u) ∈ linksAt n s) (hlt : j < k) : k ∈ laterTurns j t := by
  induction ht using mem_linksAt_induct with
  | self ht => exact mem_laterTurns_of_ne hu (by omega)
  | link n s hs h ih =>
    rw [linksAt_of_isIf hs] at hu
    rcases List.mem_cons.mp hu with heq | hu
    · cases heq
      have := le_of_mem_linksAt h
      omega
    · exact ih hu

/-- The links are those that are found by going along the chain. -/
theorem map_linksAt_of_linksFrom {n : Nat} {s : Stmt} {found : List Stmt}
    (h : linksFrom s = .ok found) : (linksAt n s).map (·.2) = found := by
  induction n, s using linksAt_induct generalizing found with
  | link n s hs ih =>
    rw [linksAt_of_isIf hs]
    obtain ⟨pos, init, cond, body, other, rfl⟩ := hs
    rw [linksFrom] at h
    cases hother : linksFrom other with
    | error e =>
      rw [hother] at h
      cases h
    | ok rest =>
      rw [hother] at h
      cases h
      rw [List.map_cons, ih hother]
  | stop n s hs =>
    rw [linksAt_of_not_isIf hs]
    cases s with
    | ifChain pos init cond body other => exact absurd ⟨pos, init, cond, body, other, rfl⟩ hs
    | bareIf => cases h
    | _ =>
      cases h
      rfl

/-- The links after the first one are the later links of the statement. -/
theorem map_linksAt_of_laterLinks {n : Nat} {s : Stmt} {found : List Stmt}
    (h : s.laterLinks = .ok found) : ((linksAt n s).drop 1).map (·.2) = found := by
  by_cases hs : IsIf s
  · rw [linksAt_of_isIf hs]
    obtain ⟨pos, init, cond, body, other, rfl⟩ := hs
    exact map_linksAt_of_linksFrom h
  · rw [linksAt_of_not_isIf hs]
    cases s with
    | ifChain pos init cond body other => exact absurd ⟨pos, init, cond, body, other, rfl⟩ hs
    | _ =>
      cases h
      rfl

/-! ## Chains in a list in depth-first order -/

/-- An if statement is visited before what is inside it, and its else part last. -/
theorem statements_of_isIf {s : Stmt} (hs : IsIf s) :
    s.statements = s :: (inside s ++ (elsePart s).statements) := by
  obtain ⟨pos, init, cond, body, other, rfl⟩ := hs
  simp [Stmt.statements, inside, elsePart]

theorem nested_inside (s : Stmt) : Nested (inside s) := by
  unfold inside
  split
  · next pos init cond body other =>
    exact ((SourcePart.stmt init).nested_statements.append
      (SourcePart.expr cond).nested_statements).append (SourcePart.stmt body).nested_statements
  · exact Nested.nil

/-- What is visited of files is nested. -/
theorem nested_visited (files : List SourceFile) : Nested (visited files) :=
  Nested.flatMap fun f _ => (SourcePart.file f).nested_statements

/-- What is visited from the turn of a link on starts with the link. -/
theorem prefix_of_mem_linksAt {all : List Stmt} {n k : Nat} {s t : Stmt}
    (hs : s.statements <+: all.drop n) (h : (k, t) ∈ linksAt n s) :
    t.statements <+: all.drop k := by
  induction h using mem_linksAt_induct with
  | self ht => exact hs
  | link n s hif h ih =>
    -- the else part follows all that is inside the if statement
    refine ih ?_
    obtain ⟨rest, hrest⟩ := hs
    rw [statements_of_isIf hif] at hrest
    refine ⟨rest, ?_⟩
    rw [show n + 1 + (inside s).length = n + (1 + (inside s).length) by omega, ← List.drop_drop,
      ← hrest, Nat.add_comm 1, List.cons_append, List.drop_succ_cons, List.append_assoc,
      List.drop_left]

/-- Each link of a chain is visited at its turn. -/
theorem getElem?_of_mem_linksAt {all : List Stmt} (hall : Nested all) {n k : Nat} {s t : Stmt}
    (hs : all[n]? = some s) (h : (k, t) ∈ linksAt n s) : all[k]? = some t := by
  obtain ⟨rest, hrest⟩ := prefix_of_mem_linksAt (hall n s hs) h
  rw [statements_of_isIf (isIf_of_mem_linksAt h)] at hrest
  have : (all.drop k)[0]? = some t := by
    rw [← hrest]
    rfl
  simpa using this

/-- What is visited at a later turn of a chain is the link of that turn. -/
theorem mem_linksAt_of_getElem? {all : List Stmt} (hall : Nested all) {n k : Nat} {s t : Stmt}
    (hs : all[n]? = some s) (ht : all[k]? = some t) (h : k ∈ laterTurns n s) :
    (k, t) ∈ linksAt n s := by
  obtain ⟨u, hu⟩ := mem_laterTurns_iff.mp h
  have hu := List.mem_of_mem_drop hu
  rw [getElem?_of_mem_linksAt hall hs hu] at ht
  cases ht
  exact hu

/-- An if statement inside another one has its else part inside it as well. -/
theorem elseTurn_lt {all : List Stmt} (hall : Nested all) {i j : Nat} {t u : Stmt}
    (ht : all[i]? = some t) (hu : all[j]? = some u) (hift : IsIf t) (hifu : IsIf u)
    (helse : IsIf (elsePart u)) (hij : i < j) (hj : j < i + 1 + (inside t).length) :
    j + 1 + (inside u).length < i + 1 + (inside t).length := by
  obtain ⟨rest, hrest⟩ := hall i t ht
  rw [statements_of_isIf hift] at hrest
  have hp : (inside t)[j - (i + 1)]? = some u := by
    have hdrop : (all.drop i)[j - i]? = some u := by
      rw [List.getElem?_drop, show i + (j - i) = j by omega]
      exact hu
    rw [← hrest, show j - i = (j - (i + 1)) + 1 by omega, List.cons_append,
      List.getElem?_cons_succ, List.append_assoc, List.getElem?_append_left (by omega)] at hdrop
    exact hdrop
  have hlen := (nested_inside t _ u hp).length_le
  rw [statements_of_isIf hifu, statements_of_isIf helse] at hlen
  simp only [List.length_cons, List.length_append, List.length_drop] at hlen
  omega

/-- An else part that is a link belongs to one if statement only. -/
theorem elseTurn_inj {all : List Stmt} (hall : Nested all) {i j : Nat} {t u : Stmt}
    (ht : all[i]? = some t) (hu : all[j]? = some u) (hift : IsIf t) (hifu : IsIf u)
    (helset : IsIf (elsePart t)) (helseu : IsIf (elsePart u))
    (h : i + 1 + (inside t).length = j + 1 + (inside u).length) : i = j := by
  -- the one that comes second lies inside the first, and then its else part comes earlier
  rcases Nat.lt_trichotomy i j with hlt | heq | hgt
  · have := elseTurn_lt hall ht hu hift hifu helseu hlt (by omega)
    omega
  · exact heq
  · have := elseTurn_lt hall hu ht hifu hift helset hgt (by omega)
    omega

/-- An if statement that is not the else part of another one. -/
def IsHead (all : List Stmt) (n : Nat) : Prop := ∀ i t, all[i]? = some t → n ∉ laterTurns i t

/-- A chain that shares a link with the chain of a head lies within it. -/
theorem mem_linksAt_of_mem_laterTurns {all : List Stmt} (hall : Nested all) {n i k : Nat}
    {s t u : Stmt} (hs : all[n]? = some s) (hhead : IsHead all n) (ht : all[i]? = some t)
    (hu : (k, u) ∈ linksAt n s) (hk : k ∈ laterTurns i t) : (i, t) ∈ linksAt n s := by
  induction k using Nat.strongRecOn generalizing u with
  | _ k ih =>
    obtain ⟨u', hu'⟩ := mem_laterTurns_iff.mp hk
    have hu' := List.mem_of_mem_drop hu'
    -- the link before `k`, seen from both chains
    rcases exists_link_before hu with h | ⟨j, v, hv, hkj, hve⟩
    · cases h
      exact absurd hk (hhead i t ht)
    rcases exists_link_before hu' with h | ⟨j', v', hv', hkj', hve'⟩
    · cases h
      have := lt_of_mem_laterTurns hk
      omega
    have hvis := getElem?_of_mem_linksAt hall hs hv
    have hvis' := getElem?_of_mem_linksAt hall ht hv'
    obtain rfl : j = j' := elseTurn_inj hall hvis hvis' (isIf_of_mem_linksAt hv)
      (isIf_of_mem_linksAt hv') (by rw [hve]; exact isIf_of_mem_linksAt hu)
      (by rw [hve']; exact isIf_of_mem_linksAt hu') (by omega)
    obtain rfl : v = v' := by
      rw [hvis] at hvis'
      exact Option.some.inj hvis'
    by_cases hji : j = i
    · subst hji
      rw [hvis] at ht
      cases ht
      exact hv
    · exact ih j (by omega) hv (mem_laterTurns_of_ne hv' hji)

/-- Every if statement is a link of the chain of a head. -/
theorem exists_head {all : List Stmt} (hall : Nested all) {k : Nat} {t : Stmt}
    (ht : all[k]? = some t) (hif : IsIf t) :
    ∃ n s, all[n]? = some s ∧ IsHead all n ∧ (k, t) ∈ linksAt n s := by
  induction k using Nat.strongRecOn generalizing t with
  | _ k ih =>
    by_cases hhead : IsHead all k
    · exact ⟨k, t, ht, hhead, mem_linksAt_self hif k⟩
    · simp only [IsHead, Classical.not_forall, Classical.not_not] at hhead
      obtain ⟨i, u, hu, hk⟩ := hhead
      have hlink := mem_linksAt_of_getElem? hall hu ht hk
      have hifu : IsIf u := by
        by_cases h : IsIf u
        · exact h
        · rw [linksAt_of_not_isIf h] at hlink
          cases hlink
      obtain ⟨n, s, hs, hhead, hmem⟩ := ih i (lt_of_mem_laterTurns hk) hu hifu
      exact ⟨n, s, hs, hhead, (linksAt_suffix hmem).subset hlink⟩

end CaseCover.Analysis
