import CaseCover.Proofs.Cache.Sources

/-!
# When the cache answers

A cache is used while files come, change and go. Whatever happened before, the entry of a directory
is the one made by the latest event that settled it: an insertion that succeeded or an erasure
(`lookup_run`). So the cache answers exactly if that event was an insertion and the fingerprint is
the same now (`answer_run_iff`).

The fingerprint is made of the source files of the directory only if the path of the directory
stands for itself in a pattern. In a directory like `p[x]` files change and the cache answers.
-/

namespace CaseCover

namespace Cache

/-! ## Entries -/

theorem lookup_erase (c : Cache) (dir d : Text) :
    (c.erase dir).entries.lookup d = if d = dir then none else c.entries.lookup d := by
  obtain ⟨entries⟩ := c
  simp only [erase]
  induction entries with
  | nil => simp
  | cons e entries ih =>
    obtain ⟨k, entry⟩ := e
    by_cases hk : k = dir
    · -- the entry goes, and another directory does not look at it
      rw [List.filter_cons_of_neg (by simp [hk]), ih, List.lookup_cons, hk]
      split
      · rfl
      · next hd => rw [beq_eq_false_iff_ne.mpr hd]
    · rw [List.filter_cons_of_pos (by simpa using hk), List.lookup_cons, List.lookup_cons, ih]
      by_cases hd : d = k
      · simp [hd, hk]
      · rw [beq_eq_false_iff_ne.mpr hd]

theorem lookup_insert {c c' : Cache} {t : FileTree} {dir : Text} {issues : List Issue}
    (h : c.insert t dir issues = .ok c') (d : Text) :
    c'.entries.lookup d =
      if d = dir then (Fingerprint.ofDir t dir).toOption.map fun hash => ⟨hash, issues⟩
      else c.entries.lookup d := by
  rw [insert] at h
  cases hhash : Fingerprint.ofDir t dir with
  | error e =>
    rw [hhash] at h
    cases h
  | ok hash =>
    rw [hhash] at h
    cases h
    rw [List.lookup_cons]
    by_cases hd : d = dir
    · simp [hd, Except.toOption]
    · rw [beq_eq_false_iff_ne.mpr hd, if_neg hd]
      exact (lookup_erase c dir d).trans (if_neg hd)

/-- The cache answers with the issues of the entry, if the fingerprint is the one of the entry. -/
theorem get?_eq_some_iff (c : Cache) (t : FileTree) (dir : Text) (issues : List Issue) :
    c.get? t dir = some issues ↔
      ∃ hash, Fingerprint.ofDir t dir = .ok hash ∧ c.entries.lookup dir = some ⟨hash, issues⟩ := by
  rw [get?]
  cases Fingerprint.ofDir t dir with
  | error e => simp
  | ok hash =>
    cases c.entries.lookup dir with
    | none => simp
    | some entry =>
      obtain ⟨hash', issues'⟩ := entry
      simp only [beq_iff_eq, Except.ok.injEq, exists_eq_left', Option.some.injEq, Entry.mk.injEq]
      split <;> simp_all

/-! ## Histories -/

/-- What happens to a cache and to the files it is about. -/
inductive Event where
  | insert (dir : Text) (issues : List Issue)
  | get (dir : Text)
  | erase (dir : Text)
  | edit (change : FileTree → FileTree)

/-- A cache and the files at one moment. -/
structure Moment where
  cache : Cache
  tree : FileTree

namespace Moment

/-- Nothing is remembered yet. -/
def start (t : FileTree) : Moment := ⟨Cache.empty, t⟩

/-- The next moment. A directory that cannot be remembered leaves the cache as it is. -/
def after (m : Moment) : Event → Moment
  | .insert dir issues =>
    match m.cache.insert m.tree dir issues with
    | .ok cache => { m with cache }
    | .error _ => m
  | .get _ => m
  | .erase dir => { m with cache := m.cache.erase dir }
  | .edit change => { m with tree := change m.tree }

/-- The moment after some events. -/
def run (m : Moment) (events : List Event) : Moment := events.foldl after m

theorem tree_after (m : Moment) (e : Event) :
    (m.after e).tree = match e with
      | .edit change => change m.tree
      | _ => m.tree := by
  cases e with
  | insert dir issues =>
    rw [after]
    split <;> rfl
  | get dir => rfl
  | erase dir => rfl
  | edit change => rfl

/-- An insertion for a directory that succeeds, or an erasure of it. -/
def settles (m : Moment) (dir : Text) : Event → Bool
  | .insert d issues => d == dir && (m.cache.insert m.tree d issues).isOk
  | .erase d => d == dir
  | _ => false

/-- The latest event that settled a directory, with the files at that moment. -/
def latest (dir : Text) : Moment → List Event → Option (FileTree × Event)
  | _, [] => none
  | m, e :: rest =>
    (latest dir (m.after e) rest).or (if m.settles dir e then some (m.tree, e) else none)

/-- The answer of the cache for a directory. -/
def answer (m : Moment) (dir : Text) : Option (List Issue) := m.cache.get? m.tree dir

/-! ## The entry of a directory -/

/-- The entry that an event makes for a directory. -/
def entryOf (dir : Text) (t : FileTree) : Event → Option Entry
  | .insert _ issues => (Fingerprint.ofDir t dir).toOption.map fun hash => ⟨hash, issues⟩
  | _ => none

/-- One event changes the entry of a directory only if it settles it. -/
theorem lookup_after (m : Moment) (dir : Text) (e : Event) :
    (m.after e).cache.entries.lookup dir =
      if m.settles dir e then entryOf dir m.tree e else m.cache.entries.lookup dir := by
  cases e with
  | insert d issues =>
    cases hinsert : m.cache.insert m.tree d issues with
    | error fault => simp [after, settles, hinsert, Except.isOk, Except.toBool]
    | ok cache =>
      have hlookup := lookup_insert hinsert dir
      by_cases hd : d = dir
      · subst hd
        rw [if_pos rfl] at hlookup
        simp only [after, settles, hinsert, hlookup, beq_self_eq_true]
        rfl
      · rw [if_neg (Ne.symm hd)] at hlookup
        simp only [after, settles, hinsert, hlookup, beq_eq_false_iff_ne.mpr hd]
        rfl
  | get d => rfl
  | erase d =>
    have hlookup := lookup_erase m.cache d dir
    by_cases hd : d = dir
    · subst hd
      rw [if_pos rfl] at hlookup
      simp only [after, settles, entryOf, hlookup, beq_self_eq_true, ↓reduceIte]
    · rw [if_neg (Ne.symm hd)] at hlookup
      simp only [after, settles, hlookup, beq_eq_false_iff_ne.mpr hd]
      rfl
  | edit change => rfl

/-- The entry of a directory is the one of the latest event that settled it. -/
theorem lookup_run (m : Moment) (dir : Text) (events : List Event) :
    (m.run events).cache.entries.lookup dir =
      match m.latest dir events with
      | some (t, e) => entryOf dir t e
      | none => m.cache.entries.lookup dir := by
  induction events generalizing m with
  | nil => rfl
  | cons e events ih =>
    rw [run, List.foldl_cons, ← run, ih (m.after e), latest]
    -- a later event decides; without one it is this event, or what was there before
    cases hlater : (m.after e).latest dir events with
    | some settled => rfl
    | none =>
      rw [lookup_after, Option.none_or]
      by_cases hsettles : m.settles dir e = true
      · rw [if_pos hsettles, if_pos hsettles]
      · rw [if_neg hsettles, if_neg hsettles]

/-- What settles a directory is an insertion for it that succeeds, or an erasure. -/
theorem settles_of_latest {m : Moment} {dir : Text} {events : List Event} {t : FileTree} {e : Event}
    (h : m.latest dir events = some (t, e)) :
    e = .erase dir ∨
      ∃ issues hash, e = .insert dir issues ∧ Fingerprint.ofDir t dir = .ok hash := by
  induction events generalizing m with
  | nil => cases h
  | cons e' events ih =>
    rw [latest] at h
    cases hlater : (m.after e').latest dir events with
    | some settled =>
      rw [hlater] at h
      cases h
      exact ih hlater
    | none =>
      rw [hlater, Option.none_or] at h
      split at h
      · next hsettles =>
        cases h
        cases e with
        | insert d issues =>
          rw [settles, Bool.and_eq_true, beq_iff_eq] at hsettles
          obtain ⟨rfl, hok⟩ := hsettles
          rw [insert] at hok
          cases hhash : Fingerprint.ofDir m.tree d with
          | error fault =>
            rw [hhash] at hok
            cases hok
          | ok hash => exact .inr ⟨issues, hash, rfl, rfl⟩
        | get d => cases hsettles
        | erase d =>
          left
          rw [eq_of_beq hsettles]
        | edit change => cases hsettles
      · cases h

/-- The cache answers exactly if the latest event that settled the directory was an insertion, and
the fingerprint is what it was then. -/
theorem answer_run_iff (t₀ : FileTree) (dir : Text) (events : List Event) (issues : List Issue) :
    ((start t₀).run events).answer dir = some issues ↔
      ∃ t, (start t₀).latest dir events = some (t, .insert dir issues) ∧
        Fingerprint.ofDir ((start t₀).run events).tree dir = Fingerprint.ofDir t dir := by
  rw [answer, get?_eq_some_iff, lookup_run]
  cases hlatest : (start t₀).latest dir events with
  | none => simp [start, Cache.empty]
  | some settled =>
    obtain ⟨t, e⟩ := settled
    rcases settles_of_latest hlatest with rfl | ⟨issues', hash, rfl, hhash⟩
    · simp [entryOf]
    · constructor
      · rintro ⟨hash', hnow, hentry⟩
        simp only [entryOf, hhash, Except.toOption, Option.map_some, Option.some.injEq,
          Entry.mk.injEq] at hentry
        obtain ⟨rfl, rfl⟩ := hentry
        exact ⟨t, rfl, hnow.trans hhash.symm⟩
      · rintro ⟨t', heq, hnow⟩
        cases heq
        refine ⟨hash, hnow.trans hhash, ?_⟩
        simp only [entryOf, hhash, Except.toOption, Option.map_some]

end Moment

end Cache

/-! ## Fingerprints and files -/

namespace Fingerprint

/-- The digests of a directory at two moments differ if its lists of files do. -/
def TellsApart (t u : FileTree) (dir : Text) : Prop :=
  ∀ ls ls', sources t dir = .ok ls → sources u dir = .ok ls' →
    Md5.hexDigest (stream ls) = Md5.hexDigest (stream ls') → ls = ls'

theorem tellsApart_of_eq {t u : FileTree} {dir : Text} (h : sources t dir = sources u dir) :
    TellsApart t u dir := by
  intro ls ls' hls hls' _
  rw [hls, hls'] at h
  cases h
  rfl

theorem sources_of_toOption {t : FileTree} {dir : Text} {ls : List (Text × Text)}
    (h : (sources t dir).toOption = some ls) : sources t dir = .ok ls := by
  cases hls : sources t dir with
  | error e =>
    rw [hls] at h
    cases h
  | ok ls' =>
    rw [hls] at h
    cases h
    rfl

theorem ofDir_eq_ok {t : FileTree} {dir hash : Text} (h : ofDir t dir = .ok hash) :
    ∃ ls, sources t dir = .ok ls ∧ hash = Md5.hexDigest (stream ls) := by
  rw [ofDir] at h
  cases hls : sources t dir with
  | error e =>
    rw [hls] at h
    cases h
  | ok ls =>
    rw [hls] at h
    cases h
    exact ⟨ls, rfl, rfl⟩

theorem ofDir_eq_iff {t u : FileTree} {dir hash : Text} (happart : TellsApart t u dir)
    (h : ofDir t dir = .ok hash) : ofDir u dir = ofDir t dir ↔ sources u dir = sources t dir := by
  constructor
  · intro heq
    obtain ⟨ls, hls, hdigest⟩ := ofDir_eq_ok h
    obtain ⟨ls', hls', hdigest'⟩ := ofDir_eq_ok (heq.trans h)
    rw [hls, hls', happart ls ls' hls hls' (hdigest.symm.trans hdigest')]
  · intro heq
    rw [ofDir, heq, ofDir]

end Fingerprint

namespace Cache.Moment

/-- The cache answers with some issues exactly if the latest event that settled the directory
inserted them, and the files that go into the fingerprint are the same. Where the path of the
directory stands for itself these are its source files, and the cache answers exactly as long as
their names and contents are what they were. -/
theorem answer_iff_unchanged (t₀ : FileTree) (dir : Text) (events : List Event)
    (issues : List Issue)
    (happart : ∀ t, (start t₀).latest dir events = some (t, .insert dir issues) →
      Fingerprint.TellsApart t ((start t₀).run events).tree dir) :
    (((start t₀).run events).answer dir = some issues ↔
      ∃ t, (start t₀).latest dir events = some (t, .insert dir issues) ∧
        Fingerprint.sources ((start t₀).run events).tree dir = Fingerprint.sources t dir) ∧
    ((∀ t, t = ((start t₀).run events).tree ∨
        (start t₀).latest dir events = some (t, .insert dir issues) →
        t.Literal dir ∧ t.WellNamed dir) →
      (((start t₀).run events).answer dir = some issues ↔
        ∃ t, (start t₀).latest dir events = some (t, .insert dir issues) ∧
          ((start t₀).run events).tree.SameFiles t dir)) := by
  have hsources : ((start t₀).run events).answer dir = some issues ↔
      ∃ t, (start t₀).latest dir events = some (t, .insert dir issues) ∧
        Fingerprint.sources ((start t₀).run events).tree dir = Fingerprint.sources t dir := by
    rw [answer_run_iff]
    refine exists_congr fun t => and_congr_right fun hlatest => ?_
    rcases settles_of_latest hlatest with h | ⟨_, hash, -, hhash⟩
    · cases h
    · exact Fingerprint.ofDir_eq_iff (happart t hlatest) hhash
  refine ⟨hsources, fun hgood => hsources.trans ?_⟩
  refine exists_congr fun t => and_congr_right fun hlatest => ?_
  have hnow := hgood _ (.inl rfl)
  have hthen := hgood t (.inr hlatest)
  rcases settles_of_latest hlatest with h | ⟨_, hash, -, hhash⟩
  · cases h
  · obtain ⟨ls, hls, -⟩ := Fingerprint.ofDir_eq_ok hhash
    exact FileTree.sources_eq_iff hnow.1 hthen.1 hnow.2 hthen.2 hls

/-! ## A file that comes and goes, and a path with brackets -/

/-- A directory with one source file. -/
def packageTree (dir : Text) : FileTree :=
  (FileTree.empty "/w").put (dir ++ utf8 "/a.go") (.file "package p\n")

theorem latest_insert {t : FileTree} {dir : Text} {issues : List Issue} {later : List Event}
    (hsettles : (start t).settles dir (.insert dir issues) = true)
    (hlater : ((start t).after (.insert dir issues)).latest dir later = none) :
    (start t).latest dir (.insert dir issues :: later) = some (t, .insert dir issues) := by
  rw [latest, hlater, Option.none_or, if_pos hsettles]
  rfl

/-- Issues are remembered, and another file comes and goes. -/
def comeAndGo : List Event :=
  [.insert "p" [], .edit fun t => t.put "p/b.go" (.file "package p\n"), .get "p",
    .edit fun t => t.remove "p/b.go"]

/-- The files are what they were, and the cache answers. -/
theorem answer_after_comeAndGo :
    ((start (packageTree "p")).run comeAndGo).answer "p" = some [] := by
  have hthen : (packageTree "p").entriesAt "p" = [(utf8 "a.go", .file "package p\n")] := rfl
  have hnow : ((start (packageTree "p")).run comeAndGo).tree.entriesAt "p" =
      [(utf8 "a.go", .file "package p\n")] := by
    simp only [run, comeAndGo, List.foldl_cons, List.foldl_nil, tree_after]
    rfl
  have hclean : ((start (packageTree "p")).run comeAndGo).tree.entriesAt (Path.clean "p") =
      ((start (packageTree "p")).run comeAndGo).tree.entriesAt "p" :=
    congrArg (FileTree.entriesAt _) (by decide)
  have hlatest : (start (packageTree "p")).latest "p" comeAndGo =
      some (packageTree "p", .insert "p" []) := latest_insert (by decide +kernel) rfl
  have hgood : ∀ t, t = ((start (packageTree "p")).run comeAndGo).tree ∨
      (start (packageTree "p")).latest "p" comeAndGo = some (t, .insert "p" []) →
      t.Literal "p" ∧ t.WellNamed "p" := by
    rintro t (rfl | ht)
    · exact ⟨⟨by decide, hclean⟩, FileTree.wellNamed_of_single hnow (by decide)⟩
    · rw [hlatest] at ht
      cases ht
      exact ⟨⟨by decide, rfl⟩, FileTree.wellNamed_of_single hthen (by decide)⟩
  have hsame : ((start (packageTree "p")).run comeAndGo).tree.SameFiles (packageTree "p") "p" := by
    intro f
    rw [FileTree.sourceFiles_of_single hthen rfl (by decide) (by decide),
      FileTree.sourceFiles_of_single hnow hclean (by decide) (by decide)]
  have happart : ∀ t, (start (packageTree "p")).latest "p" comeAndGo = some (t, .insert "p" []) →
      Fingerprint.TellsApart t ((start (packageTree "p")).run comeAndGo).tree "p" := by
    intro t ht
    have htgood := hgood t (.inr ht)
    have hnowgood := hgood _ (.inl rfl)
    rcases settles_of_latest ht with h | ⟨_, hash, -, hhash⟩
    · cases h
    · obtain ⟨ls, hls, -⟩ := Fingerprint.ofDir_eq_ok hhash
      rw [hlatest] at ht
      cases ht
      exact Fingerprint.tellsApart_of_eq
        ((FileTree.sources_eq_iff hnowgood.1 htgood.1 hnowgood.2 htgood.2 hls).mpr hsame).symm
  exact ((answer_iff_unchanged _ "p" comeAndGo [] happart).2 hgood).mpr ⟨_, hlatest, hsame⟩

/-- Issues of a directory with brackets in its name are remembered, and its file is written. -/
def writtenOver : List Event :=
  [.insert "p[x]" [], .edit fun t => t.put "p[x]/a.go" (.file "package q\n")]

/-- The pattern of `p[x]` finds files of `px`, so a change in `p[x]` goes unnoticed. -/
theorem answer_after_writtenOver :
    (packageTree "p[x]").Readable "p[x]" ∧
    ((start (packageTree "p[x]")).run writtenOver).tree.Readable "p[x]" ∧
    Fingerprint.TellsApart (packageTree "p[x]")
      ((start (packageTree "p[x]")).run writtenOver).tree "p[x]" ∧
    ¬(((start (packageTree "p[x]")).run writtenOver).answer "p[x]" = some [] ↔
      ∃ t, (start (packageTree "p[x]")).latest "p[x]" writtenOver =
          some (t, .insert "p[x]" []) ∧
        ((start (packageTree "p[x]")).run writtenOver).tree.SameFiles t "p[x]") := by
  have hthen : (packageTree "p[x]").sourceFiles "p[x]" =
      [(utf8 "a.go", some (utf8 "package p\n"))] :=
    FileTree.sourceFiles_of_single rfl rfl (by decide) (by decide)
  have hnow : ((start (packageTree "p[x]")).run writtenOver).tree.sourceFiles "p[x]" =
      [(utf8 "a.go", some (utf8 "package q\n"))] := by
    simp only [run, writtenOver, List.foldl_cons, List.foldl_nil, tree_after]
    exact FileTree.sourceFiles_of_single rfl rfl (by decide) (by decide)
  have hlatest : (start (packageTree "p[x]")).latest "p[x]" writtenOver =
      some (packageTree "p[x]", .insert "p[x]" []) :=
    latest_insert (by decide +kernel) rfl
  have hsources : Fingerprint.sources ((start (packageTree "p[x]")).run writtenOver).tree
      "p[x]" = Fingerprint.sources (packageTree "p[x]") "p[x]" := by
    have hempty : Fingerprint.sources (packageTree "p[x]") "p[x]" = .ok [] :=
      Fingerprint.sources_of_toOption (by decide +kernel)
    rw [hempty]
    refine Fingerprint.sources_of_toOption ?_
    simp only [run, writtenOver, List.foldl_cons, List.foldl_nil, tree_after]
    decide +kernel
  refine ⟨?_, ?_, Fingerprint.tellsApart_of_eq hsources.symm, fun hclaim => ?_⟩
  · rw [FileTree.Readable, hthen]
    decide
  · rw [FileTree.Readable, hnow]
    decide
  have hanswer := (answer_run_iff _ "p[x]" writtenOver []).mpr
    ⟨_, hlatest, by rw [Fingerprint.ofDir, hsources, Fingerprint.ofDir]⟩
  obtain ⟨t, ht, hsame⟩ := hclaim.mp hanswer
  rw [hlatest] at ht
  cases ht
  have hfile := hsame (utf8 "a.go", some (utf8 "package p\n"))
  rw [hthen, hnow] at hfile
  exact absurd (hfile.mpr List.mem_cons_self) (by decide)

end Cache.Moment

end CaseCover
