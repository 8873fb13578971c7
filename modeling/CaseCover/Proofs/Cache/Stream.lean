import CaseCover.Proofs.Cache.Validity

/-!
# What the stream of a fingerprint tells

A fingerprint is made from one stream of bytes, in which each file stands as its name, a zero byte
and its content. Nothing marks where a content ends and the next name begins, so two directories can
have one stream. That happens exactly if, after files that both have, a file of the one is longer,
and what it has more reads in the other as further files (`stream_eq_iff_or_overlaps`).

Without zero bytes in the contents the stream is cut at the zero bytes into segments, in which a
content and the next name stand together (`stream_eq_iff_segments`). Then the number of files shows,
and so does every change under the same names. A line break at the end of each content tells it from
the name behind it, so that the stream tells everything (`eq_of_segments_of_endsLines`).
-/

namespace CaseCover.Fingerprint

/-- The source files of a directory with their contents, in the strict order of their names. -/
structure IsListing (files : List (Text × Text)) : Prop where
  sorted : files.Pairwise fun f g => Text.less f.1 g.1 = true
  source : ∀ f ∈ files, Text.endsWith f.1 FileTree.sourceExt = true
  noZero : ∀ f ∈ files, 0 ∉ f.1

/-- Two directories have the same files up to one that is longer in the first, by bytes that read as
the start of further files in the second. -/
def Overlaps (fs gs : List (Text × Text)) : Prop :=
  ∃ front name content more fs' gs', more ≠ [] ∧ fs = front ++ (name, content ++ more) :: fs' ∧
    gs = front ++ (name, content) :: gs' ∧ more ++ stream fs' = stream gs'

/-- A text without zero bytes that is empty or ends with a line break. -/
structure EndsLine (content : Text) : Prop where
  noZero : 0 ∉ content
  ends : content = [] ∨ content.getLast? = some 0x0A

/-- The contents end with line breaks, and no name holds one. -/
structure EndsLines (files : List (Text × Text)) : Prop where
  contents : ∀ f ∈ files, EndsLine f.2
  names : ∀ f ∈ files, 0x0A ∉ f.1

/-! ## The first name -/

theorem stream_nil : stream [] = [] := rfl

/-- A file adds its name, a zero byte and its content. -/
theorem stream_cons (name content : Text) (files : List (Text × Text)) :
    stream ((name, content) :: files) = name ++ 0 :: (content ++ stream files) := by
  simp [stream]

theorem stream_append (fs gs : List (Text × Text)) : stream (fs ++ gs) = stream fs ++ stream gs :=
  List.flatMap_append

/-- What stands before the first occurrence of a byte is determined, and so is the rest. -/
theorem append_cons_inj {b : UInt8} {s s' t t' : Text} (hs : b ∉ s) (hs' : b ∉ s') :
    s ++ b :: t = s' ++ b :: t' ↔ s = s' ∧ t = t' := by
  constructor
  · intro h
    induction s generalizing s' with
    | nil =>
      cases s' with
      | nil => exact ⟨rfl, (List.cons.inj h).2⟩
      | cons c s' =>
        obtain ⟨rfl, -⟩ := List.cons.inj h
        exact absurd List.mem_cons_self hs'
    | cons a s ih =>
      cases s' with
      | nil =>
        obtain ⟨rfl, -⟩ := List.cons.inj h
        exact absurd List.mem_cons_self hs
      | cons c s' =>
        rw [List.cons_append, List.cons_append, List.cons.injEq] at h
        obtain ⟨rfl, h⟩ := h
        obtain ⟨rfl, rfl⟩ := ih (List.not_mem_of_not_mem_cons hs)
          (List.not_mem_of_not_mem_cons hs') h
        exact ⟨rfl, rfl⟩
  · rintro ⟨rfl, rfl⟩
    rfl

/-- A text without zero bytes is no stream, and no end of one with something in front of it. -/
theorem ne_append_stream_cons {s : Text} (hs : 0 ∉ s) (front : Text) (f : Text × Text)
    (files : List (Text × Text)) : s ≠ front ++ stream (f :: files) := by
  rintro rfl
  rw [stream_cons] at hs
  exact hs (by simp)

/-! ## Directories with one stream -/

/-- Directories that overlap have the same stream. -/
theorem stream_eq_of_overlaps {fs gs : List (Text × Text)} (h : Overlaps fs gs) :
    stream fs = stream gs := by
  obtain ⟨front, name, content, more, fs', gs', -, rfl, rfl, hmore⟩ := h
  rw [stream_append, stream_append, stream_cons, stream_cons, ← hmore, List.append_assoc]

/-- A file in front of both leaves them overlapping. -/
theorem Overlaps.cons {fs gs : List (Text × Text)} (h : Overlaps fs gs) (f : Text × Text) :
    Overlaps (f :: fs) (f :: gs) := by
  obtain ⟨front, name, content, more, fs', gs', hne, rfl, rfl, hmore⟩ := h
  exact ⟨f :: front, name, content, more, fs', gs', hne, rfl, rfl, hmore⟩

/-- One more file in front, which is longer in the first directory by `more` or not at all. -/
theorem eq_or_overlaps_of_longer (name content : Text) {more : Text} {fs gs : List (Text × Text)}
    (hmore : more ++ stream fs = stream gs)
    (hrest : stream fs = stream gs → fs = gs ∨ Overlaps fs gs ∨ Overlaps gs fs) :
    (name, content ++ more) :: fs = (name, content) :: gs ∨
      Overlaps ((name, content ++ more) :: fs) ((name, content) :: gs) ∨
      Overlaps ((name, content) :: gs) ((name, content ++ more) :: fs) := by
  by_cases hnil : more = []
  · subst hnil
    rw [List.append_nil]
    rcases hrest hmore with rfl | hover | hover
    · exact .inl rfl
    · exact .inr (.inl (hover.cons _))
    · exact .inr (.inr (hover.cons _))
  · exact .inr (.inl ⟨[], name, content, more, fs, gs, hnil, rfl, rfl, hmore⟩)

/-- Two directories have one stream exactly if they are the same, or one overlaps the other. -/
theorem stream_eq_iff_or_overlaps {fs gs : List (Text × Text)} (hfs : ∀ f ∈ fs, 0 ∉ f.1)
    (hgs : ∀ g ∈ gs, 0 ∉ g.1) :
    stream fs = stream gs ↔ fs = gs ∨ Overlaps fs gs ∨ Overlaps gs fs := by
  constructor
  · intro h
    induction fs generalizing gs with
    | nil =>
      cases gs with
      | nil => exact .inl rfl
      | cons g gs => exact absurd h (ne_append_stream_cons List.not_mem_nil [] g gs)
    | cons f fs ih =>
      cases gs with
      | nil => exact absurd h.symm (ne_append_stream_cons List.not_mem_nil [] f fs)
      | cons g gs =>
        obtain ⟨name, content⟩ := f
        obtain ⟨name', content'⟩ := g
        rw [stream_cons, stream_cons,
          append_cons_inj (hfs _ List.mem_cons_self) (hgs _ List.mem_cons_self)] at h
        obtain ⟨rfl, h⟩ := h
        have ih : stream fs = stream gs → fs = gs ∨ Overlaps fs gs ∨ Overlaps gs fs :=
          ih (fun f hf => hfs f (List.mem_cons_of_mem _ hf))
            (fun g hg => hgs g (List.mem_cons_of_mem _ hg))
        -- one content is the start of the other
        rcases List.append_eq_append_iff.mp h with ⟨more, rfl, hmore⟩ | ⟨more, rfl, hmore⟩
        · have hlonger := eq_or_overlaps_of_longer name content hmore.symm
            fun heq => (or_congr eq_comm or_comm).mp (ih heq.symm)
          exact (or_congr eq_comm or_comm).mp hlonger
        · exact eq_or_overlaps_of_longer name content' hmore.symm ih
  · rintro (rfl | hover | hover)
    · rfl
    · exact stream_eq_of_overlaps hover
    · exact (stream_eq_of_overlaps hover).symm

/-! ## Contents without zero bytes -/

/-- What stands between the zero bytes of a stream with something in front of it: each content with
the name that follows it, and the last content. -/
def segments : Text → List (Text × Text) → List Text
  | front, [] => [front]
  | front, (name, content) :: files => (front ++ name) :: segments content files

/-- The names and contents hold no zero byte. -/
def IsZeroFree (files : List (Text × Text)) : Prop := ∀ f ∈ files, 0 ∉ f.1 ∧ 0 ∉ f.2

/-- Without zero bytes in names and contents, streams are equal if what stands between zero bytes
is. -/
theorem stream_eq_iff_segments {fs gs : List (Text × Text)} (hfs : IsZeroFree fs)
    (hgs : IsZeroFree gs) {front front' : Text} (hfront : 0 ∉ front) (hfront' : 0 ∉ front') :
    front ++ stream fs = front' ++ stream gs ↔ segments front fs = segments front' gs := by
  induction fs generalizing gs front front' with
  | nil =>
    cases gs with
    | nil => simp [stream_nil, segments]
    | cons g gs =>
      rw [stream_nil, List.append_nil]
      refine iff_of_false (ne_append_stream_cons hfront front' g gs) ?_
      cases gs <;> simp [segments]
  | cons f fs ih =>
    cases gs with
    | nil =>
      rw [stream_nil, List.append_nil]
      refine iff_of_false (fun h => ne_append_stream_cons hfront' front f fs h.symm) ?_
      cases fs <;> simp [segments]
    | cons g gs =>
      obtain ⟨name, content⟩ := f
      obtain ⟨name', content'⟩ := g
      obtain ⟨⟨hname, hcontent⟩, hfs⟩ := List.forall_mem_cons.mp hfs
      obtain ⟨⟨hname', hcontent'⟩, hgs⟩ := List.forall_mem_cons.mp hgs
      have hlead : 0 ∉ front ++ name := fun h => (List.mem_append.mp h).elim hfront hname
      have hlead' : 0 ∉ front' ++ name' := fun h => (List.mem_append.mp h).elim hfront' hname'
      rw [stream_cons, stream_cons, ← List.append_assoc, ← List.append_assoc,
        append_cons_inj hlead hlead', ih hfs hgs hcontent hcontent', segments, segments,
        List.cons.injEq]

/-- There is a segment before each zero byte and one behind the last one. -/
theorem length_segments (front : Text) (files : List (Text × Text)) :
    (segments front files).length = files.length + 1 := by
  induction files generalizing front with
  | nil => rfl
  | cons f files ih => rw [segments, List.length_cons, ih, List.length_cons]

theorem length_eq_of_segments {fs gs : List (Text × Text)} {front front' : Text}
    (h : segments front fs = segments front' gs) : fs.length = gs.length := by
  have hlength := congrArg List.length h
  rw [length_segments, length_segments] at hlength
  omega

/-- Under the same names, segments tell the contents. -/
theorem eq_of_segments_of_names {fs gs : List (Text × Text)} {front front' : Text}
    (hnames : fs.map (·.1) = gs.map (·.1)) (h : segments front fs = segments front' gs) :
    front = front' ∧ fs = gs := by
  induction fs generalizing gs front front' with
  | nil =>
    obtain rfl := List.map_eq_nil_iff.mp hnames.symm
    exact ⟨List.head_eq_of_cons_eq h, rfl⟩
  | cons f fs ih =>
    cases gs with
    | nil => cases hnames
    | cons g gs =>
      obtain ⟨name, content⟩ := f
      obtain ⟨name', content'⟩ := g
      rw [List.map_cons, List.map_cons, List.cons.injEq] at hnames
      obtain ⟨rfl, hnames⟩ := hnames
      obtain ⟨hlead, hrest⟩ := List.cons.inj h
      obtain ⟨rfl, rfl⟩ := ih hnames hrest
      exact ⟨List.append_cancel_right hlead, rfl⟩

/-! ## Contents that end with line breaks -/

theorem EndsLine.nil : EndsLine [] := ⟨List.not_mem_nil, .inl rfl⟩

/-- The last line break ends the content, and the name begins. -/
theorem EndsLine.append_inj {c d n m : Text} (hc : EndsLine c) (hd : EndsLine d) (hn : 0x0A ∉ n)
    (hm : 0x0A ∉ m) (h : c ++ n = d ++ m) : c = d ∧ n = m := by
  -- what one content has more than the other ends with a line break and starts the other name
  have hnil {c more : Text} (hmore : 0x0A ∉ more) (hends : EndsLine (c ++ more)) : more = [] := by
    rcases hends.ends with hempty | hlast
    · exact (List.append_eq_nil_iff.mp hempty).2
    · rw [List.getLast?_append, Option.or_eq_some_iff] at hlast
      rcases hlast with hlast | ⟨hnone, -⟩
      · exact absurd (List.mem_of_getLast? hlast) hmore
      · exact List.getLast?_eq_none_iff.mp hnone
  rcases List.append_eq_append_iff.mp h with ⟨more, rfl, rfl⟩ | ⟨more, rfl, rfl⟩
  · obtain rfl := hnil (fun hmem => hn (List.mem_append_left m hmem)) hd
    exact ⟨(List.append_nil c).symm, rfl⟩
  · obtain rfl := hnil (fun hmem => hm (List.mem_append_left n hmem)) hc
    exact ⟨List.append_nil d, rfl⟩

/-- If contents end with line breaks and names have none, segments tell them apart, by induction on
the files. -/
theorem eq_of_segments_of_endsLines {fs gs : List (Text × Text)} (hfs : EndsLines fs)
    (hgs : EndsLines gs) {front front' : Text} (hfront : EndsLine front)
    (hfront' : EndsLine front') (h : segments front fs = segments front' gs) :
    front = front' ∧ fs = gs := by
  induction fs generalizing gs front front' with
  | nil =>
    obtain rfl := List.length_eq_zero_iff.mp (length_eq_of_segments h).symm
    exact ⟨List.head_eq_of_cons_eq h, rfl⟩
  | cons f fs ih =>
    cases gs with
    | nil => exact absurd (length_eq_of_segments h) (Nat.succ_ne_zero _)
    | cons g gs =>
      obtain ⟨name, content⟩ := f
      obtain ⟨name', content'⟩ := g
      obtain ⟨hcontent, hcontents⟩ := List.forall_mem_cons.mp hfs.contents
      obtain ⟨hcontent', hcontents'⟩ := List.forall_mem_cons.mp hgs.contents
      obtain ⟨hname, hnames⟩ := List.forall_mem_cons.mp hfs.names
      obtain ⟨hname', hnames'⟩ := List.forall_mem_cons.mp hgs.names
      obtain ⟨hlead, hrest⟩ := List.cons.inj h
      obtain ⟨rfl, rfl⟩ := hfront.append_inj hfront' hname hname' hlead
      obtain ⟨rfl, rfl⟩ := ih ⟨hcontents, hnames⟩ ⟨hcontents', hnames'⟩ hcontent hcontent' hrest
      exact ⟨rfl, rfl⟩

/-! ## What a fingerprint tells -/

theorem IsListing.isZeroFree {files : List (Text × Text)} (h : IsListing files)
    (hcontents : ∀ f ∈ files, 0 ∉ f.2) : IsZeroFree files :=
  fun f hf => ⟨h.noZero f hf, hcontents f hf⟩

theorem segments_of_stream_eq {fs gs : List (Text × Text)} (hfs : IsZeroFree fs)
    (hgs : IsZeroFree gs) (h : stream fs = stream gs) : segments [] fs = segments [] gs :=
  (stream_eq_iff_segments hfs hgs List.not_mem_nil List.not_mem_nil).mp h

/-- Where digests of different streams differ, a fingerprint stays the same exactly if the stream
does. -/
theorem ofDir_eq_iff_stream {t u : FileTree} {dir : Text} {fs gs : List (Text × Text)}
    (hfs : sources t dir = .ok fs) (hgs : sources u dir = .ok gs)
    (hfree : Md5.hexDigest (stream fs) = Md5.hexDigest (stream gs) → stream fs = stream gs) :
    ofDir t dir = ofDir u dir ↔ stream fs = stream gs := by
  have ht : ofDir t dir = .ok (Md5.hexDigest (stream fs)) := by
    rw [ofDir, hfs]
    rfl
  have hu : ofDir u dir = .ok (Md5.hexDigest (stream gs)) := by
    rw [ofDir, hgs]
    rfl
  rw [ht, hu, Except.ok.injEq]
  exact ⟨hfree, congrArg Md5.hexDigest⟩

/-- Two directories have one stream exactly if they are the same, or one of them has a longer file
whose surplus reads as further files in the other. Without zero bytes in the contents, one stream
means the same number of files, and under the same names the same contents. If in addition the
contents end with line breaks, which no name holds, it means the same files. Where digests of
different streams differ, all of this is true of fingerprints. -/
theorem stream_identifies {fs gs : List (Text × Text)} (hfs : IsListing fs) (hgs : IsListing gs) :
    (stream fs = stream gs ↔ fs = gs ∨ Overlaps fs gs ∨ Overlaps gs fs) ∧
    ((∀ f ∈ fs, 0 ∉ f.2) → (∀ g ∈ gs, 0 ∉ g.2) → stream fs = stream gs →
      fs.length = gs.length ∧ (fs.map (·.1) = gs.map (·.1) → fs = gs)) ∧
    (EndsLines fs → EndsLines gs → stream fs = stream gs → fs = gs) ∧
    ∀ t u dir, sources t dir = .ok fs → sources u dir = .ok gs →
      (Md5.hexDigest (stream fs) = Md5.hexDigest (stream gs) → stream fs = stream gs) →
      (ofDir t dir = ofDir u dir ↔ stream fs = stream gs) := by
  refine ⟨stream_eq_iff_or_overlaps hfs.noZero hgs.noZero, fun hzero hzero' h => ?_,
    fun hends hends' h => ?_, fun t u dir => ofDir_eq_iff_stream⟩
  · have hsegments := segments_of_stream_eq (hfs.isZeroFree hzero) (hgs.isZeroFree hzero') h
    exact ⟨length_eq_of_segments hsegments,
      fun hnames => (eq_of_segments_of_names hnames hsegments).2⟩
  · have hsegments := segments_of_stream_eq
      (hfs.isZeroFree fun f hf => (hends.contents f hf).noZero)
      (hgs.isZeroFree fun g hg => (hends'.contents g hg).noZero) h
    exact (eq_of_segments_of_endsLines hends hends' .nil .nil hsegments).2

/-- Two files, with what the second one holds. -/
def twoFiles (second : Text) : List (Text × Text) :=
  [("a.go", "package p\n"), ("b.go", second)]

theorem stream_identifies_twoFiles :
    IsListing (twoFiles "") ∧ IsListing (twoFiles "package p\n") ∧
    EndsLines (twoFiles "") ∧ EndsLines (twoFiles "package p\n") ∧
    stream (twoFiles "") ≠ stream (twoFiles "package p\n") := by
  have hfs : IsListing (twoFiles "") := ⟨by decide, by decide, by decide⟩
  have hgs : IsListing (twoFiles "package p\n") := ⟨by decide, by decide, by decide⟩
  have hends : EndsLines (twoFiles "") := by
    refine ⟨fun f hf => ⟨?_, ?_⟩, by decide⟩ <;> revert f <;> decide
  have hends' : EndsLines (twoFiles "package p\n") := by
    refine ⟨fun f hf => ⟨?_, ?_⟩, by decide⟩ <;> revert f <;> decide
  refine ⟨hfs, hgs, hends, hends', fun h => ?_⟩
  have heq := (stream_identifies hfs hgs).2.2.1 hends hends' h
  exact absurd heq (by decide)

/-- A comment without a line break at the end of a file runs into the name of the next file. -/
theorem not_stream_injective :
    ¬ ∀ fs gs : List (Text × Text), IsListing fs → IsListing gs → stream fs = stream gs →
      fs = gs := by
  intro h
  have heq := h [("a.go", "package p\n//x"), ("b.go", "package p\n")]
    [("a.go", "package p\n//"), ("xb.go", "package p\n")]
    ⟨by decide, by decide, by decide⟩ ⟨by decide, by decide, by decide⟩ (by decide)
  exact absurd heq (by decide)

end CaseCover.Fingerprint
