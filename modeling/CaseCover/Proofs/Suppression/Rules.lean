import CaseCover.Proofs.Suppression.Lines
import CaseCover.Proofs.Text.Characters
import CaseCover.Proofs.Text.Order

/-!
# Rule lists of suppression comments

A suppression comment may name rules in a list behind a colon. The list is trimmed, cut at its
commas, and the pieces are trimmed again; trimming it first changes none of the pieces, so the rules
of the comment are the non-empty names of the list as it stands (`rulesOf?_eq_some_iff`).

No rules at all stand for every rule, as in a comment without a list. A list without any text is
refused before it comes to that, but a list of nothing but commas and white space (`IsNameless`) is
not: its comment suppresses every rule. Any other list suppresses the rules that it names and no
others.
-/

namespace CaseCover

namespace Suppression

/-! ## Lists -/

/-- What a suppression comment with a list of rules starts with. -/
def listMarker : Text := "//nolint:"

/-- The names in a list of rules. -/
def namesIn (list : Text) : List Text := (Text.splitOn "," list).map Text.trim

/-- There is some text in a list of rules, but no name. -/
def IsNameless (list : Text) : Prop := Text.trim list ≠ [] ∧ ∀ n ∈ namesIn list, n = []

instance (list : Text) : Decidable (IsNameless list) := inferInstanceAs (Decidable (_ ∧ _))

theorem namesIn_trim (list : Text) : namesIn (Text.trim list) = namesIn list :=
  Text.map_trim_splitOn_trim (by decide) (by decide) list

/-- The items of a list are the names in it that are not empty. -/
theorem mem_listItems_trim {list r : Text} :
    r ∈ Text.listItems (Text.trim list) ↔ r ≠ [] ∧ r ∈ namesIn list := by
  have hitems : Text.listItems (Text.trim list) =
      (namesIn (Text.trim list)).filter fun item => !item.isEmpty := rfl
  rw [hitems, namesIn_trim, List.mem_filter, Bool.not_eq_true', List.isEmpty_eq_false_iff, and_comm]

theorem mem_ruleSet {names : List Text} {r : Text} : r ∈ ruleSet names ↔ r ∈ names := by
  rw [ruleSet, List.mem_eraseDups]
  exact (Text.sort_perm names).mem_iff

/-- The rules of a list are its names. -/
theorem mem_ruleSet_listItems {list r : Text} :
    r ∈ ruleSet (Text.listItems (Text.trim list)) ↔ r ≠ [] ∧ r ∈ namesIn list :=
  mem_ruleSet.trans mem_listItems_trim

/-- A list without items names nothing. -/
theorem ruleSet_listItems_eq_nil_iff {list : Text} :
    ruleSet (Text.listItems (Text.trim list)) = [] ↔ ∀ n ∈ namesIn list, n = [] := by
  rw [List.eq_nil_iff_forall_not_mem]
  simp only [mem_ruleSet_listItems, not_and, not_imp_not]

theorem trim_ne_nil_of_mem_namesIn {list r : Text} (hr : r ∈ namesIn list) (hne : r ≠ []) :
    Text.trim list ≠ [] := by
  intro htrim
  rw [← namesIn_trim, htrim] at hr
  have hnames : namesIn [] = [[]] := by decide
  rw [hnames, List.mem_singleton] at hr
  exact hne hr

theorem comma_not_mem_of_mem_namesIn {list n : Text} (hn : n ∈ namesIn list) : 0x2C ∉ n := by
  obtain ⟨piece, hpiece, rfl⟩ := List.mem_map.mp hn
  have hcomma : utf8 "," = [0x2C] := by decide
  rw [hcomma, Text.splitOn_singleton] at hpiece
  intro hmem
  exact Text.not_mem_of_mem_splitOn hpiece (Text.mem_of_mem_trim hmem)

theorem stripLead?_list (list : Text) :
    Text.stripLead? marker (listMarker ++ list) = some (0x3A :: list) := by
  have hmarker : listMarker = marker ++ [0x3A] := by decide
  rw [Text.stripLead?_eq_some_iff, hmarker, List.append_assoc]
  rfl

/-- A list of blanks is no list, any other one gives the set of its items. -/
theorem rulesOf?_list (list : Text) :
    rulesOf? (listMarker ++ list) =
      if Text.trim list = [] then none
      else some (ruleSet (Text.listItems (Text.trim list))) := by
  unfold rulesOf?
  rw [stripLead?_list]
  simp

/-- A suppression comment is the bare marker, or it has a list with some text. -/
theorem rulesOf?_eq_some_iff {text : Text} {rules : List Text} :
    rulesOf? text = some rules ↔
      (text = marker ∧ rules = []) ∨
        ∃ list, text = listMarker ++ list ∧ Text.trim list ≠ [] ∧
          rules = ruleSet (Text.listItems (Text.trim list)) := by
  constructor
  · intro h
    unfold rulesOf? at h
    split at h
    · cases h
    · next hmarker =>
      rw [Text.stripLead?_eq_some_iff, List.append_nil] at hmarker
      cases h
      exact .inl ⟨hmarker, rfl⟩
    · next b list hmarker =>
      rw [Text.stripLead?_eq_some_iff] at hmarker
      split at h
      · cases h
      · next hcolon =>
        rw [not_not] at hcolon
        subst hcolon
        have hlist : text = listMarker ++ list := by
          rw [hmarker]
          rfl
        split at h
        · cases h
        · next htrim =>
          cases h
          exact .inr ⟨list, hlist, by simpa using htrim, rfl⟩
  · rintro (⟨rfl, rfl⟩ | ⟨list, rfl, htrim, rfl⟩)
    · decide
    · rw [rulesOf?_list, if_neg htrim]

/-! ## What one comment suppresses -/

/-- The suppression of one comment of a file. -/
def alone (place : Pos → Place) (f : SourceFile) (c : Comment) : Suppression :=
  ofFiles place [{ f with comments := [c] }]

/-- A place lies in the range of a comment of a file. -/
def InRange (place : Pos → Place) (f : SourceFile) (c : Comment) (p : Place) : Prop :=
  (place f.package).filename = p.filename ∧
    (extent place f f.statements c).1 ≤ p.line ∧ p.line ≤ (extent place f f.statements c).2

instance (place : Pos → Place) (f : SourceFile) (c : Comment) (p : Place) :
    Decidable (InRange place f c p) :=
  inferInstanceAs (Decidable (_ ∧ _))

section

variable {place : Pos → Place} {f : SourceFile} {c : Comment} {p : Place} {r : Text}

/-- In its range, a comment suppresses the rules of its list, or all of them if it names none. -/
theorem alone_suppresses_iff :
    (alone place f c).suppresses p r = true ↔
      ∃ rules, rulesOf? c.text = some rules ∧ (rules = [] ∨ r ∈ rules) ∧ InRange place f c p := by
  rw [alone, suppresses_iff]
  constructor
  · rintro ⟨g, hg, hname, d, hd, rules, hrules, hrule, hlines⟩
    rw [List.mem_singleton] at hg
    subst hg
    rw [List.mem_singleton] at hd
    subst hd
    exact ⟨rules, hrules, hrule, hname, hlines⟩
  · rintro ⟨rules, hrules, hrule, hname, hlines⟩
    exact ⟨_, List.mem_singleton_self _, hname, c, List.mem_singleton_self c, rules, hrules, hrule,
      hlines⟩

/-- Files suppress what one of their comments suppresses. -/
theorem suppresses_iff_alone {files : List SourceFile} :
    (ofFiles place files).suppresses p r = true ↔
      ∃ f ∈ files, ∃ c ∈ f.comments, (alone place f c).suppresses p r = true := by
  rw [suppresses_iff]
  simp only [alone_suppresses_iff]
  constructor
  · rintro ⟨f, hf, hname, c, hc, rules, hrules, hrule, hlines⟩
    exact ⟨f, hf, c, hc, rules, hrules, hrule, hname, hlines⟩
  · rintro ⟨f, hf, c, hc, rules, hrules, hrule, hname, hlines⟩
    exact ⟨f, hf, hname, c, hc, rules, hrules, hrule, hlines⟩

/-- A comment with a list of names suppresses the rules among them, where it reaches. -/
theorem alone_suppresses_iff_of_list {list : Text} (hc : c.text = listMarker ++ list)
    (hlist : ¬ IsNameless list) :
    (alone place f c).suppresses p r = true ↔ (r ≠ [] ∧ r ∈ namesIn list) ∧ InRange place f c p := by
  rw [alone_suppresses_iff, hc, rulesOf?_list]
  constructor
  · rintro ⟨rules, hrules, hrule, hrange⟩
    split at hrules
    · cases hrules
    · next htrim =>
      cases hrules
      rw [ruleSet_listItems_eq_nil_iff, mem_ruleSet_listItems] at hrule
      refine ⟨hrule.resolve_left fun hnone => hlist ⟨htrim, hnone⟩, hrange⟩
  · rintro ⟨⟨hne, hr⟩, hrange⟩
    refine ⟨_, if_neg (trim_ne_nil_of_mem_namesIn hr hne), ?_, hrange⟩
    exact .inr (mem_ruleSet_listItems.mpr ⟨hne, hr⟩)

/-- Every rule is suppressed in the range of the bare marker, and of a list without names. -/
theorem forall_alone_suppresses_iff :
    (∀ r, r ≠ [] → (alone place f c).suppresses p r = true) ↔
      (c.text = marker ∨ ∃ list, c.text = listMarker ++ list ∧ IsNameless list) ∧
        InRange place f c p := by
  simp only [alone_suppresses_iff, rulesOf?_eq_some_iff]
  constructor
  · intro h
    -- no list can name a comma, so that its set of rules suppresses this one only if it is empty
    obtain ⟨rules, hrules, hrule, hrange⟩ := h [0x2C] (List.cons_ne_nil _ _)
    refine ⟨?_, hrange⟩
    rcases hrules with ⟨hmarker, -⟩ | ⟨list, hlist, htrim, rfl⟩
    · exact .inl hmarker
    · rw [ruleSet_listItems_eq_nil_iff, mem_ruleSet_listItems] at hrule
      refine .inr ⟨list, hlist, htrim, hrule.resolve_right fun hmem => ?_⟩
      exact comma_not_mem_of_mem_namesIn hmem.2 (List.mem_singleton_self _)
  · rintro ⟨hmarker | ⟨list, hlist, htrim, hnone⟩, hrange⟩ r -
    · exact ⟨[], .inl ⟨hmarker, rfl⟩, .inl rfl, hrange⟩
    · exact ⟨_, .inr ⟨list, hlist, htrim, rfl⟩, .inl (ruleSet_listItems_eq_nil_iff.mpr hnone),
        hrange⟩

end

/-- A comment with a list of rules suppresses the named rules on all its lines and no others, unless
the list has text but no names. The bare marker and such a list are what suppresses every rule. What
a comment suppresses is suppressed whatever the other comments are. -/
theorem suppresses_named_rules (place : Pos → Place) (f : SourceFile) (c : Comment) (p : Place) :
    (∀ list, c.text = listMarker ++ list → ¬ IsNameless list → ∀ r,
      (r ∉ namesIn list → (alone place f c).suppresses p r = false) ∧
      (r ≠ [] → r ∈ namesIn list →
        ((alone place f c).suppresses p r = true ↔ InRange place f c p))) ∧
    ((∀ r, r ≠ [] → (alone place f c).suppresses p r = true) ↔
      (c.text = marker ∨ ∃ list, c.text = listMarker ++ list ∧ IsNameless list) ∧
        InRange place f c p) ∧
    (∀ files, f ∈ files → c ∈ f.comments → ∀ r, (alone place f c).suppresses p r = true →
      (ofFiles place files).suppresses p r = true) := by
  refine ⟨?_, forall_alone_suppresses_iff, ?_⟩
  · intro list htext hlist r
    have hiff : (alone place f c).suppresses p r = true ↔ _ :=
      alone_suppresses_iff_of_list htext hlist
    constructor
    · intro hr
      rw [← Bool.not_eq_true, hiff]
      exact fun h => hr h.1.2
    · intro hne hr
      rw [hiff]
      exact and_iff_right ⟨hne, hr⟩
  · intro files hf hc r hsuppresses
    exact suppresses_iff_alone.mpr ⟨f, hf, c, hc, hsuppresses⟩

/-! ## Lists in a source -/

/-- A source with a comment above a construct. -/
def above (comment : Text) : Text :=
  "package p;type E int;const A E=0\nfunc f(e E)\x7b\n" ++ comment ++ "\nswitch e\x7b\x7d\x7d"

/-- The files and comments of a source, with the way places in it are reported. -/
def commentsOf? (source : Text) : Option (SourceFile × (Pos → Place) × List Comment) :=
  (SourceFile.parse FileSet.empty Engine.sourceName source).toOption.map fun (f, s) =>
    (f, s.place, f.comments)

/-- A place on the line of the construct. -/
def constructPlace : Place := ⟨Engine.sourceName, 0, 4, 1⟩

theorem suppresses_named_rules_twoNames :
    ∃ f place c, commentsOf? (above "//nolint: other, totality-check") = some (f, place, [c]) ∧
      c.text = listMarker ++ utf8 " other, totality-check" ∧
      ¬ IsNameless " other, totality-check" ∧
      utf8 "totality-check" ∈ namesIn " other, totality-check" ∧
      utf8 "totality" ∉ namesIn " other, totality-check" ∧
      InRange place f c constructPlace ∧
      (alone place f c).suppresses constructPlace "totality-check" = true ∧
      (alone place f c).suppresses constructPlace "totality" = false := by
  have hrun : (commentsOf? (above "//nolint: other, totality-check")).map
      (fun (f, place, cs) => cs.map fun c => (c.text, decide (InRange place f c constructPlace))) =
        some [(listMarker ++ utf8 " other, totality-check", true)] := by
    decide +kernel
  obtain ⟨⟨f, place, cs⟩, hparsed, heq⟩ := Option.map_eq_some_iff.mp hrun
  obtain ⟨c, rfl, hc⟩ := List.map_eq_singleton_iff.mp heq
  rw [Prod.mk.injEq] at hc
  obtain ⟨htext, hrange⟩ := hc
  have hrange := of_decide_eq_true hrange
  have hlist : ¬ IsNameless " other, totality-check" := by decide
  have hnamed : utf8 "totality-check" ∈ namesIn " other, totality-check" := by decide
  have hother : utf8 "totality" ∉ namesIn " other, totality-check" := by decide
  have hlaw := (suppresses_named_rules place f c constructPlace).1 _ htext hlist
  refine ⟨f, place, c, hparsed, htext, hlist, hnamed, hother, hrange, ?_, ?_⟩
  · exact ((hlaw _).2 (by decide) hnamed).mpr hrange
  · exact (hlaw _).1 hother

/-- A list of a single comma has no names, and its comment suppresses a rule all the same. -/
theorem suppresses_unnamed_rule :
    ∃ f place c, commentsOf? (above "//nolint:,") = some (f, place, [c]) ∧
      c.text = listMarker ++ utf8 "," ∧ utf8 "totality-check" ∉ namesIn "," ∧
      (alone place f c).suppresses constructPlace "totality-check" = true := by
  have hrun : (commentsOf? (above "//nolint:,")).map
      (fun (f, place, cs) => cs.map fun c =>
        (c.text, (alone place f c).suppresses constructPlace "totality-check")) =
        some [(listMarker ++ utf8 ",", true)] := by
    decide +kernel
  obtain ⟨⟨f, place, cs⟩, hparsed, heq⟩ := Option.map_eq_some_iff.mp hrun
  obtain ⟨c, rfl, hc⟩ := List.map_eq_singleton_iff.mp heq
  rw [Prod.mk.injEq] at hc
  exact ⟨f, place, c, hparsed, hc.1, by decide, hc.2⟩

end Suppression

end CaseCover
