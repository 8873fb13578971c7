import CaseCover.Analysis
import CaseCover.Proofs.Coverage.Difference

/-!
# Constants that are not matched

A finding speaks of what is missing twice: its message lists values, and its notes point to
constants. The values are distinct, and the constants are all those of the domain that equal one of
the values. So it does not matter which of several constants with one value stands for it in the
message.

Where the values are sharp, the constants are those whose values are not handled
(`unmatched_eq_unhandled`), and their distinct values are the missing ones (`firsts_unhandled`). A
rounded value that is handled may equal a missing one, and then its constant is noted as well.
-/

namespace CaseCover

namespace Finding

variable {o : Shapes} {s : Stmt} {f : Finding}

/-- What is recognised and leaves something out is found. -/
theorem of?_eq_some {m : Match} {w : Value} {ws : List Value} (h : recognise o s = some m)
    (hmissing : m.missing = w :: ws) : of? o s = some ⟨s, m, w :: ws⟩ := by
  rw [of?, h, Option.bind_some, ← hmissing]
  refine ofMatch?_eq_some_iff.mpr ⟨?_, rfl⟩
  rw [hmissing]
  exact List.cons_ne_nil w ws

/-- The missing values of a finding are those of what has been recognised. -/
theorem missing_of_of? (h : of? o s = some f) : f.missing = f.found.missing := by
  obtain ⟨m, -, hf⟩ := Option.bind_eq_some_iff.mp h
  rw [ofMatch?_missing hf, found_of_ofMatch? hf]

theorem mem_unmatched {l : Literal} :
    l ∈ f.unmatched ↔ l ∈ f.found.domain ∧ ∃ w ∈ f.missing, w.same l.value = true := by
  rw [unmatched, List.mem_filter, Value.occursIn_iff]

end Finding

namespace Match

variable {m : Match}

/-- The constants of the domain whose values are not handled. -/
def unhandled (m : Match) : List Literal :=
  m.domain.filter fun l => !Value.occursIn m.handled l.value

theorem values_unhandled :
    m.unhandled.map (·.value) = m.values.filter fun v => !Value.occursIn m.handled v := by
  rw [values, List.filter_map]
  rfl

/-- The values of the unhandled constants, each once, are missing. -/
theorem firsts_unhandled (hsharp : m.IsSharp) :
    Value.firsts (m.unhandled.map (·.value)) = m.missing := by
  have hsub : m.values.filter (fun v => !Value.occursIn m.handled v) ⊆ m.values :=
    List.filter_sublist.subset
  have hsharp' : ∀ v ∈ m.values.filter fun v => !Value.occursIn m.handled v,
      v.IsSharpIn (m.values.filter (fun v => !Value.occursIn m.handled v) ++ []) := by
    intro v hv
    refine (hsharp v (hsub hv)).mono ?_
    rw [List.append_nil]
    exact List.Subset.trans hsub (List.subset_append_left _ _)
  rw [values_unhandled, missing_eq, ← missing_filter, missing_nil_eq_firsts hsharp']

end Match

namespace Finding

variable {o : Shapes} {s : Stmt} {f : Finding}

/-- A constant with a sharp value is noted exactly if its value is not handled. -/
theorem mem_unmatched_iff_of_sharp (h : of? o s = some f) {l : Literal} (hl : l ∈ f.found.domain)
    (hp : l.value.IsProper) (hsharp : l.value.IsSharpIn (f.found.values ++ f.found.handled)) :
    l ∈ f.unmatched ↔ Value.occursIn f.found.handled l.value = false := by
  have hv : l.value ∈ f.found.values := List.mem_map_of_mem hl
  rw [mem_unmatched, and_iff_right hl, ← Value.occursIn_iff, missing_of_of? h, Match.missing_eq,
    occursIn_missing_eq hv hp hsharp, Bool.not_eq_true']

theorem unmatched_eq_unhandled (h : of? o s = some f)
    (hp : ∀ l ∈ f.found.domain, l.value.IsProper) (hsharp : f.found.IsSharp) :
    f.unmatched = f.found.unhandled := by
  refine List.filter_congr fun l hl => ?_
  have hv : l.value ∈ f.found.values := List.mem_map_of_mem hl
  rw [missing_of_of? h, Match.missing_eq, occursIn_missing_eq hv (hp l hl) (hsharp _ hv)]

/-- What a finding says of the constants of its domain. -/
structure NotesMissing (f : Finding) : Prop where
  /-- Constants are noted in the order of the domain, those that equal a missing value. -/
  inOrder : f.unmatched.Sublist f.found.domain
  /-- All constants with a missing value are noted, and no others. -/
  aliases : ∀ l, l ∈ f.unmatched ↔ l ∈ f.found.domain ∧ ∃ w ∈ f.missing, w.same l.value = true
  /-- The missing values are values of noted constants. -/
  named : ∀ w ∈ f.missing, ∃ l ∈ f.unmatched, l.value = w
  /-- All constants whose values are not handled are noted. -/
  unhandled : ∀ l ∈ f.found.domain, Value.occursIn f.found.handled l.value = false →
    l ∈ f.unmatched
  /-- A constant with a sharp value is noted only if its value is not handled. -/
  sharp : ∀ l ∈ f.found.domain, l.value.IsSharpIn (f.found.values ++ f.found.handled) →
    (l ∈ f.unmatched ↔ Value.occursIn f.found.handled l.value = false)
  /-- If all values are sharp, the constants whose values are not handled are noted; their distinct
  values are missing, and notes and message are about them. -/
  exactly : f.found.IsSharp → f.unmatched = f.found.unhandled ∧
    Value.firsts (f.unmatched.map (·.value)) = f.missing ∧
    (Analysis.diagnostic f).related = f.found.unhandled.filterMap Analysis.relatedTo ∧
    (Analysis.diagnostic f).message =
      missingMessage (Value.firsts (f.found.unhandled.map (·.value)))

/-- The notes of a finding and its message are about the same values. Where that needs sharp values,
those that are kept exactly will do. -/
theorem notesMissing_of_finding (h : of? o s = some f)
    (hp : ∀ l ∈ f.found.domain, l.value.IsProper) :
    NotesMissing f ∧ ((∀ l ∈ f.found.domain, l.value.isExact = true) → f.found.IsSharp) := by
  refine ⟨⟨List.filter_sublist, fun l => mem_unmatched, ?_, ?_, ?_, ?_⟩, Match.isSharp_of_isExact⟩
  · intro w hw
    have hmissing := mem_missing (missing_of_of? h ▸ hw)
    obtain ⟨l, hl, rfl⟩ := List.mem_map.mp hmissing.1
    exact ⟨l, mem_unmatched.mpr ⟨hl, l.value, hw, Value.same_self (hp l hl)⟩, rfl⟩
  · intro l hl hnot
    have hoccurs := occursIn_missing (List.mem_map_of_mem hl) (hp l hl) hnot
    rw [mem_unmatched, ← Value.occursIn_iff, missing_of_of? h]
    exact ⟨hl, hoccurs⟩
  · exact fun l hl => mem_unmatched_iff_of_sharp h hl (hp l hl)
  · intro hsharp
    have hfirsts := Match.firsts_unhandled hsharp
    rw [← missing_of_of? h] at hfirsts
    rw [Analysis.diagnostic, message, unmatched_eq_unhandled h hp hsharp, hfirsts]
    exact ⟨rfl, rfl, rfl, rfl⟩

end Finding

/-- Constants of which two are zero, one of them late, and two are one, in different forms. -/
def aliasedConstants : List Literal :=
  [⟨.of (.int 0), "Zero", 1⟩, ⟨.of (.int 1), "One", 2⟩, ⟨.of (.frac 1), "Unit", 3⟩,
    ⟨.of (.int 2), "Two", 4⟩, ⟨.of (.frac 0), "Null", 5⟩]

/-- The switch `switch x { case Zero: }`. -/
def zeroCase : Stmt :=
  .switchOn 1 .absent (.ident ⟨8, "x"⟩)
    (.block 10 [.caseClause 12 false [.ident ⟨17, "Zero"⟩] 21 []] 23)

/-- `x` is one of the constants, and `Zero` is the first of them. -/
def shapesOfAliased : Shapes :=
  shapesOfTexts [("x", .union (aliasedConstants.map .literal)),
    ("Zero", .literal ⟨.of (.int 0), "Zero", 1⟩)]

/-- What is found out about the switch. -/
def zeroFinding : Finding :=
  ⟨zeroCase, ⟨.ident ⟨8, "x"⟩, aliasedConstants, [.of (.int 0)]⟩, [.of (.int 1), .of (.int 2)]⟩

theorem notesMissing_of_zeroCase :
    Finding.of? shapesOfAliased zeroCase = some zeroFinding ∧
    (∀ l ∈ zeroFinding.found.domain, l.value.IsProper) ∧
    zeroFinding.found.IsSharp ∧
    zeroFinding.unmatched.map (·.name) = (["One", "Unit", "Two"] : List Text) ∧
    zeroFinding.unmatched = zeroFinding.found.unhandled ∧
    Value.firsts (zeroFinding.unmatched.map (·.value)) = zeroFinding.missing := by
  have hfound : Finding.of? shapesOfAliased zeroCase = some zeroFinding := by rfl
  have hproper : ∀ l ∈ zeroFinding.found.domain, l.value.IsProper := by decide
  obtain ⟨hnotes, hexact⟩ := Finding.notesMissing_of_finding hfound hproper
  have hsharp := hexact (by decide)
  exact ⟨hfound, hproper, hsharp, by decide +kernel, (hnotes.exactly hsharp).1,
    (hnotes.exactly hsharp).2.1⟩

/-- The switch `switch x { case e: }`. -/
def evenCase : Stmt :=
  .switchOn 0 .absent (.ident ⟨0, [0x78]⟩)
    (.block 0 [.caseClause 0 false [.ident ⟨0, [0x65]⟩] 0 []] 0)

/-- What is found out about the switch if `x` is rounded or odd. -/
def evenFinding : Finding := ⟨evenCase, roundedMatch [evenPower], [oddPower]⟩

/-- The constant with the rounded value is noted though its value is handled: it equals the missing
odd number. As it comes first, it is the one of the two that stays among the distinct values. -/
theorem unmatched_at_rounded :
    Finding.of? shapesOfRounded evenCase = some evenFinding ∧
    (∀ l ∈ evenFinding.found.domain, l.value.IsProper) ∧
    evenFinding.unmatched = roundedConstants ∧
    evenFinding.found.unhandled = [⟨oddPower, "Odd", 2⟩] ∧
    Value.firsts (evenFinding.unmatched.map (·.value)) = [roundedPower] ∧
    evenFinding.missing = [oddPower] :=
  ⟨Finding.of?_eq_some rfl (by decide +kernel), by decide +kernel, by decide +kernel,
    by decide +kernel, by decide +kernel, rfl⟩

end CaseCover
