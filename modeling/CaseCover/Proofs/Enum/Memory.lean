import CaseCover.Analysis
import CaseCover.Proofs.Enum.Members
import CaseCover.Proofs.Typing.Identity

/-!
# Remembered shapes

The shape of a type is kept for the next query about a type that is the same. As types that are the
same have the same shape (`shapeOf_congr`), what is kept is right for all of them (`Faithful`), and
memory never shows: the answers to queries one after the other are the answers to each of them alone
(`answerAll_eq_alone`). So an analysis may ask for shapes as if nothing were remembered
(`answerAll_queries`).

Finding a type in memory needs that being the same is an equivalence between the types that take
part: those that are asked about and those of the constants. Without interfaces in them it is one.

A name that is an alias stands for its type and makes no type of its own, so a query that goes through
an alias is one about the type.
-/

namespace CaseCover

/-- The type that a query asks for. -/
def Query.type? : Query → Option Ty
  | .typed t => some t
  | _ => none

namespace Enum

/-- The types that take part in answers: those that are asked about and those of the constants. -/
def typesFor (v : Viewpoint) (qs : List Query) : List Ty :=
  qs.filterMap Query.type? ++ v.packages.flatMap fun p => p.constants.map (·.type)

variable {v : Viewpoint} {p : ConstScope} {qs : List Query} {ts : List Ty} {t u : Ty} {m : Memory}

theorem mem_typesFor_of_asked (h : t ∈ qs.filterMap Query.type?) : t ∈ typesFor v qs :=
  List.mem_append_left _ h

theorem mem_typesFor_of_constant (qs : List Query) :
    ∀ p ∈ v.packages, ∀ c ∈ p.constants, c.type ∈ typesFor v qs := fun p hp c hc =>
  List.mem_append_right _ (List.mem_flatMap.mpr ⟨p, hp, List.mem_map.mpr ⟨c, hc, rfl⟩⟩)

/-! ## Shapes of types that are the same -/

theorem IsDeclaredIn.of_outline_eq (h : t.outline = u.outline) (ht : IsDeclaredIn v p t) :
    IsDeclaredIn v p u := by
  obtain ⟨n, as, b, rfl, hunder, hbasic, hhome, hfind⟩ := ht
  obtain ⟨bs, rfl, -⟩ := Ty.eq_named_of_outline_eq h
  exact ⟨n, bs, b, rfl, (TypeTable.unname_eq_basic_iff h).mp hunder, hbasic, hhome, hfind⟩

theorem valuesOf_congr (h : v.table.IsIdentityAmong ts)
    (hconsts : ∀ c ∈ p.constants, c.type ∈ ts) (ht : t ∈ ts) (hu : u ∈ ts)
    (hsame : v.table.same t u = true) : valuesOf v p t = valuesOf v p u := by
  refine List.filter_congr fun c hc => ?_
  rw [decide_eq_decide, Counts, Counts, h.same_congr ht hu (hconsts c hc) hsame]

/-- Types that are the same have the same shape. -/
theorem shapeOf_congr (h : v.table.IsIdentityAmong ts)
    (hconsts : ∀ p ∈ v.packages, ∀ c ∈ p.constants, c.type ∈ ts) (ht : t ∈ ts) (hu : u ∈ ts)
    (hsame : v.table.same t u = true) : shapeOf v t = shapeOf v u := by
  have houtline := TypeTable.outline_eq_of_same hsame
  by_cases hdeclared : ∃ p, IsDeclaredIn v p t
  · obtain ⟨p, hp⟩ := hdeclared
    have hmem : p ∈ v.packages := by
      obtain ⟨-, -, -, -, -, -, -, hfind⟩ := hp
      exact List.mem_of_find?_eq_some hfind
    rw [shapeOf_of_isDeclaredIn hp, shapeOf_of_isDeclaredIn (hp.of_outline_eq houtline),
      valuesOf_congr h (hconsts p hmem) ht hu hsame]
  · have hnone : ∀ p, ¬IsDeclaredIn v p t := fun p hp => hdeclared ⟨p, hp⟩
    rw [shapeOf_of_not_isDeclaredIn hnone, shapeOf_of_not_isDeclaredIn fun p hp =>
      hnone p (hp.of_outline_eq houtline.symm)]

/-! ## Queries one after the other -/

/-- What is kept for a type is its shape. -/
def Faithful (v : Viewpoint) (ts : List Ty) (m : Memory) : Prop :=
  ∀ e ∈ m, e.1 ∈ ts ∧ e.2 = shapeOf v e.1

theorem faithful_nil (v : Viewpoint) (ts : List Ty) : Faithful v ts [] :=
  List.forall_mem_nil _

/-- One query is answered as without memory, and what is kept then is right again. -/
theorem answerFrom_of_faithful (h : v.table.IsIdentityAmong ts)
    (hconsts : ∀ p ∈ v.packages, ∀ c ∈ p.constants, c.type ∈ ts) (hm : Faithful v ts m) (q : Query)
    (hq : ∀ t ∈ q.type?, t ∈ ts) :
    (answerFrom v m q).1 = answer v q ∧ Faithful v ts (answerFrom v m q).2 := by
  cases q with
  | unknown => exact ⟨rfl, hm⟩
  | constant value => exact ⟨rfl, hm⟩
  | typed t =>
    have ht : t ∈ ts := hq t rfl
    cases hfind : m.find? fun e => v.table.same t e.1 with
    | none =>
      simp only [answerFrom, hfind]
      exact ⟨rfl, List.forall_mem_cons.mpr ⟨⟨ht, rfl⟩, hm⟩⟩
    | some e =>
      obtain ⟨he, hshape⟩ := hm e (List.mem_of_find?_eq_some hfind)
      have hsame : v.table.same t e.1 = true :=
        List.find?_some (p := fun e : Ty × Shape => v.table.same t e.1) hfind
      simp only [answerFrom, hfind]
      exact ⟨hshape.trans (shapeOf_congr h hconsts ht he hsame).symm, hm⟩

theorem answerAll_of_faithful (h : v.table.IsIdentityAmong ts)
    (hconsts : ∀ p ∈ v.packages, ∀ c ∈ p.constants, c.type ∈ ts) (hm : Faithful v ts m)
    (hqs : ∀ t ∈ qs.filterMap Query.type?, t ∈ ts) : answerAll v m qs = qs.map (answer v) := by
  induction qs generalizing m with
  | nil => rfl
  | cons q qs ih =>
    have hq : ∀ t ∈ q.type?, t ∈ ts := fun t ht =>
      hqs t (List.mem_filterMap.mpr ⟨q, List.mem_cons_self, ht⟩)
    have hrest : ∀ t ∈ qs.filterMap Query.type?, t ∈ ts := fun t ht => by
      obtain ⟨r, hr, hrt⟩ := List.mem_filterMap.mp ht
      exact hqs t (List.mem_filterMap.mpr ⟨r, List.mem_cons_of_mem _ hr, hrt⟩)
    obtain ⟨hanswer, hkept⟩ := answerFrom_of_faithful h hconsts hm q hq
    simp only [answerAll, hanswer, ih hkept hrest, List.map_cons]

theorem answerAll_nil_eq_map
    (h : v.table.IsIdentityAmong ((typesFor v qs).filter Ty.mentionsInterface)) :
    answerAll v [] qs = qs.map (answer v) :=
  answerAll_of_faithful h.of_interfaces (mem_typesFor_of_constant qs) (faithful_nil v _)
    fun _ => mem_typesFor_of_asked

/-- A single query is answered without memory. -/
theorem answerAll_singleton (v : Viewpoint) (q : Query) : answerAll v [] [q] = [answer v q] := by
  cases q <;> rfl

/-- What a checked package tells about expressions one after the other, with memory, is what it tells
about each of them. -/
theorem answerAll_queries (c : Checked) (es : List Expr) (h : c.viewpoint.table.IsIdentityAmong
      ((typesFor c.viewpoint (es.map c.query)).filter Ty.mentionsInterface)) :
    answerAll c.viewpoint [] (es.map c.query) = es.map c.shapes := by
  rw [answerAll_nil_eq_map h, List.map_map]
  rfl

/-- Memory never shows: of any queries, each is answered as if it were the only one. Queries about
types that are the same have the same answer. -/
theorem answerAll_eq_alone (v : Viewpoint) (qs : List Query)
    (h : v.table.IsIdentityAmong ((typesFor v qs).filter Ty.mentionsInterface)) :
    answerAll v [] qs = (qs.flatMap fun q => answerAll v [] [q]) ∧
      ∀ (i j : Nat) (t u : Ty), qs[i]? = some (.typed t) → qs[j]? = some (.typed u) →
        v.table.same t u = true → (answerAll v [] qs)[i]? = (answerAll v [] qs)[j]? := by
  constructor
  · simp only [answerAll_singleton]
    rw [answerAll_nil_eq_map h, List.map_eq_flatMap]
  · intro i j t u hi hj hsame
    have hasked : ∀ {k : Nat} {s : Ty}, qs[k]? = some (.typed s) → s ∈ typesFor v qs := fun hk =>
      mem_typesFor_of_asked (List.mem_filterMap.mpr ⟨_, List.mem_of_getElem? hk, rfl⟩)
    have hshape : shapeOf v t = shapeOf v u :=
      shapeOf_congr h.of_interfaces (mem_typesFor_of_constant qs) (hasked hi) (hasked hj) hsame
    rw [answerAll_nil_eq_map h, List.getElem?_map, List.getElem?_map, hi, hj]
    exact congrArg some hshape

/-- An interface with one method. -/
def closer : Ty := .interface [⟨[], "Close"⟩] [.func [] [] false] []

/-- The type `p.Id[T]` for an argument. -/
def idOf (t : Ty) : Ty := .named ⟨some "p", "Id", 2⟩ [t]

/-- A package that declares `Id[T]` as a type over texts, and a constant of `Id` of the interface. -/
def idView : Viewpoint :=
  ⟨⟨[⟨⟨some "p", "Id", 2⟩, [7], some (.basic .string), true, [], []⟩], []⟩,
    [⟨"p", [⟨"None", 9, idOf closer, some (.str "")⟩]⟩], some "p"⟩

/-- The interface is asked about as it is and as one that another one embeds. -/
def idQueries : List Query :=
  [.typed (idOf (.interface [] [] [closer])), .unknown, .typed (idOf closer),
    .typed (idOf (.basic .int))]

theorem answerAll_idQueries :
    idView.table.IsIdentityAmong ((typesFor idView idQueries).filter Ty.mentionsInterface) ∧
    idView.table.same (idOf (.interface [] [] [closer])) (idOf closer) = true ∧
    answerAll idView [] idQueries = (idQueries.flatMap fun q => answerAll idView [] [q]) ∧
    (answerAll idView [] idQueries)[0]? = (answerAll idView [] idQueries)[2]? := by
  have hsame : idView.table.same (idOf (.interface [] [] [closer])) (idOf closer) = true := by
    decide +kernel
  have hidentity : idView.table.IsIdentityAmong
      ((typesFor idView idQueries).filter Ty.mentionsInterface) :=
    ⟨by decide +kernel, by decide +kernel⟩
  obtain ⟨halone, hequal⟩ := answerAll_eq_alone idView idQueries hidentity
  exact ⟨hidentity, hsame, halone, hequal 0 2 _ _ rfl rfl hsame⟩

end Enum

end CaseCover
