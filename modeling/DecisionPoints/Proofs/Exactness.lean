import DecisionPoints.Proofs.Assignments
import DecisionPoints.Proofs.Contradiction

/-!
Exact answers. Clauses that do not exclude each other and share no terms are true together as soon
as each is by itself, so the procedure is right about them where it is right about one clause. It is
so where every side without terms has a value of 64 bits. A sum that leaves this range is taken for
an unknown, and then the procedure may call a clause satisfiable that holds nowhere.
-/
namespace DecisionPoints
namespace Expression

def Evaluates (e : Expression) : Prop := e.terms = [] → e.concrete?.isSome

instance (e : Expression) : Decidable e.Evaluates := inferInstanceAs (Decidable (_ → _))

theorem takes_cases {e : Expression} (distinct : e.terms.Nodup) (evaluates : e.Evaluates) :
    (∃ n : Int64, e.concrete? = some n ∧ e.Takes n.toInt) ∨
      (e.concrete? = none ∧ ∀ n, e.Takes n) := by
  cases found : e.concrete? with
  | some n => exact .inl ⟨n, rfl, fun _ => 0, eval_eq_of_concrete? found _⟩
  | none =>
    have symbolic : e.terms ≠ [] := by
      intro constant
      have value := evaluates constant
      rw [found] at value
      cases value
    exact .inr ⟨rfl, takes_of_symbolic distinct symbolic⟩

end Expression

namespace Clause

variable {clauses : List Clause}

theorem holds_congr {c : Clause} {v w : World}
    (terms : ∀ pair ∈ c.bounded?, ∀ x ∈ pair.1.terms ++ pair.2.terms, v.value x = w.value x)
    (referents : ∀ origin ∈ c.origin?, v.referent origin = w.referent origin) :
    c.Holds v ↔ c.Holds w := by
  cases c with
  | resolves reference referent => simp only [Holds, referents reference rfl]
  | inBounds index length | outOfBounds index length =>
    have agree := terms (index, length) rfl
    have first : index.eval v.value = index.eval w.value :=
      Expression.eval_congr fun x member => agree x (List.mem_append_left _ member)
    have second : length.eval v.value = length.eval w.value :=
      Expression.eval_congr fun x member => agree x (List.mem_append_right _ member)
    simp only [Holds, first, second]

theorem eq_or_opposite {a b : Clause} {pair : Expression × Expression}
    (ha : a.bounded? = some pair) (hb : b.bounded? = some pair) :
    a = b ∨ a.opposite? = some b := by
  cases a <;> cases b <;> cases ha <;> cases hb <;> simp [opposite?]

theorem nodup_terms_of_boundedPair (distinct : (boundedTerms clauses).Nodup)
    {pair : Expression × Expression} (member : pair ∈ boundedPairs clauses) :
    (pair.1.terms ++ pair.2.terms).Nodup := (List.nodup_flatMap.mp distinct).1 pair member

def BoundsHold (clauses : List Clause) (pair : Expression × Expression) (value : String → Int) :
    Prop :=
  ∀ c ∈ clauses, c.bounded? = some pair → ∀ referent, c.Holds ⟨value, referent⟩

theorem BoundsHold.congr {pair : Expression × Expression} {v w : String → Int}
    (agree : ∀ x ∈ pair.1.terms ++ pair.2.terms, v x = w x) (holds : BoundsHold clauses pair v) :
    BoundsHold clauses pair w := by
  intro c member bounded referent
  have same : c.Holds ⟨v, referent⟩ ↔ c.Holds ⟨w, referent⟩ := by
    apply holds_congr
    · intro found here
      obtain rfl : pair = found := Option.some.inj (bounded.symm.trans here)
      exact agree
    · exact fun _ _ => rfl
  exact same.mp (holds c member bounded referent)

theorem exists_boundsHold (unopposed : ∀ a ∈ clauses, ∀ b ∈ clauses, a.opposite? ≠ some b)
    (each : ∀ c ∈ clauses, Satisfiable [c]) {pair : Expression × Expression}
    (member : pair ∈ boundedPairs clauses) : ∃ value, BoundsHold clauses pair value := by
  obtain ⟨a, ha, first⟩ := mem_boundedPairs.mp member
  obtain ⟨w, holds⟩ := each a ha
  refine ⟨w.value, fun b hb second referent => ?_⟩
  rcases eq_or_opposite first second with same | opposite
  · subst same
    have indifferent : a.Holds w ↔ a.Holds ⟨w.value, referent⟩ := by
      apply holds_congr
      · exact fun _ _ _ _ => rfl
      · intro origin about
        cases a <;> cases first <;> cases about
    exact indifferent.mp (holds a List.mem_cons_self)
  · exact absurd opposite (unopposed a ha b hb)

theorem exists_value_of_each (unopposed : ∀ a ∈ clauses, ∀ b ∈ clauses, a.opposite? ≠ some b)
    (distinct : (boundedTerms clauses).Nodup) (each : ∀ c ∈ clauses, Satisfiable [c]) :
    ∃ value, ∀ pair ∈ boundedPairs clauses, BoundsHold clauses pair value := by
  apply exists_common_assignment _ _ _ distinct
  · intro pair member
    exact exists_boundsHold unopposed each member
  · intro pair v w agree holds
    exact holds.congr agree

theorem exists_referent_of_consistent
    (consistent : ∀ a ∈ clauses, ∀ b ∈ clauses, ¬ a.Conflicts b) :
    ∃ referent, ∀ c ∈ clauses, c.origin?.isSome → ∀ value, c.Holds ⟨value, referent⟩ := by
  let path : PathCondition := ⟨clauses⟩
  refine ⟨fun origin => (path.referentOf? origin).getD .null, fun c member about value => ?_⟩
  cases c with
  | inBounds index length => cases about
  | outOfBounds index length => cases about
  | resolves origin referent =>
    change (path.referentOf? origin).getD .null = referent
    cases found : path.referentOf? origin with
    | none => exact absurd member (PathCondition.not_mem_of_referentOf?_eq_none found referent)
    | some other =>
      have first := PathCondition.mem_of_referentOf?_eq_some found
      by_contra differ
      exact consistent _ first _ member (conflicts_resolves differ)

theorem satisfiable_iff_each (compatible : ∀ a ∈ clauses, ∀ b ∈ clauses, ¬ a.Excludes b)
    (distinct : (boundedTerms clauses).Nodup) :
    Satisfiable clauses ↔ ∀ c ∈ clauses, Satisfiable [c] := by
  constructor
  · intro ⟨w, holds⟩ c member
    exact ⟨w, by simpa using holds c member⟩
  · intro each
    obtain ⟨value, bounds⟩ := exists_value_of_each
      (fun a ha b hb opposite => compatible a ha b hb (.inr opposite)) distinct each
    obtain ⟨referent, resolutions⟩ := exists_referent_of_consistent
      fun a ha b hb conflict => compatible a ha b hb (.inl conflict)
    refine ⟨⟨value, referent⟩, fun c member => ?_⟩
    cases bounded : c.bounded? with
    | some pair =>
      exact bounds pair (mem_boundedPairs.mpr ⟨c, member, bounded⟩) c member bounded referent
    | none =>
      apply resolutions c member
      cases c <;> first | rfl | cases bounded

section
variable {index length : Expression} {m n : Int}

theorem satisfiable_inBounds (distinct : (index.terms ++ length.terms).Nodup)
    (first : index.Takes m) (second : length.Takes n) (inside : 0 ≤ m ∧ m < n) :
    Satisfiable [.inBounds index length] := by
  obtain ⟨value, hm, hn⟩ := Expression.takes_together distinct first second
  exact ⟨⟨value, fun _ => .null⟩, by simpa [Holds, hm, hn] using inside⟩

theorem satisfiable_outOfBounds (distinct : (index.terms ++ length.terms).Nodup)
    (first : index.Takes m) (second : length.Takes n) (outside : ¬ (0 ≤ m ∧ m < n)) :
    Satisfiable [.outOfBounds index length] := by
  obtain ⟨value, hm, hn⟩ := Expression.takes_together distinct first second
  exact ⟨⟨value, fun _ => .null⟩, by simpa [Holds, hm, hn] using outside⟩

end

def Evaluates (c : Clause) : Prop := ∀ pair ∈ c.bounded?, pair.1.Evaluates ∧ pair.2.Evaluates

instance : (c : Clause) → Decidable c.Evaluates
  | .resolves .. => .isTrue nofun
  | .inBounds index length | .outOfBounds index length =>
    decidable_of_iff (index.Evaluates ∧ length.Evaluates) (by simp [Evaluates, bounded?])

theorem satisfiable_of_not_isRefuted {c : Clause} (unrefuted : c.isRefuted = false)
    (distinct : ∀ pair ∈ c.bounded?, (pair.1.terms ++ pair.2.terms).Nodup)
    (evaluates : c.Evaluates) : Satisfiable [c] := by
  cases c with
  | resolves reference referent =>
    exact ⟨⟨fun _ => 0, fun _ => referent⟩, by simp [Holds]⟩
  | inBounds index length =>
    have distinct := distinct (index, length) rfl
    obtain ⟨first, second⟩ := evaluates (index, length) rfl
    obtain ⟨left, right, _⟩ := List.nodup_append'.mp distinct
    rcases Expression.takes_cases left first with ⟨i, hi, atI⟩ | ⟨hi, free⟩
    · rcases Expression.takes_cases right second with ⟨l, hl, atL⟩ | ⟨hl, free⟩
      · have inside : 0 ≤ i.toInt ∧ i.toInt < l.toInt := by
          simpa [isRefuted, hi, hl] using unrefuted
        exact satisfiable_inBounds distinct atI atL inside
      · have inside : 0 ≤ i.toInt := by simpa [isRefuted, hi, hl] using unrefuted
        exact satisfiable_inBounds distinct atI (free (i.toInt + 1)) (by omega)
    · rcases Expression.takes_cases right second with ⟨l, hl, atL⟩ | ⟨hl, freeLength⟩
      · have inside : 0 < l.toInt := by simpa [isRefuted, hi, hl] using unrefuted
        exact satisfiable_inBounds distinct (free 0) atL (by omega)
      · exact satisfiable_inBounds distinct (free 0) (freeLength 1) (by omega)
  | outOfBounds index length =>
    have distinct := distinct (index, length) rfl
    obtain ⟨first, second⟩ := evaluates (index, length) rfl
    obtain ⟨left, right, _⟩ := List.nodup_append'.mp distinct
    rcases Expression.takes_cases left first with ⟨i, hi, atI⟩ | ⟨hi, free⟩
    · rcases Expression.takes_cases right second with ⟨l, hl, atL⟩ | ⟨hl, free⟩
      · have outside : ¬ (0 ≤ i.toInt ∧ i.toInt < l.toInt) := by
          simpa [isRefuted, hi, hl] using unrefuted
        exact satisfiable_outOfBounds distinct atI atL outside
      · exact satisfiable_outOfBounds distinct atI (free i.toInt) (by omega)
    · exact satisfiable_outOfBounds distinct (free (-1)) ⟨fun _ => 0, rfl⟩ (by omega)

theorem feasibility_eq_sat_iff : feasibility clauses = .sat ↔
    contradictory clauses = false ∧ (boundedTerms clauses).Nodup := by
  rw [feasibility_eq]
  by_cases refuted : contradictory clauses = true
  · simp [refuted]
  · by_cases distinct : (boundedTerms clauses).Nodup <;> simp [refuted, distinct]

theorem satisfiable_iff_of_sat (sat : feasibility clauses = .sat) :
    Satisfiable clauses ↔ ∀ c ∈ clauses, ¬ c.Evaluates → Satisfiable [c] := by
  obtain ⟨consistent, distinct⟩ := feasibility_eq_sat_iff.mp sat
  have compatible : ∀ a ∈ clauses, ∀ b ∈ clauses, ¬ a.Excludes b := by
    intro a ha b hb excludes
    rw [contradictory_of_excludes ha hb excludes] at consistent
    cases consistent
  have unrefuted : ∀ c ∈ clauses, c.isRefuted = false := by
    intro c member
    by_contra refuted
    rw [Bool.not_eq_false] at refuted
    rw [contradictory_iff.mpr (.inr ⟨c, member, refuted⟩)] at consistent
    cases consistent
  rw [satisfiable_iff_each compatible distinct]
  constructor
  · intro each c member _
    exact each c member
  · intro overflowing c member
    by_cases evaluates : c.Evaluates
    · apply satisfiable_of_not_isRefuted (unrefuted c member) _ evaluates
      intro pair bounded
      exact nodup_terms_of_boundedPair distinct (mem_boundedPairs.mpr ⟨c, member, bounded⟩)
    · exact overflowing c member evaluates

end Clause

namespace DecisionProcedure
open Clause

/-- The clauses on which the procedure is exact: no term occurs twice in the bounded pairs, each
counted once, and every side without terms has a value of 64 bits. -/
structure InFragment (clauses : List Clause) : Prop where
  distinct : (boundedTerms clauses).Nodup
  evaluates : ∀ c ∈ clauses, c.Evaluates

/-- In its fragment the procedure decides whether a guard can hold on a path. -/
theorem decides_fragment {path : PathCondition} {guard : Guard}
    (fragment : InFragment (path.clauses ++ guard.clauses)) :
    clausal.check path guard ≠ .unknown ∧
      (clausal.check path guard = .sat ↔ Satisfiable (path.clauses ++ guard.clauses)) := by
  change feasibility (path.clauses ++ guard.clauses) ≠ .unknown ∧
    (feasibility (path.clauses ++ guard.clauses) = .sat ↔ _)
  generalize path.clauses ++ guard.clauses = clauses at fragment
  cases answer : feasibility clauses with
  | sat =>
    refine ⟨by simp, fun _ => ?_, fun _ => rfl⟩
    apply (satisfiable_iff_of_sat answer).mpr
    intro c member overflows
    exact absurd (fragment.evaluates c member) overflows
  | unsat =>
    refine ⟨by simp, by simp, ?_⟩
    intro ⟨w, holds⟩
    exact absurd holds (not_satisfies_of_contradictory (feasibility_eq_unsat_iff.mp answer) w)
  | unknown =>
    -- Without a contradiction only a term that occurs twice leaves the question open.
    have decided : feasibility clauses = .unsat ∨ feasibility clauses = .sat := by
      rw [feasibility_eq]
      by_cases refuted : contradictory clauses = true <;> simp [refuted, fragment.distinct]
    simp [answer] at decided

theorem decides_fragment_nested :
    let first : Clause :=
      .inBounds (.add (.term "i") (.int 1)) (.sub (.term "n") (.sub (.int 3) (.term "m")))
    let second : Clause :=
      .outOfBounds (.add (.int Int64.maxValue) (.term "j")) (.sub (.int 2) (.int 1))
    let path : PathCondition := ⟨[.resolves (.root "a") .null, first]⟩
    let guard : Guard := ⟨[first, second]⟩
    InFragment (path.clauses ++ guard.clauses) ∧ clausal.check path guard = .sat ∧
      Satisfiable (path.clauses ++ guard.clauses) := by
  intro first second path guard
  have fragment : InFragment (path.clauses ++ guard.clauses) := ⟨by decide, by decide⟩
  have sat : clausal.check path guard = .sat := by decide
  exact ⟨fragment, sat, (decides_fragment fragment).2.mp sat⟩

/-- A satisfiable answer is right if each clause with a side whose value is beyond 64 bits is true
somewhere by itself, and only then. -/
theorem sat_answer_right_iff {path : PathCondition} {guard : Guard}
    (sat : clausal.check path guard = .sat) : Satisfiable (path.clauses ++ guard.clauses) ↔
      ∀ c ∈ path.clauses ++ guard.clauses, ¬ c.Evaluates → Satisfiable [c] :=
  satisfiable_iff_of_sat sat

theorem sat_answer_right_iff_length :
    let sum : Expression := .add (.int Int64.maxValue) (.int 1)
    let guard : Guard := ⟨[.inBounds sum (.term "n")]⟩
    ¬ sum.Evaluates ∧ clausal.check {} guard = .sat ∧ Satisfiable ([] ++ guard.clauses) := by
  intro sum guard
  have sat : clausal.check {} guard = .sat := by decide
  refine ⟨by decide, sat, (sat_answer_right_iff sat).mpr fun c member _ => ?_⟩
  obtain rfl := List.mem_singleton.mp member
  exact ⟨⟨fun _ => 2 ^ 63 + 1, fun _ => .null⟩, by decide⟩

/-- The index is 2 ^ 63, but the procedure takes it for an unknown. -/
theorem sat_answer_wrong_beyond_range :
    let guard : Guard := ⟨[.inBounds (.add (.int Int64.maxValue) (.int 1)) (.int 5)]⟩
    clausal.check {} guard = .sat ∧
      ¬ Satisfiable (({} : PathCondition).clauses ++ guard.clauses) := by
  intro guard
  refine ⟨by decide, ?_⟩
  intro ⟨w, holds⟩
  have below := (holds _ List.mem_cons_self).2
  have above : (5 : Int64).toInt < Int64.maxValue.toInt + (1 : Int64).toInt := by decide
  simp only [Expression.eval] at below
  omega

end DecisionProcedure
end DecisionPoints
