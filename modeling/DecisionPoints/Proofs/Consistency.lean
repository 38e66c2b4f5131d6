import DecisionPoints.Path
import DecisionPoints.Proofs.Coverage

/-!
Consistent paths. An access resolves at most one reference, either as the path has resolved it or,
if the path has not, in some new way. So whatever the heap and the decision procedure answer, no
path that is built from enumerated alternatives resolves an origin in two ways.
-/
namespace DecisionPoints

def Clause.Consistent (clauses : List Clause) : Prop :=
  ∀ a ∈ clauses, ∀ b ∈ clauses, ¬ a.Conflicts b

theorem Clause.Consistent.append {old new : List Clause} (consistent : Consistent old)
    (single : Consistent new)
    (known_or_new : ∀ a ∈ new, a.origin?.isSome → a ∈ old ∨ ∀ b ∈ old, a.origin? ≠ b.origin?) :
    Consistent (old ++ new) := by
  have apart : ∀ a ∈ new, ∀ b ∈ old, ¬ a.Conflicts b := by
    intro a ha b hb conflict
    rcases known_or_new a ha conflict.2.1 with known | unknown
    · exact consistent a known b hb conflict
    · exact unknown b hb conflict.2.2
  intro a ha b hb conflict
  rcases List.mem_append.mp ha with oldA | newA
  · rcases List.mem_append.mp hb with oldB | newB
    · exact consistent a oldA b oldB conflict
    · exact apart b newB a oldA conflict.symm
  · rcases List.mem_append.mp hb with oldB | newB
    · exact apart a newA b oldB conflict
    · exact single a newA b newB conflict

theorem Guard.exists_way_of_enumerated {bounds : Option (Expression × Expression)}
    {ways : Option (List Clause)} {g : Guard} (h : g ∈ enumerated bounds ways) :
    ∃ way : Option Clause, (∀ a ∈ way, ∃ cs ∈ ways, a ∈ cs) ∧
      ∀ a ∈ g.clauses, a.origin?.isSome → a ∈ way := by
  cases ways with
  | none =>
    refine ⟨none, by rintro a ⟨⟩, ?_⟩
    rcases bounds with _ | ⟨index, length⟩
    · obtain rfl := List.mem_singleton.mp h
      rintro a ⟨⟩
    · simp only [enumerated, List.mem_cons, List.not_mem_nil, or_false] at h
      rcases h with rfl | rfl <;> simp [Clause.origin?]
  | some cs =>
    rcases bounds with _ | ⟨index, length⟩
    · obtain ⟨way, member, rfl⟩ := List.mem_map.mp h
      exact ⟨some way, by simpa using member, by simp⟩
    · rcases List.mem_append.mp h with inside | outside
      · obtain ⟨way, member, rfl⟩ := List.mem_map.mp inside
        exact ⟨some way, by simpa using member, by simp [Clause.origin?]⟩
      · obtain rfl := List.mem_singleton.mp outside
        exact ⟨none, by rintro a ⟨⟩, by simp [Clause.origin?]⟩

namespace Context

theorem way_settled_or_new {c : Context} {a : Access} {cs : List Clause} (h : cs ∈ c.ways? a)
    {way : Clause} (member : way ∈ cs) :
    way ∈ c.path.clauses ∨ ∀ b ∈ c.path.clauses, way.origin? ≠ b.origin? := by
  obtain ⟨r, _, rfl⟩ := Option.map_eq_some_iff.mp h
  obtain ⟨s, found, rfl⟩ := List.mem_map.mp member
  unfold resolutions at found
  split at found
  · next referent settled =>
    obtain rfl := List.mem_singleton.mp found
    exact .inl (PathCondition.mem_of_referentOf?_eq_some settled)
  · next unsettled =>
    obtain ⟨referent, _, rfl⟩ := List.mem_map.mp found
    refine .inr fun b hb same => ?_
    cases b with
    | resolves origin other =>
      obtain rfl : r.origin = origin := Option.some.inj same
      exact PathCondition.not_mem_of_referentOf?_eq_none unsettled other hb
    | inBounds index length => cases same
    | outOfBounds index length => cases same

theorem consistent_conjoin {c : Context} (consistent : Clause.Consistent c.path.clauses)
    {a : Access} {outcomes : List Outcome} (h : c.outcomes a = .ok outcomes) {o : Outcome}
    (member : o ∈ outcomes) : Clause.Consistent (c.path.conjoin o.guard).clauses := by
  have enumerated : o.guard ∈ Guard.enumerated a.bounds? (c.ways? a) :=
    (guards_perm_enumerated h).mem_iff.mp (List.mem_map_of_mem member)
  obtain ⟨way, among, only⟩ := Guard.exists_way_of_enumerated enumerated
  refine consistent.append ?_ ?_
  · intro x hx y hy conflict
    have first := only x hx conflict.2.1
    have second := only y hy (conflict.2.2 ▸ conflict.2.1)
    exact conflict.1 (Option.mem_unique first second)
  · intro x hx about
    obtain ⟨cs, found, way⟩ := among x (only x hx about)
    exact way_settled_or_new found way

end Context

namespace Path

/-- The paths that are built by committing to enumerated alternatives. Each access is enumerated
against the condition of the path, in a context that may be another at every step. -/
inductive Reached (allowed : Context → Prop) : Path → Prop where
  | start : Reached allowed {}
  | commit {p : Path} {c : Context} {a : Access} {alternatives : List Alternative} {x : Alternative}
      (reached : Reached allowed p) (permitted : allowed c) (own : c.path = p.condition)
      (enumerated : c.alternatives a = .ok alternatives) (taken : x ∈ alternatives) (pc : UInt32) :
      Reached allowed (p.commit pc x)

theorem Reached.consistent {allowed : Context → Prop} {p : Path} (reached : p.Reached allowed) :
    Clause.Consistent p.condition.clauses := by
  induction reached with
  | start => rintro a ⟨⟩
  | commit reached permitted own enumerated taken pc ih =>
    obtain ⟨outcomes, found, member, _⟩ := Context.outcome_of_alternative enumerated taken
    rw [condition_commit, ← own]
    exact Context.consistent_conjoin (own ▸ ih) found member

/-- No origin is resolved in two ways on a path, so the one way is what the path is asked for. Where
all alternatives were kept by the clausal procedure, it does not refute the path. -/
theorem resolved_at_most_once {allowed : Context → Prop} {p : Path} (reached : p.Reached allowed) :
    (∀ a ∈ p.condition.clauses, ∀ b ∈ p.condition.clauses,
      a.origin?.isSome → a.origin? = b.origin? → a = b) ∧
    (∀ origin referent, p.condition.referentOf? origin = some referent ↔
      .resolves origin referent ∈ p.condition.clauses) ∧
    ((∀ c, allowed c → c.policy.feasibilityChecks = true ∧ c.procedure = .clausal) →
      DecisionProcedure.clausal.check p.condition {} ≠ .unsat) := by
  have unique : ∀ a ∈ p.condition.clauses, ∀ b ∈ p.condition.clauses,
      a.origin?.isSome → a.origin? = b.origin? → a = b := by
    intro a ha b hb about same
    by_contra differ
    exact reached.consistent a ha b hb ⟨differ, about, same⟩
  refine ⟨unique, ?_, ?_⟩
  · intro origin referent
    refine ⟨PathCondition.mem_of_referentOf?_eq_some, fun member => ?_⟩
    cases found : p.condition.referentOf? origin with
    | none => exact absurd member (PathCondition.not_mem_of_referentOf?_eq_none found referent)
    | some other =>
      have first := PathCondition.mem_of_referentOf?_eq_some found
      have same := unique _ first _ member rfl rfl
      rw [(Clause.resolves.inj same).2]
  · intro checked
    cases reached with
    | start => decide
    | commit reached permitted own enumerated taken pc =>
      obtain ⟨checks, clausal⟩ := checked _ permitted
      obtain ⟨_, _, _, _, judged, _⟩ := Context.outcome_of_alternative enumerated taken
      rw [Context.judge, if_pos checks, clausal, own] at judged
      rw [condition_commit]
      -- The procedure was asked about the same clauses, the last of them as a guard.
      simpa [DecisionProcedure.clausal, PathCondition.conjoin] using judged

theorem resolved_at_most_once_materialized :
    let context (s : HeapSnapshot) (path : PathCondition) : Context :=
      { policy := {}, heap := s.view .base, hierarchy := ClassTable.base.hierarchy,
        procedure := .clausal, path }
    let checked (c : Context) : Prop := c.policy.feasibilityChecks = true ∧ c.procedure = .clausal
    let a : Access := .receiver (.symbolic ⟨.root "r", .object⟩)
    let isFresh : Clause := .resolves (.root "r") (.fresh .object)
    let later := ({} : HeapSnapshot).discover .object (.root "r")
    ∃ first x second y, (context {} {}).alternatives a = .ok first ∧ x ∈ first ∧
      (context later ⟨[isFresh]⟩).alternatives a = .ok second ∧ y ∈ second ∧
      y.kind = .resolved (.alias 0 (.root "r")) ∧
      let p := (({} : Path).commit 4 x).commit 9 y
      p.Reached checked ∧ p.condition.clauses = [isFresh, isFresh] ∧
        p.condition.referentOf? (.root "r") = some (.fresh .object) ∧
        DecisionProcedure.clausal.check p.condition {} ≠ .unsat := by
  intro context checked a isFresh later
  obtain ⟨first, enumerated, x, hx, fresh⟩ := Context.exists_alternative (c := context {} {})
    (a := a) (p := fun x => x.guard = ⟨[isFresh]⟩) (by decide +kernel)
  obtain ⟨second, again, y, hy, known⟩ :=
    Context.exists_alternative (c := context later ⟨[isFresh]⟩) (a := a)
      (p := fun y => y.kind = .resolved (.alias 0 (.root "r")) ∧ y.guard = ⟨[isFresh]⟩)
      (by decide +kernel)
  have fresh : x.guard = ⟨[isFresh]⟩ := of_decide_eq_true fresh
  obtain ⟨kind, kept⟩ := of_decide_eq_true known
  have one : (({} : Path).commit 4 x).condition = ⟨[isFresh]⟩ := by
    rw [condition_commit, fresh]
    rfl
  have two : ((({} : Path).commit 4 x).commit 9 y).condition = ⟨[isFresh, isFresh]⟩ := by
    rw [condition_commit, one, kept]
    rfl
  have reached : ((({} : Path).commit 4 x).commit 9 y).Reached checked :=
    (Reached.start.commit ⟨rfl, rfl⟩ rfl enumerated hx 4).commit ⟨rfl, rfl⟩ one.symm again hy 9
  obtain ⟨_, asked, unrefuted⟩ := resolved_at_most_once reached
  have found := (asked (.root "r") (.fresh .object)).mpr (by rw [two]; exact List.mem_cons_self)
  exact ⟨first, x, second, y, enumerated, hx, again, hy, kind, reached, by rw [two], found,
    unrefuted fun _ permitted => permitted⟩

end Path
end DecisionPoints
