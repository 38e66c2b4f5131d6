import DecisionPoints.Condition.Decider
import DecisionPoints.Fault.Located
import DecisionPoints.Heap.Snapshot
import DecisionPoints.Proofs.Alternatives
import DecisionPoints.Replay
import Mathlib.Data.List.Nodup

/-!
Steering a program with a replay. A program decides from the path taken so far what has to be
decided next, and a run of it takes one alternative at each decision point. Siblings have different
numbers, so a recorded number finds the alternative that was taken, and each selection leads to the
point at which the run made its next decision.
-/
namespace DecisionPoints

/-- Alternatives of which one has to be taken, told apart by their numbers. -/
structure DecisionPoint where
  pc : UInt32
  alternatives : List Alternative
  distinct : (alternatives.map (·.branch)).Nodup

theorem Context.branches_distinct {c : Context} {a : Access} {alternatives : List Alternative}
    (h : c.alternatives a = .ok alternatives) : (alternatives.map (·.branch)).Nodup := by
  obtain ⟨candidates, _, rfl, _⟩ := alternatives_eq_ok_iff.mp h
  rw [map_branch_numbered]
  exact List.nodup_range'

def Context.decisionPoint? (c : Context) (pc : UInt32) (a : Access) : Option DecisionPoint :=
  match h : c.alternatives a with
  | .ok alternatives => some ⟨pc, alternatives, branches_distinct h⟩
  | .error _ => none

abbrev Program := Path → Option DecisionPoint

inductive Halt where
  | nothingToDecide
  | notSelected (e : Located ReplayError)
deriving DecidableEq, Repr

namespace Program

/-- The paths on which every decision was one that the program had offered. -/
inductive Run (program : Program) : Path → Prop where
  | start : Run program {}
  | commit {p : Path} {point : DecisionPoint} {a : Alternative} (run : Run program p)
      (offered : program p = some point) (taken : a ∈ point.alternatives) :
      Run program (p.commit point.pc a)

def advance (program : Program) (r : Replay) (p : Path) : Except Halt (Replay × Path) :=
  match program p with
  | none => .error .nothingToDecide
  | some point =>
    match r.select point.alternatives with
    | (.ok a, rest) => .ok (rest, p.commit point.pc a)
    | (.error e, _) => .error (.notSelected ⟨point.pc, e⟩)

def steer (program : Program) (r : Replay) : Nat → Except Halt (Replay × Path)
  | 0 => .ok (r, {})
  | n + 1 => do
    let (rest, p) ← program.steer r n
    program.advance rest p

end Program

theorem Path.take_depth (p : Path) : p.decisions.take p.depth = p.decisions := List.take_length

namespace Replay

def recorded (d : Decision) : RecordedDecision :=
  ⟨d.alternative.branch, some d.alternative.identity⟩

theorem ofPath_commit (p : Path) (pc : UInt32) (a : Alternative) :
    (ofPath (p.commit pc a)).record = (ofPath p).record ++ [recorded ⟨pc, a⟩] := by
  simp [ofPath, Path.commit, recorded]

theorem length_ofPath (p : Path) : (ofPath p).record.length = p.depth := by
  simp [ofPath, Path.depth]

theorem drop_depth_ofPath (p : Path) : (ofPath p).record.drop p.depth = [] := by
  rw [← length_ofPath, List.drop_length]

theorem find?_branch {as : List Alternative} (distinct : (as.map (·.branch)).Nodup)
    {a : Alternative} (member : a ∈ as) : as.find? (·.branch = a.branch) = some a := by
  cases found : as.find? (·.branch = a.branch) with
  | none =>
    have absent := List.find?_eq_none.mp found a member
    simp at absent
  | some b =>
    have same : b.branch = a.branch := by simpa using List.find?_some found
    rw [List.inj_on_of_nodup_map distinct (List.mem_of_find?_eq_some found) member same]

theorem select_recorded {as : List Alternative} (distinct : (as.map (·.branch)).Nodup)
    {a : Alternative} (member : a ∈ as) (pc : UInt32) (later : List RecordedDecision) :
    select ⟨recorded ⟨pc, a⟩ :: later⟩ as = (.ok a, ⟨later⟩) := by
  have found : as.find? (·.branch = (recorded ⟨pc, a⟩).branch) = some a :=
    find?_branch distinct member
  have accepted : matching (recorded ⟨pc, a⟩) a = .ok a := by simp [matching, recorded]
  simp only [select, found, accepted]

theorem eq_of_matching {d : RecordedDecision} {a b : Alternative} (h : matching d a = .ok b) :
    a = b ∧ ∀ identity ∈ d.identity, b.identity = identity := by
  unfold matching at h
  split at h
  · next unrecorded =>
    cases h
    exact ⟨rfl, by simp [unrecorded]⟩
  · next expected known =>
    dsimp only at h
    split at h
    · next same =>
      cases h
      exact ⟨rfl, by simp [known, same]⟩
    · cases h

theorem select_eq_ok {r rest : Replay} {as : List Alternative} {a : Alternative}
    (h : r.select as = (.ok a, rest)) : a ∈ as ∧ ∃ d, r.record = d :: rest.record ∧
      a.branch = d.branch ∧ ∀ identity ∈ d.identity, a.identity = identity := by
  obtain ⟨record⟩ := r
  cases record with
  | nil => cases h
  | cons d later =>
    unfold select at h
    dsimp only at h
    split at h
    · cases h
    · next b found =>
      obtain ⟨selected, rfl⟩ := Prod.mk.inj h
      obtain ⟨rfl, identified⟩ := eq_of_matching selected
      have numbered : b.branch = d.branch := by simpa using List.find?_some found
      exact ⟨List.mem_of_find?_eq_some found, d, rfl, numbered, identified⟩

end Replay

namespace Program

theorem steer_succ {program : Program} {r rest : Replay} {n : Nat} {p : Path}
    (h : program.steer r n = .ok (rest, p)) : program.steer r (n + 1) = program.advance rest p := by
  rw [steer, h]
  rfl

/-- Along a run the replay of its path selects what the run took, and keeps what is recorded
after that. -/
theorem Run.steer_ofPath {program : Program} {p : Path} (run : program.Run p)
    (later : List RecordedDecision) {n : Nat} (within : n ≤ p.depth) :
    program.steer ⟨(Replay.ofPath p).record ++ later⟩ n =
      .ok (⟨(Replay.ofPath p).record.drop n ++ later⟩, ⟨p.decisions.take n⟩) := by
  induction run generalizing later n with
  | start =>
    obtain rfl : n = 0 := Nat.le_zero.mp within
    rfl
  | @commit p point a run offered taken ih =>
    have depth : (p.commit point.pc a).depth = p.depth + 1 := by simp [Path.commit, Path.depth]
    rw [depth] at within
    rw [Replay.ofPath_commit, List.append_assoc]
    by_cases before : n ≤ p.depth
    · rw [ih _ before, ← List.append_assoc,
        List.drop_append_of_le_length (by rw [Replay.length_ofPath]; exact before)]
      simp only [Path.commit]
      rw [List.take_append_of_le_length before]
    · obtain rfl : n = p.depth + 1 := by omega
      have reached := ih (Replay.recorded ⟨point.pc, a⟩ :: later) (Nat.le_refl _)
      rw [Replay.drop_depth_ofPath, Path.take_depth] at reached
      have selected := Replay.select_recorded point.distinct taken point.pc later
      rw [List.singleton_append, steer_succ reached]
      simp only [advance, offered, List.nil_append, selected]
      rw [← depth, ← Replay.ofPath_commit, Replay.drop_depth_ofPath, Path.take_depth,
        List.nil_append]

theorem advance_eq_ok {program : Program} {r rest : Replay} {p q : Path}
    (h : program.advance r p = .ok (rest, q)) : ∃ point a, program p = some point ∧
      r.select point.alternatives = (.ok a, rest) ∧ q = p.commit point.pc a := by
  unfold advance at h
  split at h
  · cases h
  · next point offered =>
    split at h
    · next a rest' selected =>
      cases h
      exact ⟨point, a, offered, selected, rfl⟩
    · cases h

theorem run_of_steer {program : Program} {r rest : Replay} {n : Nat} {p : Path}
    (h : program.steer r n = .ok (rest, p)) : program.Run p := by
  induction n generalizing rest p with
  | zero =>
    cases h
    exact .start
  | succ n ih =>
    obtain ⟨⟨before, q⟩, reached, h⟩ := bind_eq_ok_iff.mp h
    obtain ⟨point, a, offered, selected, rfl⟩ := advance_eq_ok h
    exact (ih reached).commit offered (Replay.select_eq_ok selected).1

theorem record_of_steer {program : Program} {original p : Path} {rest : Replay} {n : Nat}
    (h : program.steer (.ofPath original) n = .ok (rest, p)) :
    (Replay.ofPath p).record ++ rest.record = (Replay.ofPath original).record ∧ p.depth = n := by
  induction n generalizing rest p with
  | zero =>
    cases h
    exact ⟨rfl, rfl⟩
  | succ n ih =>
    obtain ⟨⟨before, q⟩, reached, h⟩ := bind_eq_ok_iff.mp h
    obtain ⟨split, depth⟩ := ih reached
    obtain ⟨point, a, offered, selected, rfl⟩ := advance_eq_ok h
    obtain ⟨_, d, first, numbered, identified⟩ := Replay.select_eq_ok selected
    -- The replay of a path records the identity of every decision.
    have member : d ∈ (Replay.ofPath original).record := by simp [← split, first]
    obtain ⟨decision, _, rfl⟩ := List.mem_map.mp member
    have identity := identified _ rfl
    have same : Replay.recorded ⟨point.pc, a⟩ =
        ⟨decision.alternative.branch, some decision.alternative.identity⟩ := by
      simp [Replay.recorded, numbered, identity]
    constructor
    · rw [Replay.ofPath_commit, same, ← split, first, List.append_assoc, List.singleton_append]
    · simp [Path.commit, Path.depth, ← depth]

theorem branchNumbers_eq_record (p : Path) :
    p.branchNumbers = (Replay.ofPath p).record.map (·.branch) := by
  simp [Path.branchNumbers, Replay.ofPath]

theorem identities_eq_record (p : Path) :
    p.identities = (Replay.ofPath p).record.filterMap (·.identity) := by
  simp [Path.identities, Replay.ofPath]

/-- A run is reproduced by the replay of its path, in as many selections as it made decisions, and
nothing can be selected after them. Where another program can be steered by all of the record, its
path has the recorded numbers and identities. -/
theorem replay_reproduces_run {program : Program} {p : Path} (run : program.Run p) :
    (∀ n < p.depth, ∃ r q, program.steer (.ofPath p) n = .ok (r, q) ∧ r.isFinished = false) ∧
    (∃ r, program.steer (.ofPath p) p.depth = .ok (r, p) ∧ r.isFinished = true ∧
      ∀ as, r.select as = (.error .exhausted, r)) ∧
    ∀ (other : Program) (r : Replay) (q : Path),
      other.steer (.ofPath p) (Replay.ofPath p).remaining = .ok (r, q) →
        q.branchNumbers = p.branchNumbers ∧ q.identities = p.identities := by
  refine ⟨?_, ?_, ?_⟩
  · intro n before
    have steered := run.steer_ofPath [] (Nat.le_of_lt before)
    rw [List.append_nil, List.append_nil] at steered
    refine ⟨_, _, steered, ?_⟩
    have left : 0 < ((Replay.ofPath p).record.drop n).length := by
      rw [List.length_drop, Replay.length_ofPath]
      omega
    simpa [Replay.isFinished] using List.length_pos_iff.mp left
  · have steered := run.steer_ofPath [] (Nat.le_refl _)
    rw [List.append_nil, List.append_nil, Replay.drop_depth_ofPath, Path.take_depth] at steered
    exact ⟨⟨[]⟩, steered, rfl, fun _ => rfl⟩
  · intro other r q steered
    obtain ⟨split, depth⟩ := record_of_steer steered
    have none : r.record = [] := by
      have lengths := congrArg List.length split
      rw [List.length_append, Replay.length_ofPath, depth, Replay.remaining] at lengths
      exact List.length_eq_zero_iff.mp (by omega)
    rw [none, List.append_nil] at split
    constructor
    · rw [branchNumbers_eq_record, split, ← branchNumbers_eq_record]
    · rw [identities_eq_record, split, ← identities_eq_record]

theorem replay_reproduces_run_receivers :
    let context (path : PathCondition) : Context :=
      { policy := {}, heap := ({} : HeapSnapshot).view .base,
        hierarchy := ClassTable.base.hierarchy, procedure := .clausal, path }
    let receiver (name : String) : Access := .receiver (.symbolic ⟨.root name, .object⟩)
    let program : Program := fun p =>
      match p.decisions with
      | [] => (context p.condition).decisionPoint? 3 (receiver "r")
      | [d] =>
        if d.alternative.kind = .resolved .null then none
        else (context p.condition).decisionPoint? 8 (receiver "s")
      | _ => none
    ∃ p, program.Run p ∧ p.branchNumbers = [1, 2] ∧
      ∃ r, program.steer (.ofPath p) p.depth = .ok (r, p) ∧ r.isFinished = true := by
  intro context receiver program
  have steered : (program.steer (.ofBranches [1, 2]) 2).toOption.any
      (fun state => state.2.branchNumbers = [1, 2]) = true := by decide +kernel
  cases h : program.steer (.ofBranches [1, 2]) 2 with
  | error halt => rw [h] at steered; cases steered
  | ok state =>
    rw [h] at steered
    have run : program.Run state.2 := run_of_steer h
    obtain ⟨_, ⟨r, again, finished, _⟩, _⟩ := replay_reproduces_run run
    exact ⟨state.2, run, of_decide_eq_true steered, r, again, finished⟩

end Program
end DecisionPoints
