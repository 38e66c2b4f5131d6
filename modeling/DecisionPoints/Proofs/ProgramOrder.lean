import DecisionPoints.Engine.Error
import DecisionPoints.Proofs.GatheredErrors

/-!
When a report is in program order. Only adding an error at its counter sorts the report. All that is
added after that in other ways stands behind it, in the order in which it was added. So the report
is in program order exactly if what stands there is so by itself and does not reach back before what
was sorted.
-/
namespace DecisionPoints
namespace Located

variable {ε δ : Type}

theorem ascending_map (f : ε → δ) (es : List (Located ε)) :
    Ascending (es.map (·.map f)) ↔ Ascending es := List.pairwise_map

theorem IsStableSort.map {es sorted : List (Located ε)} (stable : IsStableSort es sorted)
    (f : ε → δ) : IsStableSort (es.map (·.map f)) (sorted.map (·.map f)) :=
  ⟨(ascending_map f sorted).mpr stable.ascending, stable.perm.map _, stable.steady.map f⟩

end Located

namespace Gathering

open Located

def settled {ε : Type} : Gathering ε → List (Located ε)
  | start => []
  | add g _ => g.settled
  | addLocated g pc payload => g.added ++ [⟨pc, payload⟩]
  | addMany g _ => g.settled
  | map g f => g.settled.map (·.map f)

/-- What has been added since the report was last sorted. -/
def loose {ε : Type} : Gathering ε → List (Located ε)
  | start => []
  | add g e => g.loose ++ [e]
  | addLocated _ _ _ => []
  | addMany g es => g.loose ++ es
  | map g f => g.loose.map (·.map f)

variable {ε : Type}

theorem settled_append_loose (g : Gathering ε) : g.settled ++ g.loose = g.added := by
  induction g with
  | start => rfl
  | add g e ih => rw [settled, loose, added, ← ih, List.append_assoc]
  | addLocated g pc payload ih => exact List.append_nil _
  | addMany g es ih => rw [settled, loose, added, ← ih, List.append_assoc]
  | map g f ih => rw [settled, loose, added, ← ih, List.map_append]

theorem exists_report_eq (g : Gathering ε) :
    ∃ sorted, IsStableSort g.settled sorted ∧ g.report.errors = sorted ++ g.loose := by
  induction g with
  | start => exact ⟨[], ⟨.nil, .refl _, fun _ => rfl⟩, rfl⟩
  | add g e ih =>
    obtain ⟨sorted, stable, split⟩ := ih
    refine ⟨sorted, stable, ?_⟩
    rw [report, Report.add, split, loose, List.append_assoc]
  | addLocated g pc payload ih =>
    exact ⟨_, g.isStableSort_addLocated pc payload, (List.append_nil _).symm⟩
  | addMany g es ih =>
    obtain ⟨sorted, stable, split⟩ := ih
    refine ⟨sorted, stable, ?_⟩
    rw [report, Report.addMany, split, loose, List.append_assoc]
  | map g f ih =>
    obtain ⟨sorted, stable, split⟩ := ih
    refine ⟨_, stable.map f, ?_⟩
    rw [report, Report.map, split, loose, List.map_append]

/-- A report is in program order exactly if what was added since it was last sorted is ascending and
not before anything that was sorted. So it is after every error that is added at its counter, and a
report taken over from a part of the library is in program order exactly if the part is. -/
theorem in_program_order_iff (g : Gathering ε) :
    g.settled ++ g.loose = g.added ∧
      (Ascending g.report.errors ↔
        Ascending g.loose ∧ ∀ d ∈ g.settled, ∀ e ∈ g.loose, d.pc ≤ e.pc) ∧
      (∀ pc payload, Ascending (g.addLocated pc payload).report.errors) ∧
      ∀ {δ : Type} (f : ε → δ), Ascending (g.map f).report.errors ↔ Ascending g.report.errors := by
  refine ⟨g.settled_append_loose, ?_, ?_, ?_⟩
  · obtain ⟨sorted, stable, split⟩ := g.exists_report_eq
    rw [split, Ascending, List.pairwise_append]
    constructor
    · intro ⟨_, ascending, apart⟩
      exact ⟨ascending, fun d member => apart d (stable.perm.mem_iff.mpr member)⟩
    · intro ⟨ascending, apart⟩
      exact ⟨stable.ascending, ascending, fun d member => apart d (stable.perm.mem_iff.mp member)⟩
  · intro pc payload
    exact Report.ascending_sorted _
  · intro δ f
    exact ascending_map f g.report.errors

/-- Errors that are added one by one, or all at once, stand as they come, also in the report that
takes them over. -/
theorem added_against_program_order :
    let early : Located ReplayError := ⟨3, .exhausted⟩
    let late : Located ReplayError := ⟨12, .exhausted⟩
    let single := (start.add late).add early
    let many := start.addMany [late, early]
    let whole := single.map EngineError.replay
    single.report.errors.map (·.pc) = [12, 3] ∧ ¬ Ascending single.report.errors ∧
      ¬ Ascending many.report.errors ∧ ¬ Ascending whole.report.errors := by
  intro early late single many whole
  exact ⟨rfl, by decide, by decide, by decide⟩

end Gathering
end DecisionPoints
