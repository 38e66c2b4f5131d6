import DecisionPoints.Replay

/-!
Progress of a replay. A selection takes its decision out of the record whether or not it succeeds,
so what is left counts the selections that were tried: of the decisions that are gone, some may never
have been taken again. The two numbers agree exactly as long as no selection has met another program
than the recorded one.
-/
namespace DecisionPoints
namespace Replay

/-- What a sequence of selections gives, one for each decision point, and the replay after them. -/
def selectAll (r : Replay) :
    List (List Alternative) → List (Except ReplayError Alternative) × Replay
  | [] => ([], r)
  | as :: later =>
    let (result, rest) := r.select as
    let (results, last) := rest.selectAll later
    (result :: results, last)

def isSelected : Except ReplayError Alternative → Bool
  | .ok _ => true
  | .error _ => false

def isMismatch : Except ReplayError Alternative → Bool
  | .ok _ => false
  | .error .exhausted => false
  | .error _ => true

theorem matching_ne_exhausted (d : RecordedDecision) (a : Alternative) :
    matching d a ≠ .error .exhausted := by
  unfold matching
  split
  · nofun
  · dsimp only
    split <;> nofun

/-- What one selection can do: with nothing recorded it fails and changes nothing, and otherwise the
next decision is gone, whatever the result. -/
theorem select_cases (r : Replay) (as : List Alternative) :
    (r.record = [] ∧ r.select as = (.error .exhausted, r)) ∨
      ∃ d rest result, r.record = d :: rest ∧ r.select as = (result, ⟨rest⟩) ∧
        result ≠ .error .exhausted := by
  obtain ⟨record⟩ := r
  cases record with
  | nil => exact .inl ⟨rfl, rfl⟩
  | cons d rest =>
    right
    unfold select
    dsimp only
    split
    · exact ⟨d, rest, _, rfl, rfl, nofun⟩
    · next a found => exact ⟨d, rest, _, rfl, rfl, matching_ne_exhausted d a⟩

theorem isMismatch_eq_not_isSelected {result : Except ReplayError Alternative}
    (tried : result ≠ .error .exhausted) : isMismatch result = !isSelected result := by
  cases result with
  | ok a => rfl
  | error e =>
    cases e with
    | exhausted => exact absurd rfl tried
    | _ => rfl

theorem record_selectAll (r : Replay) (points : List (List Alternative)) :
    (r.selectAll points).2.record = r.record.drop points.length := by
  induction points generalizing r with
  | nil => rfl
  | cons as later ih =>
    obtain ⟨empty, selected⟩ | ⟨d, rest, result, recorded, selected, _⟩ := r.select_cases as
    · simp [selectAll, selected, ih, empty]
    · simp [selectAll, selected, ih, recorded]

theorem remaining_add_counts (r : Replay) (points : List (List Alternative)) :
    (r.selectAll points).2.remaining + (r.selectAll points).1.countP isSelected +
      (r.selectAll points).1.countP isMismatch = r.remaining := by
  induction points generalizing r with
  | nil => rfl
  | cons as later ih =>
    obtain ⟨empty, selected⟩ | ⟨d, rest, result, recorded, selected, tried⟩ := r.select_cases as
    · have again := ih r
      simp only [selectAll, selected, List.countP_cons]
      simpa [isSelected, isMismatch] using again
    · have step : r.remaining = (⟨rest⟩ : Replay).remaining + 1 := by
        simp [remaining, recorded]
      have again := ih ⟨rest⟩
      simp only [selectAll, selected, List.countP_cons, isMismatch_eq_not_isSelected tried]
      cases isSelected result with
      | true => simp; omega
      | false => simp; omega

theorem select_eq_self_iff (r : Replay) (as : List Alternative) :
    (r.select as).2 = r ↔ (r.select as).1 = .error .exhausted := by
  obtain ⟨empty, selected⟩ | ⟨d, rest, result, recorded, selected, tried⟩ := r.select_cases as
  · simp [selected]
  · rw [selected]
    have shorter : (⟨rest⟩ : Replay) ≠ r := by
      intro same
      have record : rest = d :: rest := by rw [← recorded, ← same]
      exact List.cons_ne_self d rest record.symm
    exact iff_of_false shorter tried

/-- A selection takes one decision out of the record, also if it fails because the program offers
something else. So what remains is what was recorded without the decisions selected exactly if no
selection failed in that way, and under the same condition a finished replay has selected all of its
record. A selection leaves the replay as it was only where nothing is recorded any more. -/
theorem remaining_counts_selections (r : Replay) (points : List (List Alternative)) :
    let results := (r.selectAll points).1
    let last := (r.selectAll points).2
    last.record = r.record.drop points.length ∧
      last.remaining + results.countP isSelected + results.countP isMismatch = r.remaining ∧
      (last.remaining = r.remaining - results.countP isSelected ↔
        ∀ result ∈ results, isMismatch result = false) ∧
      (last.isFinished = true → (results.countP isSelected = r.remaining ↔
        ∀ result ∈ results, isMismatch result = false)) ∧
      ∀ as, (last.select as).2 = last ↔ (last.select as).1 = .error .exhausted := by
  intro results last
  have total : last.remaining + results.countP isSelected + results.countP isMismatch =
      r.remaining := r.remaining_add_counts points
  have unmatched : (∀ result ∈ results, isMismatch result = false) ↔
      results.countP isMismatch = 0 := by
    rw [List.countP_eq_zero]
    simp
  refine ⟨r.record_selectAll points, total, ?_, ?_, last.select_eq_self_iff⟩
  · rw [unmatched]
    omega
  · intro finished
    have none : last.remaining = 0 := by simpa [remaining, isFinished] using finished
    rw [unmatched]
    omega

/-- The record of another program: two alternatives are offered where the third was taken. The
replay counts as finished all the same, with no decision selected. -/
theorem failed_selection_counted_as_replayed :
    let siblings : List Alternative :=
      [{ family := .arrayStore, kind := .inBounds, guard := {}, branch := 1 },
        { family := .arrayStore, kind := .outOfBounds, guard := {}, branch := 2 }]
    let r := Replay.ofBranches [3]
    let results := (r.selectAll [siblings]).1
    let last := (r.selectAll [siblings]).2
    results = [.error (.diverged 3 [1, 2])] ∧ results.countP isSelected = 0 ∧ r.remaining = 1 ∧
      last.remaining = 0 ∧ last.isFinished = true :=
  ⟨rfl, rfl, rfl, rfl, rfl⟩

end Replay
end DecisionPoints
