import DecisionPoints.Value.Expression
import Mathlib.Data.List.Nodup

/-!
Assignments of integers to terms. An expression looks at its own terms only, and one in which no
term occurs twice takes every value unless it has no terms at all. So what several expressions
without common terms are asked for, one at a time, a single assignment gives them together.
-/
namespace DecisionPoints
namespace Expression

theorem eval_congr {e : Expression} {v w : String → Int} (agree : ∀ x ∈ e.terms, v x = w x) :
    e.eval v = e.eval w := by
  induction e with
  | int n => rfl
  | term name => exact agree name List.mem_cons_self
  | add l r ihl ihr | sub l r ihl ihr =>
    simp only [terms, List.mem_append] at agree
    have left := ihl fun x member => agree x (.inl member)
    have right := ihr fun x member => agree x (.inr member)
    simp only [eval, left, right]

def Takes (e : Expression) (n : Int) : Prop := ∃ value, e.eval value = n

end Expression

/-- What can be asked of an assignment one by one, each time about other terms, can be asked of it
at once. -/
theorem exists_common_assignment {α : Type} (names : α → List String)
    (asked : α → (String → Int) → Prop)
    (reads : ∀ a v w, (∀ x ∈ names a, v x = w x) → asked a v → asked a w) {as : List α}
    (distinct : (as.flatMap names).Nodup) (each : ∀ a ∈ as, ∃ v, asked a v) :
    ∃ v, ∀ a ∈ as, asked a v := by
  induction as with
  | nil => exact ⟨fun _ => 0, nofun⟩
  | cons a rest ih =>
    rw [List.flatMap_cons, List.nodup_append'] at distinct
    obtain ⟨_, later, apart⟩ := distinct
    obtain ⟨v, first⟩ := each a List.mem_cons_self
    obtain ⟨w, others⟩ := ih later fun b member => each b (List.mem_cons_of_mem _ member)
    -- The terms of the first one keep its integers, all other terms those of the rest.
    refine ⟨fun x => if x ∈ names a then v x else w x, fun b member => ?_⟩
    rcases List.mem_cons.mp member with same | among
    · subst same
      apply reads b v _ _ first
      intro x mine
      exact (if_pos mine).symm
    · apply reads b w _ _ (others b among)
      intro x theirs
      have foreign : x ∉ names a := fun mine =>
        apart mine (List.mem_flatMap.mpr ⟨b, among, theirs⟩)
      exact (if_neg foreign).symm

namespace Expression

theorem takes_together {l r : Expression} {m n : Int} (distinct : (l.terms ++ r.terms).Nodup)
    (left : l.Takes m) (right : r.Takes n) : ∃ value, l.eval value = m ∧ r.eval value = n := by
  have both : ∀ pair ∈ [(l, m), (r, n)], ∃ value, pair.1.eval value = pair.2 := by
    intro pair member
    rcases List.mem_pair.mp member with same | same
    · subst same
      exact left
    · subst same
      exact right
  obtain ⟨value, given⟩ := exists_common_assignment
    (fun pair : Expression × Int => pair.1.terms)
    (fun pair value => pair.1.eval value = pair.2)
    (fun pair v w agree asked => (eval_congr agree).symm.trans asked)
    (by simpa using distinct) both
  exact ⟨value, given _ List.mem_cons_self, given _ (List.mem_cons_of_mem _ List.mem_cons_self)⟩

theorem takes_of_part {l r : Expression} {combine : Int → Int → Int}
    (solveLeft : ∀ k n, ∃ m, combine m k = n) (solveRight : ∀ m n, ∃ k, combine m k = n)
    (distinct : (l.terms ++ r.terms).Nodup) (symbolic : l.terms ++ r.terms ≠ [])
    (left : l.terms ≠ [] → ∀ m, l.Takes m) (right : r.terms ≠ [] → ∀ k, r.Takes k) (n : Int) :
    ∃ value, combine (l.eval value) (r.eval value) = n := by
  by_cases constant : l.terms = []
  · have moves : r.terms ≠ [] := by simpa [constant] using symbolic
    obtain ⟨k, solved⟩ := solveRight (l.eval fun _ => 0) n
    obtain ⟨value, hl, hr⟩ := takes_together distinct ⟨fun _ => 0, rfl⟩ (right moves k)
    exact ⟨value, by rw [hl, hr, solved]⟩
  · obtain ⟨m, solved⟩ := solveLeft (r.eval fun _ => 0) n
    obtain ⟨value, hl, hr⟩ := takes_together distinct (left constant m) ⟨fun _ => 0, rfl⟩
    exact ⟨value, by rw [hl, hr, solved]⟩

theorem takes_of_symbolic {e : Expression} (distinct : e.terms.Nodup) (symbolic : e.terms ≠ [])
    (n : Int) : e.Takes n := by
  induction e generalizing n with
  | int m => exact absurd rfl symbolic
  | term name => exact ⟨fun _ => n, rfl⟩
  | add l r ihl ihr =>
    obtain ⟨left, right, _⟩ := List.nodup_append'.mp distinct
    apply takes_of_part _ _ distinct symbolic (ihl left) (ihr right)
    · intro k n
      exact ⟨n - k, by omega⟩
    · intro m n
      exact ⟨n - m, by omega⟩
  | sub l r ihl ihr =>
    obtain ⟨left, right, _⟩ := List.nodup_append'.mp distinct
    apply takes_of_part _ _ distinct symbolic (ihl left) (ihr right)
    · intro k n
      exact ⟨n + k, by omega⟩
    · intro m n
      exact ⟨m - n, by omega⟩

end Expression
end DecisionPoints
