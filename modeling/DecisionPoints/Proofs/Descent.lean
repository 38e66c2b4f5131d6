import DecisionPoints.Value.Origin
import Mathlib.Logic.Relation

/-!
Descent between origins. A root or a static field is reached through nothing, and every other origin
is one dereference away from a single container. So the origins that one descends from stand in a
row that ends with a root or a static field, each less deep by one dereference than the one before.
-/
namespace DecisionPoints
namespace Origin

def container? : Origin → Option Origin
  | .root _ | .staticField _ _ => none
  | .field inner _ | .element inner _ => some inner

def Dereferences (o inner : Origin) : Prop := o.container? = some inner

variable {o inner ancestor : Origin}

theorem Dereferences.depth_eq (step : o.Dereferences inner) : o.depth = inner.depth + 1 := by
  cases o with
  | root name => cases step
  | staticField owner name => cases step
  | field container name => cases step; rfl
  | element array index => cases step; rfl

theorem rightUnique_dereferences : Relator.RightUnique Dereferences := by
  intro o a b first second
  exact Option.some.inj (first.symm.trans second)

theorem descendsFrom_iff_eq_or : o.descendsFrom ancestor = true ↔
    o = ancestor ∨ ∃ inner, o.Dereferences inner ∧ inner.descendsFrom ancestor = true := by
  cases o <;> simp [descendsFrom, Dereferences, container?]

theorem descendsFrom_iff_reflTransGen :
    o.descendsFrom ancestor = true ↔ Relation.ReflTransGen Dereferences o ancestor := by
  induction o with
  | root name | staticField owner name =>
    rw [descendsFrom_iff_eq_or, Relation.ReflTransGen.cases_head_iff]
    simp [Dereferences, container?]
  | field inner name ih | element inner index ih =>
    rw [descendsFrom_iff_eq_or, Relation.ReflTransGen.cases_head_iff]
    simp [Dereferences, container?, ih]

theorem depth_le_of_reflTransGen (path : Relation.ReflTransGen Dereferences o ancestor) :
    ancestor.depth ≤ o.depth := by
  induction path with
  | refl => exact Nat.le_refl _
  | tail path step ih =>
    have deeper := step.depth_eq
    omega

theorem eq_of_depth_le (path : Relation.ReflTransGen Dereferences o ancestor)
    (level : o.depth ≤ ancestor.depth) : o = ancestor := by
  rcases Relation.ReflTransGen.cases_head_iff.mp path with same | ⟨inner, step, rest⟩
  · exact same
  · have deeper := step.depth_eq
    have above := depth_le_of_reflTransGen rest
    omega

/-- Descent is any number of dereferences, each of which adds one to the depth. It is a partial
order in which an origin is deeper than all others that it descends from, and these are comparable
with each other, as the nodes above one node of a tree are. -/
theorem descent_tree_order (a b c : Origin) :
    (a.descendsFrom b = true ↔ Relation.ReflTransGen Dereferences a b) ∧
      (a.Dereferences b → a.depth = b.depth + 1) ∧
      a.descendsFrom a = true ∧
      (a.descendsFrom b = true → b.descendsFrom c = true → a.descendsFrom c = true) ∧
      (a.descendsFrom b = true → b.descendsFrom a = true → a = b) ∧
      (a.descendsFrom b = true → b.depth ≤ a.depth ∧ (b.depth = a.depth → a = b)) ∧
      (a.descendsFrom b = true → a.descendsFrom c = true →
        b.descendsFrom c = true ∨ c.descendsFrom b = true) := by
  refine ⟨descendsFrom_iff_reflTransGen, Dereferences.depth_eq, ?_⟩
  simp only [descendsFrom_iff_reflTransGen]
  refine ⟨.refl, .trans, ?_, ?_, ?_⟩
  · intro path back
    exact eq_of_depth_le path (depth_le_of_reflTransGen back)
  · intro path
    refine ⟨depth_le_of_reflTransGen path, fun level => ?_⟩
    exact eq_of_depth_le path (Nat.le_of_eq level.symm)
  · intro first second
    exact Relation.ReflTransGen.total_of_right_unique rightUnique_dereferences first second

end Origin
end DecisionPoints
