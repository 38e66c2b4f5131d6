import DecisionPoints.Class.Walk

/-!
Subtyping between names. Arrays are covariant in their reference components, and every reference
type is below the root class, loaded or not. `Hierarchy` is what an enumeration asks about classes;
a table answers it by its walks.
-/
namespace DecisionPoints
namespace ClassTable

def isSubtype (t : ClassTable) (sub sup : ClassName) : Bool :=
  if sub = sup then true
  else if !(sub.isReference && sup.isReference) then false
  else if sup = .object then true
  else
    match _peeled : sub.component? with
    | some component =>
      match sup.component? with
      | some required =>
        component.isReference && required.isReference && t.isSubtype component required
      | none => sup = .cloneable || sup = .serializable
    | none =>
      (t.superclasses sub).any (·.name = sup) || (t.superinterfaces sub).any (·.name = sup)
termination_by sub.text.length
decreasing_by exact ClassName.component?_length_lt _peeled

/-- The classes an object of type `name` may have, in ascending order. An array type is its own only
concrete subtype. -/
def concreteSubtypes (t : ClassTable) (name : ClassName) : List ClassName :=
  if name.isArray then [name]
  else (t.classes.filter fun d => d.isInstantiable && t.isSubtype d.name name).map (·.name)

end ClassTable

structure Hierarchy where
  isKnown : ClassName → Bool
  isSubtype : ClassName → ClassName → Bool

def ClassTable.hierarchy (t : ClassTable) : Hierarchy := ⟨t.isKnown, t.isSubtype⟩

end DecisionPoints
