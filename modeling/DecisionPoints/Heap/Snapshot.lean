import DecisionPoints.Class.Subtyping
import DecisionPoints.Heap.View

/-!
A heap in memory. An object's position is its index, objects are only added, and an object without
an origin was created by the analyzed program. Such an object is never an alias of a symbolic
reference.
-/
namespace DecisionPoints

structure HeapObject where
  className : ClassName
  origin : Option Origin
deriving DecidableEq, Repr

structure HeapSnapshot where
  objects : List HeapObject := []
  /-- Origins of references known not to be null. -/
  nonNull : List Origin := []
deriving DecidableEq, Repr

namespace HeapSnapshot

def size (s : HeapSnapshot) : Nat := s.objects.length

def isEmpty (s : HeapSnapshot) : Bool := s.objects.isEmpty

def object? (s : HeapSnapshot) (position : Nat) : Option HeapObject := s.objects[position]?

def push (s : HeapSnapshot) (object : HeapObject) : HeapSnapshot :=
  { s with objects := s.objects ++ [object] }

@[simp] theorem object?_push_size (s : HeapSnapshot) (object : HeapObject) :
    (s.push object).object? s.size = some object := by
  simp [push, object?, size]

/-- Whether the later heap has the objects of this one at the same positions, and perhaps more. -/
def GrowsTo (s later : HeapSnapshot) : Prop := s.objects <+: later.objects

theorem growsTo_push (s : HeapSnapshot) (object : HeapObject) : s.GrowsTo (s.push object) :=
  List.prefix_append _ _

theorem GrowsTo.object? {s later : HeapSnapshot} (grows : s.GrowsTo later) {position : Nat}
    {object : HeapObject} (found : s.object? position = some object) :
    later.object? position = some object := by
  obtain ⟨more, objects⟩ := grows
  have inside : position < s.objects.length := (List.getElem?_eq_some_iff.mp found).1
  rw [HeapSnapshot.object?, ← objects, List.getElem?_append_left inside]
  exact found

def allocate (s : HeapSnapshot) (className : ClassName) : HeapSnapshot :=
  s.push ⟨className, none⟩

/-- The heap after the reference with the origin is resolved to an object not seen before. -/
def discover (s : HeapSnapshot) (className : ClassName) (origin : Origin) : HeapSnapshot :=
  s.push ⟨className, some origin⟩

theorem growsTo_discover (s : HeapSnapshot) (className : ClassName) (origin : Origin) :
    s.GrowsTo (s.discover className origin) :=
  s.growsTo_push _

def assumeNonNull (s : HeapSnapshot) (origin : Origin) : HeapSnapshot :=
  { s with nonNull := origin :: s.nonNull }

/-- The discovered objects below a type, except the one discovered through the origin itself. -/
def aliasCandidates (t : ClassTable) (s : HeapSnapshot) (required : ClassName) (origin : Origin) :
    List AliasCandidate :=
  s.objects.zipIdx.filterMap fun (object, position) =>
    match object.origin with
    | some found =>
      if found ≠ origin ∧ t.isSubtype object.className required then some ⟨position, found⟩
      else none
    | none => none

def view (t : ClassTable) (s : HeapSnapshot) : HeapView where
  aliasCandidates := s.aliasCandidates t
  admitsFresh required := !(t.concreteSubtypes required).isEmpty
  admitsNull _ origin := !s.nonNull.contains origin
  classAt? position := (s.object? position).map (·.className)
  expansions := t.concreteSubtypes
  materialized? origin := s.objects.findIdx? (·.origin = some origin)

end HeapSnapshot

end DecisionPoints
