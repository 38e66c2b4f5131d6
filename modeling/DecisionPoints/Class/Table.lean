import DecisionPoints.Class.Declaration

/-!
The loaded classes, in ascending order of name and each name once. The graph of superclasses and
interfaces may be cyclic and may refer to classes that are not loaded.
-/
namespace DecisionPoints

structure ClassTable where
  classes : List ClassDecl
  ascending : classes.Pairwise fun a b => a.name < b.name

namespace ClassTable

def empty : ClassTable := ⟨[], .nil⟩

def insert (t : ClassTable) (d : ClassDecl) : ClassTable where
  classes := t.classes.filter (·.name < d.name) ++ d :: t.classes.filter (d.name < ·.name)
  ascending := by
    refine List.pairwise_append.mpr ⟨t.ascending.filter _, ?_, ?_⟩
    · refine List.pairwise_cons.mpr ⟨fun e he => ?_, t.ascending.filter _⟩
      simpa using (List.mem_filter.mp he).2
    · intro a ha b hb
      have below : a.name < d.name := by simpa using (List.mem_filter.mp ha).2
      cases hb with
      | head => exact below
      | tail _ hb => exact ClassName.lt_trans below (by simpa using (List.mem_filter.mp hb).2)

def base : ClassTable :=
  ((empty.insert { name := .object, superclass := none }).insert (.interface .cloneable)).insert
    (.interface .serializable)

def find? (t : ClassTable) (name : ClassName) : Option ClassDecl :=
  t.classes.find? (·.name = name)

def names (t : ClassTable) : List ClassName := t.classes.map (·.name)

def size (t : ClassTable) : Nat := t.classes.length

def isEmpty (t : ClassTable) : Bool := t.classes.isEmpty

/-- Array types are known whether or not their components are. -/
def isKnown (t : ClassTable) (name : ClassName) : Bool := name.isArray || (t.find? name).isSome

theorem eq_of_name_eq {t : ClassTable} {d e : ClassDecl} (hd : d ∈ t.classes)
    (he : e ∈ t.classes) (same : d.name = e.name) : d = e := by
  have distinct := t.ascending
  generalize t.classes = classes at *
  induction distinct with
  | nil => cases hd
  | cons lt _ ih =>
    cases hd with
    | head =>
      cases he with
      | head => rfl
      | tail _ he => exact absurd (same ▸ lt e he) (ClassName.lt_irrefl _)
    | tail _ hd =>
      cases he with
      | head => exact absurd (same ▸ lt d hd) (ClassName.lt_irrefl _)
      | tail _ he => exact ih hd he

theorem find?_eq_some_iff {t : ClassTable} {name : ClassName} {d : ClassDecl} :
    t.find? name = some d ↔ d ∈ t.classes ∧ d.name = name := by
  constructor
  · intro h
    exact ⟨List.mem_of_find?_eq_some h, by simpa using List.find?_some h⟩
  · rintro ⟨mem, rfl⟩
    cases h : t.find? d.name with
    | none => exact absurd (List.find?_eq_none.mp h d mem) (by simp)
    | some e =>
      have found : e ∈ t.classes := List.mem_of_find?_eq_some h
      have same : e.name = d.name := by simpa using List.find?_some h
      exact congrArg some (eq_of_name_eq found mem same)

end ClassTable

end DecisionPoints
