import DecisionPoints.Class.Table

/-!
Walks over the loaded classes. A walk carries the classes it has not visited yet, so it ends on
every table, a cyclic one included: each visit takes a class out of that list. Names that are not
loaded are passed over.
-/
namespace DecisionPoints
namespace ClassTable

def without (unvisited : List ClassDecl) (name : ClassName) : List ClassDecl :=
  unvisited.filter (·.name ≠ name)

theorem length_without_lt {unvisited : List ClassDecl} {name : ClassName} {d : ClassDecl}
    (h : unvisited.find? (·.name = name) = some d) :
    (without unvisited name).length < unvisited.length := by
  refine List.length_filter_lt_length_iff_exists.mpr ⟨d, List.mem_of_find?_eq_some h, ?_⟩
  simpa using List.find?_some h

def chainFrom (unvisited : List ClassDecl) (name : ClassName) : List ClassDecl :=
  match _found : unvisited.find? (·.name = name) with
  | none => []
  | some d =>
    d :: match d.superclass with
      | none => []
      | some superclass => chainFrom (without unvisited name) superclass
termination_by unvisited.length
decreasing_by exact length_without_lt _found

def interfacesFrom (unvisited : List ClassDecl) (queue : List ClassName) : List ClassDecl :=
  match queue with
  | [] => []
  | name :: rest =>
    match _found : unvisited.find? (·.name = name) with
    | none => interfacesFrom unvisited rest
    | some d => d :: interfacesFrom (without unvisited name) (rest ++ d.interfaces)
termination_by (unvisited.length, queue.length)
decreasing_by
  · exact Prod.Lex.right _ (Nat.lt_succ_self _)
  · exact Prod.Lex.left _ _ (length_without_lt _found)

/-- The class called `name` followed by its superclasses, up to the root, to a class that is not
loaded or to a class met before. -/
def superclasses (t : ClassTable) (name : ClassName) : List ClassDecl := chainFrom t.classes name

/-- Every loaded interface of the class called `name`, its own and inherited ones, those of nearer
classes first. -/
def superinterfaces (t : ClassTable) (name : ClassName) : List ClassDecl :=
  interfacesFrom t.classes ((t.superclasses name).flatMap (·.interfaces))

end ClassTable
end DecisionPoints
