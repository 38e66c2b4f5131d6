import DecisionPoints.Proofs.SubtypeOrder
import Mathlib.Logic.Function.Iterate

/-!
Names of array types. The component of an array type is the name from which it was made, unless that
spells out a primitive type, which arrays know by its letter. So no two reference types have one
array type, and array types are below each other where their components are, whatever the classes
are and whatever they inherit.
-/
namespace DecisionPoints
namespace ClassName

def letterPrimitives : List ClassName :=
  [⟨"Z"⟩, ⟨"B"⟩, ⟨"C"⟩, ⟨"S"⟩, ⟨"I"⟩, ⟨"J"⟩, ⟨"F"⟩, ⟨"D"⟩]

def spelledPrimitives : List ClassName :=
  [⟨"boolean"⟩, ⟨"byte"⟩, ⟨"char"⟩, ⟨"short"⟩, ⟨"int"⟩, ⟨"long"⟩, ⟨"float"⟩, ⟨"double"⟩]

def primitives : List ClassName := letterPrimitives ++ spelledPrimitives

variable {n : ClassName}

theorem isReference_iff (n : ClassName) : n.isReference = true ↔ n ∉ primitives := by
  obtain ⟨text⟩ := n
  unfold isReference primitiveLetter?
  split <;> simp_all [primitives, letterPrimitives, spelledPrimitives]

theorem isReference_of_isArray (array : n.isArray = true) : n.isReference = true := by
  rw [isArray_eq_isSome] at array
  obtain ⟨c, peeled⟩ := Option.isSome_iff_exists.mp array
  exact isReference_of_component? peeled

/-- The name that an array type has for its components: a primitive type goes by its letter. -/
def asComponent (n : ClassName) : ClassName :=
  match n.primitiveLetter? with
  | some letter => ⟨letter.toString⟩
  | none => n

theorem asComponent_of_isReference (reference : n.isReference = true) : n.asComponent = n := by
  have plain : n.primitiveLetter? = none := by simpa [isReference] using reference
  rw [asComponent, plain]

theorem asComponent_eq_self_iff (n : ClassName) : n.asComponent = n ↔ n ∉ spelledPrimitives := by
  obtain ⟨text⟩ := n
  unfold asComponent primitiveLetter?
  split
  · next letter found => split at found <;> cases found <;> simp_all [spelledPrimitives, eq_comm]
  · next found => split at found <;> simp_all [spelledPrimitives]

theorem component?_bracket (text : String) : (mk ("[" ++ text)).component? =
    some ((ofDescriptor? text).getD ⟨text⟩) := by
  simp [component?]

theorem ofDescriptor?_class (n : ClassName) : ofDescriptor? ("L" ++ n.text ++ ";") = some n := by
  simp [ofDescriptor?]

theorem ofDescriptor?_of_isArray (array : n.isArray = true) : ofDescriptor? n.text = none := by
  have bracket : n.text.toList.head? = some '[' := by simpa [isArray] using array
  unfold ofDescriptor?
  split
  · next rest text => simp [text] at bracket
  · rfl

theorem ofDescriptor?_letter (letter : Char) : ofDescriptor? letter.toString = none := by
  unfold ofDescriptor?
  split
  · next rest text =>
    obtain ⟨_, rfl⟩ : letter = 'L' ∧ rest = [] := by simpa using text
    rfl
  · rfl

theorem isArray_arrayOf (n : ClassName) : n.arrayOf.isArray = true := by
  unfold arrayOf isArray
  split
  · simp
  · split <;> simp

theorem component?_arrayOf (n : ClassName) : n.arrayOf.component? = some n.asComponent := by
  unfold arrayOf
  by_cases array : n.isArray = true
  · rw [if_pos array, component?_bracket, ofDescriptor?_of_isArray array,
      asComponent_of_isReference (isReference_of_isArray array)]
    rfl
  · rw [if_neg array, asComponent]
    cases n.primitiveLetter? with
    | some letter =>
      dsimp only
      rw [component?_bracket, ofDescriptor?_letter]
      rfl
    | none =>
      have framed : "[L" ++ n.text ++ ";" = "[" ++ ("L" ++ n.text ++ ";") := by
        simp [← String.append_assoc]
      dsimp only
      rw [framed, component?_bracket, ofDescriptor?_class]
      rfl

theorem component?_iterate_arrayOf (unspelled : n ∉ spelledPrimitives) (depth : Nat) :
    (arrayOf^[depth + 1] n).component? = some (arrayOf^[depth] n) := by
  rw [Function.iterate_succ_apply', component?_arrayOf]
  cases depth with
  | zero => exact congrArg some ((asComponent_eq_self_iff n).mpr unspelled)
  | succ depth =>
    rw [Function.iterate_succ_apply']
    exact congrArg some (asComponent_of_isReference (isReference_of_isArray (isArray_arrayOf _)))

variable {a b : ClassName}

theorem arrayOf_injective (ha : a.isReference = true) (hb : b.isReference = true)
    (same : a.arrayOf = b.arrayOf) : a = b := by
  have components := congrArg component? same
  rw [component?_arrayOf, component?_arrayOf, asComponent_of_isReference ha,
    asComponent_of_isReference hb] at components
  exact Option.some.inj components

end ClassName

namespace Hierarchy

variable {h : Hierarchy} {a b : ClassName}

/-- What the check of a subtype comes to, from what the check of components comes to and from what
classes that are no arrays inherit. -/
def derived (inherits below : ClassName → ClassName → Bool) (sub sup : ClassName) : Bool :=
  if sub = sup then true
  else if !(sub.isReference && sup.isReference) then false
  else if sup = .object then true
  else
    match sub.component?, sup.component? with
    | some component, some required =>
      component.isReference && required.isReference && below component required
    | some _, none => sup = .cloneable || sup = .serializable
    | none, _ => inherits sub sup

def IsDerived (h : Hierarchy) : Prop :=
  ∃ inherits, ∀ sub sup, h.isSubtype sub sup = derived inherits h.isSubtype sub sup

theorem isSubtype_arrayOf (isDerived : h.IsDerived) (ha : a.isReference = true)
    (hb : b.isReference = true) : h.isSubtype a.arrayOf b.arrayOf = h.isSubtype a b := by
  obtain ⟨inherits, check⟩ := isDerived
  have peeled (c : ClassName) (reference : c.isReference = true) :
      c.arrayOf.component? = some c := by
    rw [ClassName.component?_arrayOf, ClassName.asComponent_of_isReference reference]
  by_cases same : a = b
  · subst same
    rw [check, check a a, derived, derived, if_pos rfl, if_pos rfl]
  · have differ : a.arrayOf ≠ b.arrayOf :=
      fun equal => same (ClassName.arrayOf_injective ha hb equal)
    have root : b.arrayOf ≠ .object := by
      intro root
      have none := peeled b hb
      rw [root] at none
      cases none
    rw [check, derived]
    simp [differ, root, peeled a ha, peeled b hb, ha, hb,
      ClassName.isReference_of_isArray (ClassName.isArray_arrayOf _)]

end Hierarchy

theorem ClassTable.isDerived_hierarchy (t : ClassTable) : t.hierarchy.IsDerived := by
  refine ⟨fun sub sup => (t.superclasses sub).any (·.name = sup) ||
    (t.superinterfaces sub).any (·.name = sup), fun sub sup => ?_⟩
  change t.isSubtype sub sup = Hierarchy.derived _ t.isSubtype sub sup
  rw [isSubtype, Hierarchy.derived]
  refine if_congr Iff.rfl rfl (if_congr Iff.rfl rfl (if_congr Iff.rfl rfl ?_))
  split
  · next component peeled => cases sup.component? <;> simp [peeled]
  · next bare => simp [bare]

/-- The array type of a name is an array, and at every depth of nesting its component is what it was
made from, for all names but the spelled-out primitive ones. In every hierarchy that derives
subtyping, as a table does, the array types of reference types are below each other just where these
types are. -/
theorem array_names_round_trip_covariantly :
    (∀ n : ClassName, n.arrayOf.isArray = true ∧
      (n.arrayOf.component? = some n ↔ n ∉ ClassName.spelledPrimitives)) ∧
    (∀ n ∉ ClassName.spelledPrimitives, ∀ depth,
      (ClassName.arrayOf^[depth + 1] n).isArray = true ∧
      (ClassName.arrayOf^[depth + 1] n).component? = some (ClassName.arrayOf^[depth] n)) ∧
    (∀ t : ClassTable, t.hierarchy.IsDerived) ∧
    ∀ h : Hierarchy, h.IsDerived → ∀ a b : ClassName, a.isReference = true → b.isReference = true →
      (h.isSubtype a.arrayOf b.arrayOf = true ↔ h.isSubtype a b = true) := by
  refine ⟨fun n => ⟨n.isArray_arrayOf, ?_⟩, fun n unspelled depth => ⟨?_, ?_⟩,
    ClassTable.isDerived_hierarchy, ?_⟩
  · rw [ClassName.component?_arrayOf, Option.some.injEq, ClassName.asComponent_eq_self_iff]
  · rw [Function.iterate_succ_apply']
    exact ClassName.isArray_arrayOf _
  · exact ClassName.component?_iterate_arrayOf unspelled depth
  · intro h isDerived a b ha hb
    rw [Hierarchy.isSubtype_arrayOf isDerived ha hb]

theorem array_names_round_trip_covariantly_integers :
    let int : ClassName := ⟨"I"⟩
    let h := ClassTable.base.hierarchy
    int ∉ ClassName.spelledPrimitives ∧ h.IsDerived ∧ int.arrayOf.isReference = true ∧
      ClassName.object.isReference = true ∧
      (ClassName.mk "[[I").component? = some ⟨"[I"⟩ ∧
      h.isSubtype ⟨"[[I"⟩ ⟨"[Ljava/lang/Object;"⟩ = true := by
  intro int h
  have unspelled : int ∉ ClassName.spelledPrimitives := by decide
  have once : int.arrayOf = ⟨"[I"⟩ := by decide
  have twice : (ClassName.mk "[I").arrayOf = ⟨"[[I"⟩ := by decide
  have objects : ClassName.object.arrayOf = ⟨"[Ljava/lang/Object;"⟩ := by decide
  have component := (array_names_round_trip_covariantly.2.1 int unspelled 1).2
  have derived := array_names_round_trip_covariantly.2.2.1 ClassTable.base
  have below := (array_names_round_trip_covariantly.2.2.2 h derived int.arrayOf .object (by decide)
    (by decide)).mpr (ClassTable.isSubtype_object (by decide))
  rw [Function.iterate_succ_apply, Function.iterate_one, once, twice] at component
  rw [once, twice, objects] at below
  exact ⟨unspelled, derived, by decide, by decide, component, below⟩

end DecisionPoints
