import DecisionPoints.Condition.Decider
import DecisionPoints.Proofs.Alternatives
import DecisionPoints.Proofs.ArrayNames
import DecisionPoints.Proofs.PerResolution

/-!
Class descriptors. The descriptor of a class gives back its name, as the type of a field and as the
component of an array. Names of classes and of primitive types are one kind of text, though, and a
class that is called like a primitive type is taken for that type: no access to its references is
possible, and none to arrays of them.
-/
namespace DecisionPoints
namespace ClassName

variable {n : ClassName}

def descriptor (n : ClassName) : String := "L" ++ n.text ++ ";"

theorem referenceType?_descriptor (owner n : ClassName) (name : String) :
    (Signature.mk owner n.descriptor name).referenceType? = some n := by
  have bare : (mk n.descriptor).isArray = false := by simp [isArray, descriptor]
  rw [Signature.referenceType?, bare]
  exact ofDescriptor?_class n

theorem component?_bracket_descriptor (n : ClassName) :
    (mk ("[" ++ n.descriptor)).component? = some n := by
  rw [component?_bracket, descriptor, ofDescriptor?_class]
  rfl

end ClassName

namespace Context

variable {c : Context} {n : ClassName} {a : Access}

/-- Whether the access is to a field or an array of the class: it loads a reference of the class
from a field with its descriptor or from an array of that descriptor, or stores into one. -/
inductive IsAccessTo (c : Context) (n : ClassName) : Access → Prop where
  | field (owner : ClassName) (name : String) (origin : Origin) :
    IsAccessTo c n (.fieldLoad ⟨owner, n.descriptor, name⟩ (.symbolic ⟨origin, n⟩))
  | load {array : Nat} (held : c.heap.classAt? array = some ⟨"[" ++ n.descriptor⟩)
    (length index : Expression) (origin : Origin) (isFresh : Bool) :
    IsAccessTo c n (.arrayLoad array length index (.symbolic ⟨origin, n⟩) isFresh)
  | store {array : Nat} (held : c.heap.classAt? array = some ⟨"[" ++ n.descriptor⟩)
    (length index : Expression) (value : Reference) :
    IsAccessTo c n (.arrayStore array length index value)

theorem componentAt_descriptor {array : Nat}
    (held : c.heap.classAt? array = some ⟨"[" ++ n.descriptor⟩) :
    c.componentAt array = if n.isReference then .ok n else .error (.notAReference n) := by
  simp only [componentAt, classAt, held, bind, Except.bind, ClassName.component?_bracket_descriptor]

theorem subject?_fieldLoad_descriptor (owner : ClassName) (name : String) (origin : Origin) :
    c.subject? (.fieldLoad ⟨owner, n.descriptor, name⟩ (.symbolic ⟨origin, n⟩)) =
      some <$> (fun _ => ⟨origin, n⟩) <$> c.ensureResolvable ⟨origin, n⟩ := by
  simp only [subject?, Reference.expectSymbolic, bind, Except.bind,
    ClassName.referenceType?_descriptor, if_true]
  cases c.ensureResolvable ⟨origin, n⟩ <;> rfl

theorem isStorable_ne_notAReference {array : Nat} {component : ClassName}
    (elements : c.componentAt array = .ok component) (value : Reference) (m : ClassName) :
    c.isStorable array value ≠ .error (.notAReference m) := by
  rw [isStorable, elements]
  intro same
  cases value with
  | null => cases same
  | object position =>
    simp only [bind, Except.bind, classAt] at same
    cases known : c.heap.classAt? position with
    | none =>
      rw [known] at same
      cases same
    | some className =>
      rw [known] at same
      cases same
  | symbolic r => cases same

section Reference

variable {t : ClassTable} (hierarchy : c.hierarchy = t.hierarchy)
variable (loaded : (t.find? n).isSome = true) (reference : n.isReference = true)
include hierarchy loaded reference

theorem ensureResolvable_of_loaded (origin : Origin) : c.ensureResolvable ⟨origin, n⟩ = .ok () := by
  have known : c.hierarchy.isKnown n = true := by
    simp [hierarchy, ClassTable.hierarchy, ClassTable.isKnown, loaded]
  rw [ensureResolvable, if_pos reference, ensureKnown, if_pos known]

theorem outcomes_ne_notAReference (access : c.IsAccessTo n a) (m : ClassName) :
    c.outcomes a ≠ .error (.notAReference m) := by
  cases access with
  | field owner name origin =>
    have subject := subject?_fieldLoad_descriptor (c := c) (n := n) owner name origin
    rw [ensureResolvable_of_loaded hierarchy loaded reference] at subject
    obtain ⟨outcomes, found⟩ := exists_outcomes_of_total subject fun s => ⟨_, rfl⟩
    rw [found]
    intro same
    cases same
  | @load array held length index origin isFresh =>
    have elements := componentAt_descriptor held
    have fits : c.hierarchy.isSubtype n n = true := by
      rw [hierarchy]
      exact ClassTable.isSubtype_iff_isBelow.mpr (.refl n)
    have subject : c.subject? (.arrayLoad array length index (.symbolic ⟨origin, n⟩) isFresh) =
        .ok (some ⟨origin, n⟩) := by
      rw [subject?, elements, if_pos reference]
      simp only [bind, Except.bind, fits, if_true,
        ensureResolvable_of_loaded hierarchy loaded reference]
      rfl
    obtain ⟨outcomes, found⟩ := exists_outcomes_of_total subject fun s => ⟨_, rfl⟩
    rw [found]
    intro same
    cases same
  | @store array held length index value =>
    have elements := componentAt_descriptor held
    rw [if_pos reference] at elements
    have resolutions : c.subjectResolutions (.arrayStore array length index value) = .ok [] := by
      rw [subjectResolutions, subject?, elements]
      rfl
    have storable := isStorable_ne_notAReference elements value m
    rw [outcomes, resolutions]
    cases stored : c.isStorable array value with
    | error e =>
      rw [stored] at storable
      simpa [bind, Except.bind, stored] using storable
    | ok fits =>
      simp [bind, Except.bind, pure, Except.pure, stored]

end Reference

theorem outcomes_eq_notAReference (primitive : n.isReference = false) (access : c.IsAccessTo n a) :
    c.outcomes a = .error (.notAReference n) := by
  have subject : c.subject? a = .error (.notAReference n) := by
    cases access with
    | field owner name origin =>
      rw [subject?_fieldLoad_descriptor, ensureResolvable, primitive]
      rfl
    | load held length index origin isFresh =>
      rw [subject?, componentAt_descriptor held, primitive]
      rfl
    | store held length index value =>
      rw [subject?, componentAt_descriptor held, primitive]
      rfl
  rw [outcomes, subjectResolutions, subject]
  rfl

/-- The descriptor of a loaded class gives back its name, as the type of a field and as the component
of an array. That name is one of a reference type, and no access to the class says otherwise, just
if it is not one of the sixteen names of primitive types. If it is, every access does. -/
theorem class_descriptor_usable_iff {t : ClassTable} {n : ClassName}
    (loaded : (t.find? n).isSome = true) :
    (∀ owner name, (Signature.mk owner n.descriptor name).referenceType? = some n) ∧
      (ClassName.mk ("[" ++ n.descriptor)).component? = some n ∧
      (n.isReference = true ↔ n ∉ ClassName.primitives) ∧
      ∀ c : Context, c.hierarchy = t.hierarchy → ∀ a, c.IsAccessTo n a →
        (n ∉ ClassName.primitives → ∀ m, c.alternatives a ≠ .error (.notAReference m)) ∧
        (n ∈ ClassName.primitives → c.alternatives a = .error (.notAReference n)) := by
  refine ⟨fun owner name => ClassName.referenceType?_descriptor owner n name,
    ClassName.component?_bracket_descriptor n, ClassName.isReference_iff n, ?_⟩
  intro c hierarchy a access
  constructor
  · intro named m
    rw [Ne, alternatives_eq_error_iff (by simp)]
    have reference := (ClassName.isReference_iff n).mpr named
    exact outcomes_ne_notAReference hierarchy loaded reference access m
  · intro named
    rw [alternatives_eq_error_iff (by simp)]
    have primitive : n.isReference = false := by
      rw [← Bool.not_eq_true, ClassName.isReference_iff, not_not]
      exact named
    exact outcomes_eq_notAReference primitive access

theorem class_descriptor_usable_iff_default_package :
    let n : ClassName := ⟨"Node"⟩
    let t := ClassTable.base.insert (.concrete n .object)
    let s : HeapSnapshot := { objects := [⟨⟨"[LNode;"⟩, none⟩] }
    let c : Context :=
      { policy := {}, heap := s.view t, hierarchy := t.hierarchy, procedure := .clausal
        path := {} }
    let field : Signature := ⟨n, "LNode;", "next"⟩
    let r : Reference := .symbolic ⟨.root "r", n⟩
    (t.find? n).isSome = true ∧ field.referenceType? = some n ∧ n.isReference = true ∧ ∀ m,
      c.alternatives (.fieldLoad field r) ≠ .error (.notAReference m) ∧
      c.alternatives (.arrayLoad 0 (.int 3) (.term "i") r true) ≠ .error (.notAReference m) ∧
      c.alternatives (.arrayStore 0 (.int 3) (.term "i") .null) ≠ .error (.notAReference m) := by
  intro n t s c field r
  have loaded : (t.find? n).isSome = true := by decide +kernel
  have named : n ∉ ClassName.primitives := by decide
  have declared : field = ⟨n, n.descriptor, "next"⟩ := by decide
  have held : c.heap.classAt? 0 = some ⟨"[" ++ n.descriptor⟩ := by decide
  obtain ⟨typed, _, reference, access⟩ := class_descriptor_usable_iff loaded
  rw [declared]
  refine ⟨loaded, typed n "next", reference.mpr named, fun m => ⟨?_, ?_, ?_⟩⟩
  · exact (access c rfl _ (.field n "next" (.root "r"))).1 named m
  · exact (access c rfl _ (.load held (.int 3) (.term "i") (.root "r") true)).1 named m
  · exact (access c rfl _ (.store held (.int 3) (.term "i") .null)).1 named m

/-- A class of the default package that has the letter of a primitive type for its name. Its field
has a reference type by its descriptor, and so has an array of it, but all accesses take the name
for that of the primitive type. -/
theorem class_descriptor_taken_for_primitive :
    let n : ClassName := ⟨"I"⟩
    let t := ClassTable.base.insert (.concrete n .object)
    let s : HeapSnapshot := { objects := [⟨⟨"[LI;"⟩, none⟩] }
    let c : Context :=
      { policy := {}, heap := s.view t, hierarchy := t.hierarchy, procedure := .clausal
        path := {} }
    let field : Signature := ⟨n, "LI;", "next"⟩
    let r : Reference := .symbolic ⟨.root "r", n⟩
    (n.text ≠ "" ∧ ∀ char ∈ n.text.toList, char ≠ '.' ∧ char ≠ ';' ∧ char ≠ '[') ∧
      (t.find? n).isSome = true ∧ field.referenceType? = some n ∧
      (ClassName.mk "[LI;").component? = some n ∧ n.isReference = false ∧
      c.alternatives (.fieldLoad field r) = .error (.notAReference n) ∧
      c.alternatives (.arrayLoad 0 (.int 3) (.term "i") r true) = .error (.notAReference n) ∧
      c.alternatives (.arrayStore 0 (.int 3) (.term "i") .null) = .error (.notAReference n) := by
  intro n t s c field r
  have declared : field = ⟨n, n.descriptor, "next"⟩ := by decide
  have held : c.heap.classAt? 0 = some ⟨"[" ++ n.descriptor⟩ := by decide
  have failing {a : Access} (access : c.IsAccessTo n a) :
      c.alternatives a = .error (.notAReference n) :=
    (alternatives_eq_error_iff (by simp)).mpr (outcomes_eq_notAReference (by decide) access)
  have plain : n.text ≠ "" ∧ ∀ char ∈ n.text.toList, char ≠ '.' ∧ char ≠ ';' ∧ char ≠ '[' :=
    ⟨by decide, by simp [n]⟩
  refine ⟨plain, by decide +kernel, by decide, by decide, by decide, ?_, ?_, ?_⟩
  · rw [declared]
    exact failing (.field n "next" (.root "r"))
  · exact failing (.load held (.int 3) (.term "i") (.root "r") true)
  · exact failing (.store held (.int 3) (.term "i") .null)

end Context
end DecisionPoints
