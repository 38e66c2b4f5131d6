import DecisionPoints.Proofs.MethodLookup
import Mathlib.Data.List.Basic

/-!
Special invocations. A direct one executes the method that its reference names, and no override of
it. A call of a superclass method searches from the superclass of the invoking class, so in an
acyclic table it never comes back to the class that it is made from.
-/
namespace DecisionPoints

/-- Whether the request calls the method that it names on the class that it names, and not a method
of a superclass of the invoking class. -/
def Request.IsDirect (t : ClassTable) (r : Request) (invoking : ClassName) : Prop :=
  r.method.name = "<init>" ∨ r.isInterfaceMethod = true ∨ r.method.owner = invoking ∨
    t.isSubtype invoking r.method.owner = false

instance (t : ClassTable) (r : Request) (invoking : ClassName) :
    Decidable (r.IsDirect t invoking) :=
  inferInstanceAs (Decidable (_ ∨ _ ∨ _ ∨ _))

namespace ClassTable

variable {t : ClassTable} {r : Request} {resolved m : DeclaredMethod} {d : ClassDecl}
variable {name invoking root : ClassName}

theorem isSuperCall_eq_false_iff (found : t.resolveReference r = .ok resolved) :
    t.isSuperCall r resolved invoking = false ↔ r.IsDirect t invoking := by
  obtain ⟨d, _, _, declared⟩ := exists_declares_of_resolveReference found
  rw [isSuperCall, Request.IsDirect, (ClassDecl.name_of_method? declared).1]
  simp only [ne_eq, Bool.and_eq_false_iff, decide_eq_false_iff_not, not_not, Bool.not_eq_false',
    or_assoc]

theorem dispatch_special_of_resolved (found : t.resolveReference r = .ok resolved)
    (onInstances : resolved.flags.isStatic = false) (invokes : r.invokingClass = some invoking) :
    t.dispatch .special r = .ok (if t.isSuperCall r resolved invoking then
        match (t.find? invoking).bind (·.superclass) with
        | some superclass => t.selectFrom superclass r true
        | none => .error (.noClassDefFound invoking)
      else t.selectFrom r.method.owner r true) := by
  rw [dispatch, found]
  simp only [plan, planSpecial, onInstances, invokes]
  cases t.isSuperCall r resolved invoking with
  | false => rfl
  | true => cases (t.find? invoking).bind (·.superclass) <;> rfl

theorem inheritedFrom?_eq_resolved (found : t.resolveReference r = .ok resolved)
    (onInstances : resolved.flags.isStatic = false)
    (above : d ∈ t.superclasses r.resolutionRoot) (declares : d.name = resolved.owner) :
    t.inheritedFrom? r.resolutionRoot r true = some resolved := by
  obtain ⟨rest, first⟩ := declaredIn_of_resolveReference found above declares
  rw [inheritedFrom?, first, List.find?_cons_of_pos]
  simp [onInstances]

theorem Acyclic.name_ne_of_inherits (acyclic : t.Acyclic) {c : ClassDecl}
    (loaded : t.find? invoking = some c) (extended : c.superclass = some root)
    (inherits : t.Inherits root d) : d.name ≠ invoking := by
  intro same
  obtain ⟨member, named⟩ := find?_eq_some_iff.mp loaded
  obtain rfl : d = c := eq_of_name_eq (mem_of_inherits inherits) member (same.trans named.symm)
  have parent : root ∈ parents d := by simp [parents, extended]
  exact acyclic d member root parent (reaches_parents_of_inherits inherits)

/-- A direct special invocation of a method that a class declares executes that method, unless it is
abstract. A call of a superclass method executes one that the superclass of the invoking class has
from a class or an interface, and never one of the invoking class. -/
theorem special_targets (acyclic : t.Acyclic) (invokes : r.invokingClass = some invoking)
    (single : r.method.owner.isArray = false) (found : t.resolveReference r = .ok resolved)
    (onInstances : resolved.flags.isStatic = false) :
    (r.IsDirect t invoking → ∀ d ∈ t.superclasses r.method.owner, d.name = resolved.owner →
      t.dispatch .special r = .ok (if resolved.flags.isAbstract
        then .error (.abstractMethod resolved.signature) else .ok resolved)) ∧
    (¬ r.IsDirect t invoking → ∀ m, t.dispatch .special r = .ok (.ok m) →
      ∃ c superclass d, t.find? invoking = some c ∧ c.superclass = some superclass ∧
        (d ∈ t.superclasses superclass ∨ d ∈ t.superinterfaces superclass) ∧ d.Declares r m ∧
        m.owner ≠ invoking) := by
  have dispatched := dispatch_special_of_resolved found onInstances invokes
  constructor
  · intro direct d above declares
    have resolvedThere : r.resolutionRoot = r.method.owner := by
      simp [Request.resolutionRoot, single]
    rw [← resolvedThere] at above
    have inherited := inheritedFrom?_eq_resolved found onInstances above declares
    rw [resolvedThere] at inherited
    rw [dispatched, (isSuperCall_eq_false_iff found).mpr direct,
      ← selectFrom_of_inheritedFrom? inherited]
    rfl
  · intro indirect m selected
    have superCall : t.isSuperCall r resolved invoking = true := by
      rw [← isSuperCall_eq_false_iff found] at indirect
      simpa using indirect
    rw [dispatched, if_pos superCall] at selected
    cases extended : (t.find? invoking).bind (·.superclass) with
    | none => simp [extended] at selected
    | some superclass =>
      rw [extended] at selected
      obtain ⟨c, loaded, up⟩ := Option.bind_eq_some_iff.mp extended
      obtain ⟨d, inherits, declares⟩ := exists_declares_of_selectFrom (Except.ok.inj selected)
      refine ⟨c, superclass, d, loaded, up, inherits, declares, ?_⟩
      rw [← declares.1]
      exact acyclic.name_ne_of_inherits loaded up inherits

theorem special_targets_private_and_super :
    let area (flags : MethodFlags) : Method := ⟨"area", "()I", flags⟩
    let radius : Method := ⟨"radius", "()I", { isPrivate := true }⟩
    let shape : ClassDecl :=
      { name := ⟨"Shape"⟩, superclass := some .object, methods := [area {}] }
    let conic : ClassDecl :=
      { name := ⟨"Conic"⟩, superclass := some ⟨"Shape"⟩, methods := [area { isStatic := true }] }
    let circle : ClassDecl :=
      { name := ⟨"Circle"⟩, superclass := some ⟨"Conic"⟩, methods := [area {}, radius] }
    let t := ((ClassTable.base.insert shape).insert conic).insert circle
    let own : Request :=
      { method := ⟨⟨"Circle"⟩, "()I", "radius"⟩, isInterfaceMethod := false,
        invokingClass := some ⟨"Circle"⟩ }
    let above : Request :=
      { method := ⟨⟨"Shape"⟩, "()I", "area"⟩, isInterfaceMethod := false,
        invokingClass := some ⟨"Circle"⟩ }
    t.Acyclic ∧ own.IsDirect t ⟨"Circle"⟩ ∧ ¬ above.IsDirect t ⟨"Circle"⟩ ∧
      t.dispatch .special own = .ok (.ok ⟨⟨"Circle"⟩, radius⟩) ∧
      t.dispatch .special above = .ok (.ok ⟨⟨"Shape"⟩, area {}⟩) ∧
      ∃ c superclass d, t.find? ⟨"Circle"⟩ = some c ∧ c.superclass = some superclass ∧
        (d ∈ t.superclasses superclass ∨ d ∈ t.superinterfaces superclass) ∧
        d.Declares above ⟨⟨"Shape"⟩, area {}⟩ ∧ (⟨"Shape"⟩ : ClassName) ≠ ⟨"Circle"⟩ := by
  intro area radius shape conic circle t own above
  have acyclic : t.Acyclic := by
    apply acyclic_of_rank fun name =>
      if name = ⟨"Circle"⟩ then 3 else if name = ⟨"Conic"⟩ then 2 else
        if name = .object then 0 else 1
    decide +kernel
  have direct : own.IsDirect t ⟨"Circle"⟩ := by decide +kernel
  have indirect : ¬ above.IsDirect t ⟨"Circle"⟩ := by decide +kernel
  have ownFound : t.resolveReference own = .ok ⟨⟨"Circle"⟩, radius⟩ := by decide +kernel
  have aboveFound : t.resolveReference above = .ok ⟨⟨"Shape"⟩, area {}⟩ := by decide +kernel
  have selected : t.dispatch .special above = .ok (.ok ⟨⟨"Shape"⟩, area {}⟩) := by decide +kernel
  refine ⟨acyclic, direct, indirect, ?_, selected, ?_⟩
  · have declaring : circle ∈ t.superclasses ⟨"Circle"⟩ := by decide +kernel
    exact (special_targets acyclic rfl (by decide) ownFound rfl).1 direct circle declaring rfl
  · exact (special_targets acyclic rfl (by decide) aboveFound rfl).2 indirect _ selected

end ClassTable
end DecisionPoints
