import DecisionPoints.Proofs.MethodLookup
import Mathlib.Data.List.Basic

/-!
Virtual invocations select the most specific override. The reference is resolved on the way from the
named class to the root, by any declaration; the method is selected on the way from the class of the
receiver, where only what can override counts. The second way leads through the first, so it meets
an override at the latest where the reference was resolved. Interfaces, static and private methods
of the same name have no part in it.
-/
namespace DecisionPoints

/-- The method that the class declares for the request, if that method overrides others. -/
def ClassDecl.override? (d : ClassDecl) (r : Request) : Option Method :=
  (d.method? r.method.name r.method.descriptor).filter fun m =>
    !m.flags.isStatic && !m.flags.isPrivate

namespace ClassTable

variable {t : ClassTable} {r : Request} {root : ClassName} {d : ClassDecl} {m : Method}

theorem override?_eq_some_iff : d.override? r = some m ↔
    d.method? r.method.name r.method.descriptor = some m ∧
      m.flags.isStatic = false ∧ m.flags.isPrivate = false := by
  simp [ClassDecl.override?, Option.filter_eq_some_iff]

theorem override?_of_declares {declared : DeclaredMethod} (declares : d.Declares r declared)
    (onInstances : declared.flags.isStatic = false) (visible : declared.flags.isPrivate = false) :
    d.override? r = some declared.method :=
  override?_eq_some_iff.mpr ⟨declares.2, onInstances, visible⟩

theorem exists_first_override (above : d ∈ t.superclasses root)
    (overrides : d.override? r = some m) :
    ∃ before first after method, t.superclasses root = before ++ first :: after ∧
      (∀ c ∈ before, c.override? r = none) ∧ first.override? r = some method ∧
      d ∈ first :: after := by
  have met : ((t.superclasses root).find? fun c => (c.override? r).isSome).isSome := by
    rw [List.find?_isSome]
    exact ⟨d, above, by rw [overrides]; rfl⟩
  obtain ⟨first, found⟩ := Option.isSome_iff_exists.mp met
  obtain ⟨overriding, before, after, chain, earlier⟩ := List.find?_eq_some_iff_append.mp found
  obtain ⟨method, declared⟩ := Option.isSome_iff_exists.mp overriding
  have none : ∀ c ∈ before, c.override? r = none := by
    intro c member
    simpa using earlier c member
  refine ⟨before, first, after, method, chain, none, declared, ?_⟩
  rw [chain, List.mem_append] at above
  rcases above with early | late
  · rw [none d early] at overrides
    cases overrides
  · exact late

theorem inheritedFrom?_eq_first {before after : List ClassDecl}
    (chain : t.superclasses root = before ++ d :: after)
    (earlier : ∀ c ∈ before, c.override? r = none) (overrides : d.override? r = some m) :
    t.inheritedFrom? root r false = some ⟨d.name, m⟩ := by
  obtain ⟨declared, onInstances, visible⟩ := override?_eq_some_iff.mp overrides
  have here : declaredIn (d :: after) r.method.name r.method.descriptor =
      ⟨d.name, m⟩ :: declaredIn after r.method.name r.method.descriptor := by
    simp [declaredIn, declared]
  have passed : (declaredIn before r.method.name r.method.descriptor).find? (fun m =>
      !m.flags.isStatic && (false || !m.flags.isPrivate)) = none := by
    rw [List.find?_eq_none]
    intro n among overriding
    obtain ⟨c, member, declares⟩ := mem_declaredIn_iff.mp among
    simp only [Bool.false_or, Bool.and_eq_true, Bool.not_eq_true'] at overriding
    have also := override?_of_declares (r := r) declares overriding.1 overriding.2
    rw [earlier c member] at also
    cases also
  have split : declaredIn (t.superclasses root) r.method.name r.method.descriptor =
      declaredIn before r.method.name r.method.descriptor ++
        declaredIn (d :: after) r.method.name r.method.descriptor := by
    rw [chain]
    exact List.filterMap_append ..
  rw [inheritedFrom?, split, List.find?_append, passed, here, Option.none_or,
    List.find?_cons_of_pos]
  simp [DeclaredMethod.flags, onInstances, visible]

theorem selectFrom_eq_first {before after : List ClassDecl}
    (chain : t.superclasses root = before ++ d :: after)
    (earlier : ∀ c ∈ before, c.override? r = none) (overrides : d.override? r = some m) :
    t.selectFrom root r false = if m.flags.isAbstract
      then .error (.abstractMethod (r.method.inClass d.name)) else .ok ⟨d.name, m⟩ := by
  obtain ⟨declared, _⟩ := override?_eq_some_iff.mp overrides
  obtain ⟨name, descriptor⟩ := ClassDecl.name_of_method? declared
  have signature : (⟨d.name, m⟩ : DeclaredMethod).signature = r.method.inClass d.name := by
    rw [DeclaredMethod.signature, name, descriptor]
    rfl
  rw [selectFrom_of_inheritedFrom? (inheritedFrom?_eq_first chain earlier overrides), signature]
  rfl

theorem dispatch_virtual_of_resolved {resolved : DeclaredMethod} {receiver : ClassName}
    (found : t.resolveReference r = .ok resolved) (onInstances : resolved.flags.isStatic = false)
    (visible : resolved.flags.isPrivate = false) (receiverType : r.receiverType = some receiver)
    (single : receiver.isArray = false) (loaded : (t.find? receiver).isSome) :
    t.dispatch .virtual r = .ok (t.selectFrom receiver r false) := by
  obtain ⟨c, known⟩ := Option.isSome_iff_exists.mp loaded
  have planned : t.plan .virtual r resolved = .ok (.search receiver false) := by
    simp [plan, planVirtual, onInstances, visible, receiverType, single, known]
  rw [dispatch, found]
  dsimp only
  rw [planned]
  rfl

theorem find?_isSome_of_mem_superclasses (above : d ∈ t.superclasses root) :
    (t.find? root).isSome := by
  cases mem_superclasses_iff.mp above with
  | here found | next found linked rest => exact Option.isSome_iff_exists.mpr ⟨_, found⟩

/-- A virtual invocation on a class below the named one executes the first override on the way from
there to the root, which is where the reference was resolved or below. If that is abstract the
invocation fails, and it fails in no other way. The table may be cyclic. -/
theorem virtual_selects_first_override {resolved : DeclaredMethod} {receiver : ClassName}
    {owner declaring : ClassDecl} (found : t.resolveReference r = .ok resolved)
    (onInstances : resolved.flags.isStatic = false) (visible : resolved.flags.isPrivate = false)
    (loaded : t.find? r.method.owner = some owner)
    (above : declaring ∈ t.superclasses r.method.owner) (declares : declaring.name = resolved.owner)
    (receiverType : r.receiverType = some receiver) (single : receiver.isArray = false)
    (inherits : owner ∈ t.superclasses receiver) :
    ∃ before first after method, t.superclasses receiver = before ++ first :: after ∧
      (∀ c ∈ before, c.override? r = none) ∧ first.override? r = some method ∧
      declaring ∈ first :: after ∧
      t.dispatch .virtual r = .ok (if method.flags.isAbstract
        then .error (.abstractMethod (r.method.inClass first.name))
        else .ok ⟨first.name, method⟩) := by
  have onWay : declaring ∈ t.superclasses receiver := by
    rw [← (find?_eq_some_iff.mp loaded).2] at above
    rw [mem_superclasses_iff] at above inherits ⊢
    exact inherits.trans above
  have overrides : declaring.override? r = some resolved.method :=
    override?_of_declares
      (declares_of_resolveReference found (mem_superclasses_iff.mp onWay).mem declares)
      onInstances visible
  obtain ⟨before, first, after, method, chain, earlier, overriding, reached⟩ :=
    exists_first_override onWay overrides
  refine ⟨before, first, after, method, chain, earlier, overriding, reached, ?_⟩
  rw [dispatch_virtual_of_resolved found onInstances visible receiverType single
    (find?_isSome_of_mem_superclasses inherits), selectFrom_eq_first chain earlier overriding]

theorem virtual_selects_first_override_abstract :
    let area (flags : MethodFlags) : Method := ⟨"area", "()I", flags⟩
    let shape : ClassDecl :=
      { name := ⟨"Shape"⟩, superclass := some .object, methods := [area {}] }
    let conic : ClassDecl :=
      { name := ⟨"Conic"⟩, superclass := some ⟨"Shape"⟩, isAbstract := true,
        methods := [area { isAbstract := true }] }
    let measured : ClassDecl := { ClassDecl.interface ⟨"Measured"⟩ with methods := [area {}] }
    let circle : ClassDecl :=
      { name := ⟨"Circle"⟩, superclass := some ⟨"Conic"⟩, interfaces := [⟨"Measured"⟩],
        methods := [area { isPrivate := true }] }
    let t := (((ClassTable.base.insert shape).insert conic).insert measured).insert circle
    let r : Request :=
      { method := ⟨⟨"Shape"⟩, "()I", "area"⟩, isInterfaceMethod := false,
        receiverType := some ⟨"Circle"⟩ }
    t.resolveReference r = .ok ⟨⟨"Shape"⟩, area {}⟩ ∧ shape ∈ t.superclasses ⟨"Shape"⟩ ∧
      shape ∈ t.superclasses ⟨"Circle"⟩ ∧
      t.dispatch .virtual r = .ok (.error (.abstractMethod ⟨⟨"Conic"⟩, "()I", "area"⟩)) ∧
      ∃ before first after method, t.superclasses ⟨"Circle"⟩ = before ++ first :: after ∧
        (∀ c ∈ before, c.override? r = none) ∧ first.override? r = some method ∧
        shape ∈ first :: after ∧
        t.dispatch .virtual r = .ok (if method.flags.isAbstract
          then .error (.abstractMethod (r.method.inClass first.name))
          else .ok ⟨first.name, method⟩) := by
  intro area shape conic measured circle t r
  have found : t.resolveReference r = .ok ⟨⟨"Shape"⟩, area {}⟩ := by decide +kernel
  have above : shape ∈ t.superclasses ⟨"Shape"⟩ := by decide +kernel
  have inherits : shape ∈ t.superclasses ⟨"Circle"⟩ := by decide +kernel
  have loaded : t.find? ⟨"Shape"⟩ = some shape := by decide +kernel
  refine ⟨found, above, inherits, by decide +kernel, ?_⟩
  exact virtual_selects_first_override found rfl rfl loaded above rfl rfl rfl inherits

/-- A class that is declared under the name of an array type is passed over: as a receiver it is
an array, on which the methods of the root class are executed. -/
theorem array_receiver_executes_no_override :
    let run : Method := ⟨"run", "()V", {}⟩
    let task : ClassDecl := { name := ⟨"Task"⟩, superclass := some .object, methods := [run] }
    let tasks : ClassDecl := { name := ⟨"[LTask;"⟩, superclass := some ⟨"Task"⟩, methods := [run] }
    let t := (ClassTable.base.insert task).insert tasks
    let r : Request :=
      { method := ⟨⟨"Task"⟩, "()V", "run"⟩, isInterfaceMethod := false,
        receiverType := some ⟨"[LTask;"⟩ }
    t.Acyclic ∧ t.find? ⟨"Task"⟩ = some task ∧ task.isInterface = false ∧
      t.resolveReference r = .ok ⟨⟨"Task"⟩, run⟩ ∧ task ∈ t.superclasses ⟨"Task"⟩ ∧
      t.find? ⟨"[LTask;"⟩ = some tasks ∧ task ∈ t.superclasses ⟨"[LTask;"⟩ ∧
      (t.superclasses ⟨"[LTask;"⟩).head? = some tasks ∧ tasks.override? r = some run ∧
      t.dispatch .virtual r = .ok (.error (.abstractMethod ⟨⟨"Task"⟩, "()V", "run"⟩)) := by
  intro run task tasks t r
  have acyclic : t.Acyclic := by
    apply acyclic_of_rank fun name =>
      if name = ⟨"[LTask;"⟩ then 2 else if name = .object then 0 else 1
    decide +kernel
  have found : t.resolveReference r = .ok ⟨⟨"Task"⟩, run⟩ := by decide +kernel
  have planned : t.plan .virtual r ⟨⟨"Task"⟩, run⟩ = .ok (.search .object false) := by
    decide +kernel
  have inherited : t.inheritedFrom? .object r false = none := by decide +kernel
  have interfaces : t.superinterfaces .object = [] :=
    superinterfaces_eq_nil (by decide +kernel)
  have failed : t.dispatch .virtual r =
      .ok (.error (.abstractMethod ⟨⟨"Task"⟩, "()V", "run"⟩)) := by
    rw [dispatch, found]
    dsimp only
    rw [planned]
    change Except.ok (t.selectFrom .object r false) = _
    rw [selectFrom, inherited, maximallySpecific_eq_nil interfaces]
    rfl
  refine ⟨acyclic, ?_, rfl, found, ?_, ?_, ?_, ?_, rfl, failed⟩ <;> decide +kernel

end ClassTable
end DecisionPoints
