import DecisionPoints.Proofs.PerResolution
import DecisionPoints.Proofs.ReceiverBranches

/-!
Static and special invocations do not depend on the class of the receiver. The method is fixed by
the class table and the instruction, and only a null receiver keeps a special invocation from it.
Which native methods are overridden is fixed too: the environment of an analysis decides what an
override answers, never which methods have one.
-/
namespace DecisionPoints
namespace Registry

theorem isOverridden_register (r : Registry) (method other : Signature) (override : Override) :
    (r.register method override).isOverridden other =
      (decide (other = method) || r.isOverridden other) :=
  r.overrides.contains_insert method other override

theorem isOverridden_foldl_register (entries : List (Signature × Override)) (r : Registry)
    (method : Signature) :
    (entries.foldl (fun r (m, override) => r.register m override) r).isOverridden method =
      (decide (method ∈ entries.map (·.1)) || r.isOverridden method) := by
  induction entries generalizing r with
  | nil => simp
  | cons entry rest ih =>
    rw [List.foldl_cons, ih, isOverridden_register]
    by_cases here : method = entry.1 <;> simp [here, -List.mem_map]

theorem isOverridden_ofEnvironment (e e' : Environment) (method : Signature) :
    (ofEnvironment e).isOverridden method = (ofEnvironment e').isOverridden method := by
  rw [ofEnvironment, ofEnvironment, isOverridden_foldl_register, isOverridden_foldl_register]
  rfl

end Registry

/-- Whether the receiver is null on this branch, from the start or as it is resolved. -/
def Dispatched.OnNull (receiver : Option Reference) (b : Dispatched) : Prop :=
  receiver = some .null ∨ (b.alternative.bind fun a => a.kind.referent?) = some .null

instance (receiver : Option Reference) (b : Dispatched) : Decidable (b.OnNull receiver) :=
  inferInstanceAs (Decidable (_ ∨ _))

namespace Engine

/-- Whether the engine analyzes these classes, in any configuration and after any operations. -/
def Analyzes (e : Engine) (classes : ClassTable) : Prop :=
  e.classes = classes ∧ ∃ environment, e.natives = .ofEnvironment environment

section Analyzes

variable {e e' : Engine} {classes : ClassTable}

theorem start_analyzes (config : Config) (classes : ClassTable) (procedure : DecisionProcedure)
    (watchdog : Watchdog) : (start config classes procedure watchdog).Analyzes classes :=
  ⟨rfl, config.environment, rfl⟩

theorem Analyzes.counted (h : e.Analyzes classes) : e.counted.Analyzes classes := h

theorem Analyzes.targetOf_eq (first : e.Analyzes classes) (second : e'.Analyzes classes) :
    e.targetOf = e'.targetOf := by
  obtain ⟨_, environment, natives⟩ := first
  obtain ⟨_, environment', natives'⟩ := second
  funext found
  cases found with
  | error failure => rfl
  | ok m =>
    rw [targetOf, targetOf, natives, natives',
      Registry.isOverridden_ofEnvironment environment environment']

theorem exists_target (classes : ClassTable) {d : Discipline} (unused : d.usesReceiver = false)
    (i : Invocation) :
    ∃ T, ∀ e : Engine, e.Analyzes classes → e.targetOn d i .irrelevant = .ok T := by
  let first := start {} classes .clausal .lazy
  have started : first.Analyzes classes := start_analyzes {} classes .clausal .lazy
  have known : ReceiverState.ofClass .object ≠ .irrelevant := nofun
  obtain ⟨T, found⟩ := first.exists_targetOn_eq_ok d i known
  rw [← targetOn_irrelevant i unused] at found
  refine ⟨T, fun e analyzes => ?_⟩
  rw [← found, targetOn, targetOn, Engine.dispatch, Engine.dispatch,
    analyzes.targetOf_eq started, analyzes.1]
  rfl

end Analyzes

variable {e : Engine} {heap : HeapView} {path : PathCondition} {i : Invocation} {T : Target}

theorem invoke_of_awake (awake : e.counted.isStopped = false) :
    (e.invoke heap path i).1 = e.branches heap path i := by
  simp only [invoke, awake, Bool.false_eq_true, if_false]
  rfl

theorem branches_static (flags : i.flags.discipline = .ok .static)
    (dispatched : e.targetOn .static i .irrelevant = .ok T) :
    e.branches heap path i = .ok [⟨none, T⟩] :=
  branches_of_single .irrelevant flags rfl dispatched

theorem branches_special_unforked (flags : i.flags.discipline = .ok .special)
    (dispatched : e.targetOn .special i .irrelevant = .ok T)
    (concrete : ∀ r, i.receiver ≠ some (.symbolic r)) :
    e.branches heap path i =
      .ok [⟨none, if i.receiver = some .null then .nullReceiver else T⟩] := by
  cases receiver : i.receiver with
  | none => exact branches_of_single .irrelevant flags (by simp [receiverPlan, receiver]) dispatched
  | some reference =>
    cases reference with
    | null => exact branches_of_single .null flags (by simp [receiverPlan, receiver]) rfl
    | object position =>
      refine branches_of_single .irrelevant flags ?_ dispatched
      simp [receiverPlan, receiver, Discipline.usesReceiver]
    | symbolic r => exact absurd receiver (concrete r)

theorem branchOf_special {c : Context} {a : Alternative} {b : Dispatched} {referent : Referent}
    (dispatched : e.targetOn .special i .irrelevant = .ok T)
    (kind : a.kind = .resolved referent) (run : e.branchOf c .special i a = .ok b) :
    b = ⟨some a, if referent = .null then .nullReceiver else T⟩ := by
  have onObject (className : ClassName) : e.targetOn .special i (.ofClass className) = .ok T := by
    rw [← targetOn_irrelevant i rfl, dispatched]
  obtain ⟨state, seen, run⟩ := bind_eq_ok_iff.mp run
  obtain ⟨target, found, run⟩ := bind_eq_ok_iff.mp run
  cases run
  rw [receiverOn, kind] at seen
  cases referent with
  | null =>
    cases seen
    cases found
    rfl
  | fresh className =>
    cases seen
    rw [onObject] at found
    cases found
    rfl
  | «alias» position origin =>
    cases known : c.classAt position with
    | error missing =>
      simp [OutcomeKind.referent?, known, bind, Except.bind, Except.mapError] at seen
    | ok className =>
      simp only [OutcomeKind.referent?, known, bind, Except.bind, pure, Except.pure,
        Except.mapError] at seen
      cases seen
      rw [onObject] at found
      cases found
      rfl

theorem branches_special_forked {r : SymbolicReference} (flags : i.flags.discipline = .ok .special)
    (dispatched : e.targetOn .special i .irrelevant = .ok T)
    (receiver : i.receiver = some (.symbolic r)) {branches : List Dispatched}
    (run : e.branches heap path i = .ok branches) {b : Dispatched} (member : b ∈ branches) :
    b.target = if b.OnNull i.receiver then .nullReceiver else T := by
  have plan : e.receiverPlan heap path .special i = .ok (.fork (.symbolic r)) := by
    simp [receiverPlan, receiver]
  cases enumerated : (e.context heap path).alternatives (.receiver (.symbolic r)) with
  | error failed =>
    simp [Engine.branches, flags, plan, enumerated, Except.mapError, bind, Except.bind] at run
  | ok alternatives =>
    rw [branches_of_fork flags plan enumerated] at run
    obtain ⟨a, among, branch⟩ := exists_of_mem_mapM run member
    obtain ⟨referent, kind⟩ := resolved_of_receiver enumerated a among
    rw [branchOf_special dispatched kind branch]
    simp [Dispatched.OnNull, receiver, kind, OutcomeKind.referent?]

theorem target_of_special (flags : i.flags.discipline = .ok .special)
    (dispatched : e.targetOn .special i .irrelevant = .ok T) {branches : List Dispatched}
    (run : e.branches heap path i = .ok branches) {b : Dispatched} (member : b ∈ branches) :
    b.target = if b.OnNull i.receiver then .nullReceiver else T := by
  by_cases symbolic : ∃ r, i.receiver = some (.symbolic r)
  · obtain ⟨r, receiver⟩ := symbolic
    exact branches_special_forked flags dispatched receiver run member
  · rw [not_exists] at symbolic
    rw [branches_special_unforked flags dispatched symbolic] at run
    cases run
    obtain rfl := List.mem_singleton.mp member
    simp [Dispatched.OnNull]

/-- A static or special invocation of an instruction has one target, whatever the heap, the path and
the receiver are, and in every analysis of the same classes. A static one always runs it, in one
branch; a special one runs it on all its branches but those on which the receiver is null. -/
theorem static_and_special_ignore_receiver (classes : ClassTable) (i : Invocation) :
    (i.flags = { isStatic := true } → ∃ T, ∀ e : Engine, e.Analyzes classes →
      e.counted.isStopped = false → ∀ heap path receiver,
        (e.invoke heap path { i with receiver }).1 = .ok [⟨none, T⟩]) ∧
    (i.flags = { isSpecial := true } → ∃ T, ∀ e : Engine, e.Analyzes classes →
      e.counted.isStopped = false → ∀ heap path receiver,
        ((∀ r, receiver ≠ some (.symbolic r)) →
          ∃ b, (e.invoke heap path { i with receiver }).1 = .ok [b]) ∧
        ∀ branches, (e.invoke heap path { i with receiver }).1 = .ok branches →
          ∀ b ∈ branches, b.target = if b.OnNull receiver then .nullReceiver else T) := by
  constructor
  · intro flags
    obtain ⟨T, dispatched⟩ := exists_target classes (d := .static) rfl i
    refine ⟨T, fun e analyzes awake heap path receiver => ?_⟩
    rw [invoke_of_awake awake]
    exact branches_static (i := { i with receiver }) (by rw [flags]; rfl) (dispatched e analyzes)
  · intro flags
    obtain ⟨T, dispatched⟩ := exists_target classes (d := .special) rfl i
    have special : i.flags.discipline = .ok .special := by rw [flags]; rfl
    refine ⟨T, fun e analyzes awake heap path receiver => ?_⟩
    rw [invoke_of_awake awake]
    have target : e.targetOn .special { i with receiver } .irrelevant = .ok T :=
      dispatched e analyzes
    constructor
    · intro concrete
      exact ⟨_, branches_special_unforked special target concrete⟩
    · intro branches run b member
      exact target_of_special (i := { i with receiver }) special target run member

theorem static_and_special_ignore_receiver_super :
    let shape : ClassDecl :=
      { name := ⟨"Shape"⟩, superclass := some .object, isAbstract := true,
        methods := [⟨"area", "()I", {}⟩, ⟨"count", "()I", { isStatic := true }⟩] }
    let circle : ClassDecl :=
      { name := ⟨"Circle"⟩, superclass := some ⟨"Shape"⟩, methods := [⟨"area", "()I", {}⟩] }
    let classes := (ClassTable.empty.insert shape).insert circle
    let e := Engine.start {} classes .clausal .lazy
    let s : HeapSnapshot := { objects := [⟨⟨"Circle"⟩, some (.root "o")⟩] }
    let receiver : Reference := .symbolic ⟨.root "r", ⟨"Circle"⟩⟩
    let superArea : Invocation :=
      { flags := { isSpecial := true }, method := ⟨⟨"Shape"⟩, "()I", "area"⟩,
        isInterfaceMethod := false, invokingClass := ⟨"Circle"⟩ }
    let count : Invocation :=
      { flags := { isStatic := true }, method := ⟨⟨"Shape"⟩, "()I", "count"⟩,
        isInterfaceMethod := false, invokingClass := ⟨"Circle"⟩ }
    let called := e.invoke (s.view classes) {} { superArea with receiver := some receiver }
    ∃ branches T S, called.1 = .ok branches ∧ branches.map (·.target) = [T, T, .nullReceiver] ∧
      (∀ b ∈ branches, b.target = if b.OnNull (some receiver) then .nullReceiver else T) ∧
      (e.invoke (s.view classes) {} count).1 = .ok [⟨none, S⟩] ∧
      (called.2.invoke (({} : HeapSnapshot).view classes) ⟨[.resolves (.root "r") .null]⟩
        { count with receiver := some receiver }).1 = .ok [⟨none, S⟩] := by
  intro shape circle classes e s receiver superArea count called
  let area : Target := .method ⟨⟨"Shape"⟩, ⟨"area", "()I", {}⟩⟩
  have started : e.Analyzes classes := start_analyzes {} classes .clausal .lazy
  obtain ⟨S, static⟩ := (static_and_special_ignore_receiver classes count).1 rfl
  obtain ⟨T, special⟩ := (static_and_special_ignore_receiver classes superArea).2 rfl
  have awake : e.counted.isStopped = false := by decide
  have targets : called.1.toOption.map (·.map (·.target)) = some [area, area, .nullReceiver] := by
    decide +kernel
  have dispatched : e.targetOn .special superArea .irrelevant = .ok area := by decide +kernel
  have unforked : (e.invoke (s.view classes) {} superArea).1 = .ok [⟨none, area⟩] := by
    rw [invoke_of_awake awake]
    exact branches_of_single .irrelevant rfl rfl dispatched
  have same : area = T := (special e started awake _ _ none).2 _ unforked _ List.mem_cons_self
  cases run : called.1 with
  | error failed => rw [run] at targets; cases targets
  | ok branches =>
    rw [run] at targets
    refine ⟨branches, T, S, rfl, ?_, ?_, ?_, ?_⟩
    · rw [← same]
      exact Option.some.inj targets
    · exact (special e started awake _ _ (some receiver)).2 branches run
    · exact static e started awake _ _ none
    · exact static called.2 started.counted (by decide) _ _ (some receiver)

end Engine
end DecisionPoints
