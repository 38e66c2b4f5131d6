import DecisionPoints.Condition.Decider
import DecisionPoints.Engine.Invocation
import DecisionPoints.Heap.Snapshot
import DecisionPoints.Proofs.Alternatives

/-!
Branches of an invocation. A symbolic receiver forks the execution, and on every branch the method
is the one that the same invocation finds on a receiver that was the referent of that branch from
the start. A dispatch that fails is part of the agreement: it never ends the other branches.
-/
namespace DecisionPoints

namespace ClassTable

theorem exists_planSpecial_eq_ok (t : ClassTable) {r : Request} (resolved : DeclaredMethod)
    (invoking : r.invokingClass.isSome) : ∃ p, t.planSpecial r resolved = .ok p := by
  unfold planSpecial
  split
  · exact ⟨_, rfl⟩
  · split
    · next missing => simp [missing] at invoking
    · split
      · split <;> exact ⟨_, rfl⟩
      · exact ⟨_, rfl⟩

theorem exists_planVirtual_eq_ok (t : ClassTable) (mustImplement : Bool) {r : Request}
    (resolved : DeclaredMethod) (receiver : r.receiverType.isSome) :
    ∃ p, t.planVirtual mustImplement r resolved = .ok p := by
  unfold planVirtual
  split
  · exact ⟨_, rfl⟩
  · split
    · exact ⟨_, rfl⟩
    · split
      · next missing => simp [missing] at receiver
      · next className _ =>
        dsimp only
        -- Whichever class the search starts at, it ends in a method or a failure.
        generalize (if className.isArray then ClassName.object else className) = root
        split
        · exact ⟨_, rfl⟩
        · split <;> exact ⟨_, rfl⟩

theorem exists_dispatch_eq_ok (t : ClassTable) {d : Discipline} {r : Request}
    (invoking : r.invokingClass.isSome)
    (receiver : d.usesReceiver = true → r.receiverType.isSome) :
    ∃ selection, t.dispatch d r = .ok selection := by
  have planned (resolved : DeclaredMethod) : ∃ p, t.plan d r resolved = .ok p := by
    cases d with
    | static => exact ⟨_, rfl⟩
    | special => exact t.exists_planSpecial_eq_ok resolved invoking
    | virtual => exact t.exists_planVirtual_eq_ok false resolved (receiver rfl)
    | interface => exact t.exists_planVirtual_eq_ok true resolved (receiver rfl)
  unfold dispatch
  cases t.resolveReference r with
  | error failure => exact ⟨_, rfl⟩
  | ok resolved =>
    obtain ⟨p, plan⟩ := planned resolved
    exact ⟨t.carryOut r p, by simp [plan]⟩

end ClassTable

/-- The heap and the receiver of the same invocation on an object that was never symbolic. -/
def Referent.concreteReceiver (s : HeapSnapshot) : Referent → HeapSnapshot × Reference
  | .alias position _ => (s, .object position)
  | .fresh className => (s.allocate className, .object s.size)
  | .null => (s, .null)

def Referent.state? (s : HeapSnapshot) : Referent → Option ReceiverState
  | .alias position _ => (s.object? position).map fun object => .ofClass object.className
  | .fresh className => some (.ofClass className)
  | .null => some .null

def Referent.isWithin (s : HeapSnapshot) : Referent → Bool
  | .alias position _ => position < s.size
  | .fresh _ | .null => true

theorem Referent.exists_state (s : HeapSnapshot) (referent : Referent)
    (inHeap : ∀ position origin, referent = .alias position origin → position < s.size) :
    ∃ state, referent.state? s = some state ∧ state ≠ .irrelevant := by
  rcases referent with ⟨position, origin⟩ | className | _
  · have bound : position < s.objects.length := inHeap position origin rfl
    refine ⟨.ofClass s.objects[position].className, ?_, by rintro ⟨⟩⟩
    simp [state?, HeapSnapshot.object?, bound]
  · exact ⟨.ofClass className, rfl, by rintro ⟨⟩⟩
  · exact ⟨.null, rfl, by rintro ⟨⟩⟩

namespace Engine

theorem exists_targetOn_eq_ok (e : Engine) (d : Discipline) (i : Invocation) {state : ReceiverState}
    (known : state ≠ .irrelevant) : ∃ target, e.targetOn d i state = .ok target := by
  cases state with
  | null => exact ⟨_, rfl⟩
  | irrelevant => exact absurd rfl known
  | ofClass className =>
    have dispatched : ∃ selection, e.classes.dispatch d
        (if d.usesReceiver then i.requestOn className else i.request) = .ok selection := by
      refine e.classes.exists_dispatch_eq_ok ?_ ?_
      · split <;> rfl
      · intro uses
        rw [if_pos uses]
        rfl
    obtain ⟨selection, found⟩ := dispatched
    exact ⟨e.targetOf selection, by simp [targetOn, Engine.dispatch, found]⟩

theorem branches_of_single {e : Engine} {heap : HeapView} {path : PathCondition} {i : Invocation}
    {d : Discipline} (state : ReceiverState) {target : Target}
    (flags : i.flags.discipline = .ok d)
    (plan : e.receiverPlan heap path d i = .ok (.single state))
    (dispatched : e.targetOn d i state = .ok target) :
    e.branches heap path i = .ok [⟨none, target⟩] := by
  simp [branches, flags, plan, dispatched, Except.mapError, bind, Except.bind, pure, Except.pure]

theorem branches_of_fork {e : Engine} {heap : HeapView} {path : PathCondition} {i : Invocation}
    {d : Discipline} {reference : Reference} {alternatives : List Alternative}
    (flags : i.flags.discipline = .ok d)
    (plan : e.receiverPlan heap path d i = .ok (.fork reference))
    (enumerated : (e.context heap path).alternatives (.receiver reference) = .ok alternatives) :
    e.branches heap path i = alternatives.mapM (e.branchOf (e.context heap path) d i) := by
  simp [branches, flags, plan, enumerated, Except.mapError, bind, Except.bind]

theorem targetOn_irrelevant {e : Engine} {d : Discipline} (i : Invocation)
    (unused : d.usesReceiver = false) (className : ClassName) :
    e.targetOn d i .irrelevant = e.targetOn d i (.ofClass className) := by
  simp [targetOn, unused]

theorem branches_object {e : Engine} {heap : HeapView} {path : PathCondition} {i : Invocation}
    {d : Discipline} {position : Nat} {className : ClassName} {target : Target}
    (flags : i.flags.discipline = .ok d) (notStatic : d ≠ .static)
    (receiver : i.receiver = some (.object position))
    (found : heap.classAt? position = some className)
    (dispatched : e.targetOn d i (.ofClass className) = .ok target) :
    e.branches heap path i = .ok [⟨none, target⟩] := by
  by_cases uses : d.usesReceiver = true
  · refine branches_of_single (.ofClass className) flags ?_ dispatched
    have here : (e.context heap path).classAt position = .ok className := by
      simp [Context.classAt, context, found]
    simp [receiverPlan, notStatic, receiver, uses, here, bind, Except.bind, pure, Except.pure]
  · rw [Bool.not_eq_true] at uses
    refine branches_of_single .irrelevant flags ?_ ?_
    · simp [receiverPlan, notStatic, receiver, uses]
    · rw [targetOn_irrelevant i uses className, dispatched]

theorem branches_concreteReceiver {e : Engine} {s : HeapSnapshot} (path : PathCondition)
    {i : Invocation} {d : Discipline} (flags : i.flags.discipline = .ok d) (notStatic : d ≠ .static)
    {referent : Referent} {state : ReceiverState} (known : referent.state? s = some state)
    {target : Target} (dispatched : e.targetOn d i state = .ok target) :
    e.branches ((referent.concreteReceiver s).1.view e.classes) path
      { i with receiver := some (referent.concreteReceiver s).2 } = .ok [⟨none, target⟩] := by
  match referent with
  | .alias position origin =>
    obtain ⟨object, found, rfl⟩ := Option.map_eq_some_iff.mp known
    have className : (s.object? position).map (·.className) = some object.className := by
      rw [found]; rfl
    exact branches_object flags notStatic rfl className dispatched
  | .fresh className =>
    obtain rfl := Option.some.inj known
    have found : ((s.allocate className).object? s.size).map (·.className) = some className := by
      rw [HeapSnapshot.allocate, HeapSnapshot.object?_push_size]; rfl
    exact branches_object flags notStatic rfl found dispatched
  | .null =>
    obtain rfl := Option.some.inj known
    refine branches_of_single .null flags ?_ dispatched
    simp [receiverPlan, notStatic, Referent.concreteReceiver]

theorem branchOf_eq_ok {e : Engine} {s : HeapSnapshot} {path : PathCondition} {d : Discipline}
    {i : Invocation} {a : Alternative} {referent : Referent} (kind : a.kind = .resolved referent)
    {state : ReceiverState} (known : referent.state? s = some state) {target : Target}
    (dispatched : e.targetOn d i state = .ok target) :
    e.branchOf (e.context (s.view e.classes) path) d i a = .ok ⟨some a, target⟩ := by
  have here : receiverOn (e.context (s.view e.classes) path) a = .ok state := by
    match referent with
    | .alias position origin =>
      obtain ⟨object, found, rfl⟩ := Option.map_eq_some_iff.mp known
      simp [receiverOn, kind, OutcomeKind.referent?, Context.classAt, context, HeapSnapshot.view,
        found, bind, Except.bind, pure, Except.pure]
    | .fresh className =>
      obtain rfl := Option.some.inj known
      simp [receiverOn, kind, OutcomeKind.referent?]
    | .null =>
      obtain rfl := Option.some.inj known
      simp [receiverOn, kind, OutcomeKind.referent?]
  simp [branchOf, here, dispatched, Except.mapError, bind, Except.bind, pure, Except.pure]

theorem discipline_of_flags {f : InvocationFlags} (nonStatic : f.isStatic = false)
    (one : ¬ (f.isInterface = true ∧ f.isSpecial = true)) :
    ∃ d, f.discipline = .ok d ∧ d ≠ .static := by
  obtain ⟨isInterface, isSpecial, isStatic⟩ := f
  obtain rfl : isStatic = false := nonStatic
  cases isInterface <;> cases isSpecial
  · exact ⟨.virtual, rfl, nofun⟩
  · exact ⟨.special, rfl, nofun⟩
  · exact ⟨.interface, rfl, nofun⟩
  · exact absurd ⟨rfl, rfl⟩ one

theorem resolved_of_receiver {c : Context} {reference : Reference}
    {alternatives : List Alternative}
    (h : c.alternatives (.receiver reference) = .ok alternatives) :
    ∀ a ∈ alternatives, ∃ referent, a.kind = .resolved referent := by
  intro a member
  obtain ⟨outcomes, all, among, _⟩ := Context.outcome_of_alternative h member
  obtain ⟨ways, _, result⟩ := bind_eq_ok_iff.mp all
  cases result
  obtain ⟨way, _, eq⟩ := List.mem_map.mp among
  exact ⟨way.referent, by rw [← eq]⟩

/-- Whether the branch has the alternative, and the target that the invocation has by itself on the
referent of that alternative, at any moment at which the engine is not stopped. -/
def Agrees (e : Engine) (s : HeapSnapshot) (i : Invocation) (a : Alternative) (b : Dispatched) :
    Prop :=
  b.alternative = some a ∧ ∃ referent, a.kind.referent? = some referent ∧
    ∀ (operations : Nat) (path : PathCondition),
      ({ e with operations } : Engine).counted.isStopped = false →
        (({ e with operations } : Engine).invoke
          ((referent.concreteReceiver s).1.view e.classes) path
          { i with receiver := some (referent.concreteReceiver s).2 }).1 =
            .ok [⟨none, b.target⟩]

/-- An invocation on a symbolic receiver has one branch for each alternative, in their order, and
each agrees with the invocation on a receiver that was never symbolic. -/
theorem invoke_agrees_on_branches {e : Engine} {s : HeapSnapshot} {path : PathCondition}
    {i : Invocation} {r : SymbolicReference} {alternatives : List Alternative}
    (awake : e.counted.isStopped = false) (nonStatic : i.flags.isStatic = false)
    (oneFlag : ¬ (i.flags.isInterface = true ∧ i.flags.isSpecial = true))
    (receiver : i.receiver = some (.symbolic r))
    (enumerated : (e.context (s.view e.classes) path).alternatives (.receiver (.symbolic r)) =
      .ok alternatives)
    (inHeap : ∀ a ∈ alternatives, ∀ position origin,
      a.kind.referent? = some (.alias position origin) → position < s.size) :
    ∃ branches, (e.invoke (s.view e.classes) path i).1 = .ok branches ∧
      List.Forall₂ (e.Agrees s i) alternatives branches := by
  obtain ⟨d, flags, notStatic⟩ := discipline_of_flags nonStatic oneFlag
  have plan : e.receiverPlan (s.view e.classes) path d i = .ok (.fork (.symbolic r)) := by
    simp [receiverPlan, notStatic, receiver]
  have invoked : (e.invoke (s.view e.classes) path i).1 =
      alternatives.mapM (e.branchOf (e.context (s.view e.classes) path) d i) := by
    rw [← branches_of_fork flags plan enumerated]
    simp only [invoke, awake, Bool.false_eq_true, if_false]
    rfl
  rw [invoked]
  refine exists_mapM_eq_ok fun a member => ?_
  obtain ⟨referent, kind⟩ := resolved_of_receiver enumerated a member
  have known : a.kind.referent? = some referent := by rw [kind]; rfl
  obtain ⟨state, here, relevant⟩ := Referent.exists_state s referent
    fun position origin same => inHeap a member position origin (same ▸ known)
  obtain ⟨target, dispatched⟩ := e.exists_targetOn_eq_ok d i relevant
  refine ⟨⟨some a, target⟩, branchOf_eq_ok kind here dispatched, rfl, referent, known, ?_⟩
  intro operations path' awake'
  have alone := branches_concreteReceiver path' flags notStatic here dispatched
  simp only [invoke, awake', Bool.false_eq_true, if_false]
  exact alone

theorem invoke_agrees_on_branches_override :
    let shape : ClassDecl :=
      { name := ⟨"Shape"⟩, superclass := some .object, isAbstract := true,
        methods := [⟨"area", "()I", { isAbstract := true }⟩] }
    let circle : ClassDecl :=
      { name := ⟨"Circle"⟩, superclass := some ⟨"Shape"⟩, methods := [⟨"area", "()I", {}⟩] }
    let classes := (ClassTable.empty.insert shape).insert circle
    let e := Engine.start {} classes .clausal .lazy
    let s : HeapSnapshot := { objects := [⟨⟨"Shape"⟩, some (.root "o")⟩] }
    let i : Invocation :=
      { flags := {}, method := ⟨⟨"Shape"⟩, "()I", "area"⟩, isInterfaceMethod := false,
        invokingClass := .object, receiver := some (.symbolic ⟨.root "r", ⟨"Shape"⟩⟩) }
    ∃ alternatives branches,
      (e.context (s.view classes) {}).alternatives (.receiver (.symbolic ⟨.root "r", ⟨"Shape"⟩⟩)) =
        .ok alternatives ∧
      (e.invoke (s.view classes) {} i).1 = .ok branches ∧
      branches.map (·.target) =
        [.failure (.abstractMethod ⟨⟨"Shape"⟩, "()I", "area"⟩),
          .method ⟨⟨"Circle"⟩, ⟨"area", "()I", {}⟩⟩, .nullReceiver] ∧
      List.Forall₂ (e.Agrees s i) alternatives branches := by
  intro shape circle classes e s i
  have reported : (((e.context (s.view classes) {}).alternatives
      (.receiver (.symbolic ⟨.root "r", ⟨"Shape"⟩⟩))).toOption.any fun as =>
        as.all fun a => a.kind.referent?.all (·.isWithin s)) = true := by decide +kernel
  have targets : (e.invoke (s.view classes) {} i).1.toOption.map (·.map (·.target)) =
      some [.failure (.abstractMethod ⟨⟨"Shape"⟩, "()I", "area"⟩),
        .method ⟨⟨"Circle"⟩, ⟨"area", "()I", {}⟩⟩, .nullReceiver] := by decide +kernel
  cases h : (e.context (s.view classes) {}).alternatives
      (.receiver (.symbolic ⟨.root "r", ⟨"Shape"⟩⟩)) with
  | error error => rw [h] at reported; cases reported
  | ok alternatives =>
    have inHeap : ∀ a ∈ alternatives, ∀ position origin,
        a.kind.referent? = some (.alias position origin) → position < s.size := by
      intro a member position origin known
      rw [h] at reported
      have each := List.all_eq_true.mp reported a member
      rw [known] at each
      exact of_decide_eq_true each
    obtain ⟨branches, invoked, agree⟩ :=
      invoke_agrees_on_branches (e := e) (i := i) (by decide) rfl (by decide) rfl h inHeap
    have result : (e.invoke (s.view classes) {} i).1 = .ok branches := invoked
    rw [result] at targets
    exact ⟨alternatives, branches, rfl, result, Option.some.inj targets, agree⟩

end Engine
end DecisionPoints
