import DecisionPoints.Proofs.ArrayElements

/-!
The order of branches. Whatever is pruned, what is left of an access is listed in one order: the
objects that its reference may be by their positions, the classes of fresh objects by their names,
null, and at the end what fails. Branch numbers count this list from one.
-/
namespace DecisionPoints

theorem ClassTable.isInstantiable_of_mem_concreteSubtypes {t : ClassTable}
    {name required : ClassName} (member : name ∈ t.concreteSubtypes required) :
    name.isArray = true ∨ ∃ d, t.find? name = some d ∧ d.isInstantiable = true := by
  unfold concreteSubtypes at member
  split at member
  · next array =>
    rw [List.mem_singleton.mp member]
    exact .inl array
  · obtain ⟨d, among, rfl⟩ := List.mem_map.mp member
    obtain ⟨loaded, instantiable⟩ := List.mem_filter.mp among
    exact .inr ⟨d, find?_eq_some_iff.mpr ⟨loaded, rfl⟩, (Bool.and_eq_true_iff.mp instantiable).1⟩

namespace HeapSnapshot

/-- Whether the referent has the type. A known object is of a class below it, and a fresh one of a
class below it that has objects: an array type, or a loaded class that can be instantiated. -/
def Fits (t : ClassTable) (s : HeapSnapshot) (type : ClassName) : Referent → Prop
  | .alias position origin => ∃ className,
      s.object? position = some ⟨className, some origin⟩ ∧ t.isSubtype className type = true
  | .fresh className => t.isSubtype className type = true ∧
      (className.isArray = true ∨ ∃ d, t.find? className = some d ∧ d.isInstantiable = true)
  | .null => True

theorem fits_of_admits {t : ClassTable} {s : HeapSnapshot} {r : SymbolicReference}
    {referent : Referent} (admits : s.Admits t r referent) : s.Fits t r.staticType referent := by
  match referent with
  | .alias position origin => exact admits.2
  | .fresh className =>
    have below := ClassTable.isSubtype_of_mem_concreteSubtypes admits
    exact ⟨below, ClassTable.isInstantiable_of_mem_concreteSubtypes admits⟩
  | .null => trivial

end HeapSnapshot

inductive OutcomeKind.Precedes : OutcomeKind → OutcomeKind → Prop where
  /-- Failures come last, and none of them is about null. -/
  | failure {x y : OutcomeKind} (passes : x.isViolation = false) (fails : y.isViolation = true)
    (object : y.referent? ≠ some .null) : Precedes x y
  /-- Of two that pass, or of two that fail, the referents decide. -/
  | referents {x y : OutcomeKind} (alike : x.isViolation = y.isViolation) {r q : Referent}
    (first : x.referent? = some r) (second : y.referent? = some q) (before : r.Precedes q) :
    Precedes x y
  /-- A store of another type can still be out of bounds. -/
  | overrun : Precedes (.typeMismatch none) .outOfBounds

namespace Context

variable {t : ClassTable} {s : HeapSnapshot} {c : Context} {a : Access}

theorem of_isViolation {way : Resolution} {o : Outcome} (outcome : c.outcomeOn a way = .ok o)
    (fails : o.kind.isViolation = true) : a.bounds? = none ∧ way.referent ≠ .null := by
  cases a with
  | arrayLoad array length index element isFresh => cases outcome; cases fails
  | arrayStore array length index value => cases outcome; cases fails
  | fieldLoad field loaded | receiver reference => cases outcome; cases fails
  | checkCast target reference =>
    obtain ⟨holds, _, same⟩ := bind_eq_ok_iff.mp outcome
    cases same
    refine ⟨rfl, ?_⟩
    intro null
    simp [null, OutcomeKind.isViolation] at fails
  | instanceOf target reference =>
    obtain ⟨holds, _, same⟩ := bind_eq_ok_iff.mp outcome
    cases same
    cases fails

theorem arranged_ordered {each : List Outcome}
    (ways : ∀ o ∈ each, ∃ way, c.outcomeOn a way = .ok o)
    (ascending : each.Pairwise fun x y => ∃ r q,
      x.kind.referent? = some r ∧ y.kind.referent? = some q ∧ r.Precedes q) :
    (arranged a each).Pairwise fun x y => x.kind.Precedes y.kind := by
  have alike (fails : Bool) : (each.filter (·.kind.isViolation == fails)).Pairwise
      fun x y => x.kind.Precedes y.kind := by
    refine (ascending.filter _).imp_of_mem fun {x y} hx hy before => ?_
    obtain ⟨r, q, first, second, before⟩ := before
    have hx := (List.mem_filter.mp hx).2
    have hy := (List.mem_filter.mp hy).2
    exact .referents ((eq_of_beq hx).trans (eq_of_beq hy).symm) first second before
  have passing := alike false
  have failing := alike true
  simp only [beq_false, beq_true] at passing failing
  refine List.pairwise_append.mpr
    ⟨List.pairwise_append.mpr ⟨passing, failing, ?_⟩, pairwise_overrun a _, ?_⟩
  · intro x hx y hy
    obtain ⟨member, fails⟩ := List.mem_filter.mp hy
    have passes : x.kind.isViolation = false := by simpa using (List.mem_filter.mp hx).2
    obtain ⟨way, outcome⟩ := ways y member
    refine .failure passes fails ?_
    rw [(isOn_of_outcomeOn outcome).referent]
    intro null
    exact (of_isViolation outcome fails).2 (Option.some.inj null)
  · intro x hx y outside
    have bounded := (of_mem_overrun outside).1
    rw [kind_of_mem_overrun outside]
    have member : x ∈ each := by
      rcases List.mem_append.mp hx with passing | failing
      · exact (List.mem_filter.mp passing).1
      · exact (List.mem_filter.mp failing).1
    obtain ⟨way, outcome⟩ := ways x member
    have passes : x.kind.isViolation = false := by
      by_contra fails
      rw [(of_isViolation outcome (by simpa using fails)).1] at bounded
      cases bounded
    exact .failure passes rfl nofun

section Snapshot

variable (snapshot : c.heap = s.view t)
include snapshot

theorem resolutions_ascending (r : SymbolicReference) (allowNull : Bool) :
    (c.resolutions r allowNull).Pairwise fun x y => x.referent.Precedes y.referent := by
  unfold resolutions
  split
  · exact List.pairwise_singleton ..
  · exact (openReferents_ascending snapshot r allowNull).map _ fun _ _ before => before

theorem outcomes_ordered {outcomes : List Outcome} (found : c.outcomes a = .ok outcomes) :
    outcomes.Pairwise fun x y => x.kind.Precedes y.kind := by
  obtain ⟨_, resolved, _⟩ := bind_eq_ok_iff.mp found
  obtain ⟨subject, checked, _⟩ := bind_eq_ok_iff.mp resolved
  cases subject with
  | none =>
    obtain ⟨inside, rfl, _, _, kind⟩ := exists_inside_of_no_subject checked found
    refine .cons ?_ (pairwise_overrun a _)
    intro o outside
    rw [kind_of_mem_overrun outside]
    rcases kind with kind | kind
    · rw [kind]
      exact .failure rfl rfl nofun
    · rw [kind]
      exact .overrun
  | some r =>
    obtain ⟨each, run, rfl⟩ := (outcomes_eq_ok_iff checked).mp found
    have ways : ∀ o ∈ each, ∃ way, c.outcomeOn a way = .ok o := by
      intro o member
      obtain ⟨way, _, outcome⟩ := exists_of_mem_mapM run member
      exact ⟨way, outcome⟩
    refine arranged_ordered ways (pairwise_of_mapM ?_ (resolutions_ascending snapshot r _) run)
    intro way way' x y before first second
    exact ⟨_, _, (isOn_of_outcomeOn first).referent, (isOn_of_outcomeOn second).referent, before⟩

/-- The alternatives of an access are numbered from one and listed in one order, whatever the policy
asks for and the procedure refutes. Known objects come by ascending positions, classes of fresh
objects by ascending names, null at most once, and after these what fails, for a cast in the same
order. Unless the path has resolved the reference before, each referent has its static type. -/
theorem branches_in_order {alternatives : List Alternative}
    (found : c.alternatives a = .ok alternatives) :
    alternatives.map (·.branch) = List.range' 1 alternatives.length ∧
      (alternatives.Pairwise fun x y => x.kind.Precedes y.kind) ∧
      ∀ r, a.symbolic? = some r → c.path.referentOf? r.origin = none →
        ∀ x ∈ alternatives, ∀ referent, x.kind.referent? = some referent →
          s.Fits t r.staticType referent := by
  refine ⟨?_, ?_, ?_⟩
  · obtain ⟨outcomes, _, rfl, _⟩ := alternatives_eq_ok_iff_retained.mp found
    rw [map_branch_numbered]
    simp [numbered]
  · obtain ⟨outcomes, all, kept⟩ := exists_outcomes_sublist found
    have ordered := (outcomes_ordered snapshot all).sublist kept
    rwa [List.pairwise_map] at ordered
  · intro r symbolic unresolved x member referent kind
    have admits := admits_of_alternative snapshot found symbolic unresolved member kind
    exact HeapSnapshot.fits_of_admits admits

end Snapshot

theorem branches_in_order_cast :
    let node : ClassName := ⟨"pkg/Node"⟩
    let leaf : ClassName := ⟨"pkg/Leaf"⟩
    let root : ClassDecl := { name := .object, superclass := none, isAbstract := true }
    let t := ((ClassTable.empty.insert root).insert
      { name := node, superclass := some .object, isAbstract := true }).insert (.concrete leaf node)
    let s : HeapSnapshot :=
      { objects := [⟨⟨"[I"⟩, some (.root "a")⟩, ⟨leaf, some (.root "b")⟩,
          ⟨⟨"[J"⟩, some (.root "d")⟩, ⟨leaf, some (.root "e")⟩] }
    let refuted : Guard := ⟨[.resolves (.root "r") (.alias 1 (.root "b"))]⟩
    let c : Context :=
      { policy := {}, heap := s.view t, hierarchy := t.hierarchy
        procedure := { check := fun _ guard => if guard = refuted then .unsat else .sat }
        path := ⟨[]⟩ }
    let cast : Access := .checkCast node (.symbolic ⟨.root "r", .object⟩)
    c.heap = s.view t ∧ ∃ alternatives, c.alternatives cast = .ok alternatives ∧
      alternatives.map (fun x => (x.branch, x.kind)) =
        [(1, .resolved (.alias 3 (.root "e"))), (2, .resolved (.fresh leaf)), (3, .resolved .null),
          (4, .typeMismatch (some (.alias 0 (.root "a")))),
          (5, .typeMismatch (some (.alias 2 (.root "d"))))] ∧
      (alternatives.Pairwise fun x y => x.kind.Precedes y.kind) ∧
      ∀ x ∈ alternatives, ∀ referent, x.kind.referent? = some referent →
        s.Fits t .object referent := by
  intro node leaf root t s refuted c cast
  let listing : List (Nat × OutcomeKind) :=
    [(1, .resolved (.alias 3 (.root "e"))), (2, .resolved (.fresh leaf)), (3, .resolved .null),
      (4, .typeMismatch (some (.alias 0 (.root "a")))),
      (5, .typeMismatch (some (.alias 2 (.root "d"))))]
  obtain ⟨alternatives, found, listed⟩ := exists_alternatives_of_view
    (List.map fun x => (x.branch, x.kind)) (c := c) (a := cast) (b := listing) (by decide +kernel)
  obtain ⟨_, ordered, fits⟩ := branches_in_order rfl found
  exact ⟨rfl, alternatives, found, listed, ordered, fits _ rfl rfl⟩

end Context
end DecisionPoints
