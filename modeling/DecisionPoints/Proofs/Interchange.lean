import DecisionPoints.Condition.Decider
import DecisionPoints.Heap.Snapshot
import DecisionPoints.Path
import DecisionPoints.Proofs.Alternatives
import DecisionPoints.Proofs.CanonicalForm
import DecisionPoints.Proofs.PerResolution

/-!
Alternatives in place of one another. What compares equal assumes the same of a path and stores the
same reference into the same slot, but the static type of the reference is lost: two loads that take
one fresh element for different types offer equal alternatives whose stores differ.
-/
namespace DecisionPoints

/-- The type for which a made-up element is taken. -/
def Access.freshType? (a : Access) : Option ClassName := a.writeBack?.map (·.value.staticType)

namespace Context

theorem writeBack_of_outcome {c : Context} {a : Access} {outcomes : List Outcome}
    (h : c.outcomes a = .ok outcomes) {o : Outcome} (member : o ∈ outcomes) {w : WriteBack}
    (stores : o.writeBack = some w) : a.writeBack? = some w := by
  rcases exists_way_of_outcome h member with ⟨_, _, unstored⟩ | ⟨r, _, s, _, outcome⟩
  · rw [unstored] at stores
    cases stores
  · exact (isOn_of_outcomeOn outcome).writeBack.symm.trans stores

theorem writeBack_of_alternative {c : Context} {a : Access} {alternatives : List Alternative}
    (h : c.alternatives a = .ok alternatives) {x : Alternative} (member : x ∈ alternatives)
    {w : WriteBack} (stores : x.writeBack = some w) : a.writeBack? = some w := by
  obtain ⟨outcomes, found, among, _⟩ := outcome_of_alternative h member
  exact writeBack_of_outcome found among stores

end Context

namespace WriteBack

theorem eq_iff_of_store_eq {v w : WriteBack} (h : v.store = w.store) :
    v = w ↔ v.value.staticType = w.value.staticType := by
  obtain ⟨container, slot, origin, staticType⟩ := v
  obtain ⟨container', slot', origin', staticType'⟩ := w
  obtain ⟨rfl, rfl, rfl⟩ : container = container' ∧ slot = slot' ∧ origin = origin' := by
    simpa [store] using h
  simp

end WriteBack

namespace Alternative

theorem same_of_beq {a b : Alternative} (pa : a.isPlain = true) (pb : b.isPlain = true)
    (apart : Keccak.digest a.canonical.toUTF8 = Keccak.digest b.canonical.toUTF8 →
      a.canonical = b.canonical) (equal : (a == b) = true) : a.Same b.toOutcome := by
  have identity : a.identity = b.identity := of_decide_eq_true equal
  exact Outcome.same_of_canonical_eq pa pb (apart (Identity.mk.inj identity))

theorem condition_commit_of_same {a b : Alternative} (same : a.Same b.toOutcome) (p : Path)
    (pc pc' : UInt32) : (p.commit pc a).condition = (p.commit pc' b).condition := by
  rw [Path.condition_commit, Path.condition_commit, same.guard]

end Alternative

namespace Context

theorem writeBack_eq_iff_of_same {c d : Context} {x y : Access} {as bs : List Alternative}
    (first : c.alternatives x = .ok as) (second : d.alternatives y = .ok bs) {a b : Alternative}
    (ha : a ∈ as) (hb : b ∈ bs) (same : a.Same b.toOutcome) :
    a.writeBack = b.writeBack ↔ (a.isFresh = true → x.freshType? = y.freshType?) := by
  have stored := same.writeBack
  cases here : a.writeBack with
  | none =>
    rw [here, Option.map_none, eq_comm, Option.map_eq_none_iff] at stored
    simp [Alternative.isFresh, here, stored]
  | some v =>
    cases there : b.writeBack with
    | none =>
      rw [here, there] at stored
      cases stored
    | some w =>
      rw [here, there, Option.map_some, Option.map_some, Option.some.injEq] at stored
      have found := writeBack_of_alternative first ha here
      have found' := writeBack_of_alternative second hb there
      rw [Option.some.injEq, WriteBack.eq_iff_of_store_eq stored]
      simp [Alternative.isFresh, here, Access.freshType?, found, found']

/-- Alternatives that compare equal assume the same of every path, and the branches on them store
the same reference into the same slot. The static types agree exactly if the two loads took the
element for the same type, which the identity does not tell. -/
theorem equal_alternatives_store_alike {c d : Context} {x y : Access} {as bs : List Alternative}
    (first : c.alternatives x = .ok as) (second : d.alternatives y = .ok bs) {a b : Alternative}
    (ha : a ∈ as) (hb : b ∈ bs) (pa : a.isPlain = true) (pb : b.isPlain = true)
    (apart : Keccak.digest a.canonical.toUTF8 = Keccak.digest b.canonical.toUTF8 →
      a.canonical = b.canonical) (equal : (a == b) = true) :
    (∀ (p : Path) (pc pc' : UInt32), (p.commit pc a).condition = (p.commit pc' b).condition) ∧
      a.writeBack.map (·.store) = b.writeBack.map (·.store) ∧
      (a.writeBack = b.writeBack ↔ (a.isFresh = true → x.freshType? = y.freshType?)) := by
  have same := Alternative.same_of_beq pa pb apart equal
  exact ⟨Alternative.condition_commit_of_same same, same.writeBack,
    writeBack_eq_iff_of_same first second ha hb same⟩

theorem equal_alternatives_store_alike_repeated :
    let s : HeapSnapshot := { objects := [⟨⟨"[Ljava/lang/Cloneable;"⟩, none⟩] }
    let c : Context :=
      { policy := {}, heap := s.view .base, hierarchy := ClassTable.base.hierarchy,
        procedure := .clausal, path := {} }
    let d : Context :=
      { c with
        heap := (s.discover .object (.root "o")).view .base
        path := ⟨[.inBounds (.term "i") (.int 3)]⟩ }
    let origin : Origin := .element (.root "a") (.term "i")
    let load : Access := .arrayLoad 0 (.int 3) (.term "i") (.symbolic ⟨origin, .object⟩) true
    ∃ as bs, c.alternatives load = .ok as ∧ d.alternatives load = .ok bs ∧
      ∃ a ∈ as, ∃ b ∈ bs, a.kind = .resolved .null ∧ b.kind = .resolved .null ∧
        a.branch ≠ b.branch ∧ (a == b) = true ∧ a.isFresh = true ∧ a.writeBack = b.writeBack := by
  intro s c d origin load
  let onNull : Outcome :=
    ⟨.arrayLoad, .resolved .null, ⟨[.inBounds (.term "i") (.int 3), .resolves origin .null]⟩,
      some ⟨0, .element (.term "i"), ⟨origin, .object⟩⟩⟩
  obtain ⟨as, first, a, ha, isNull⟩ := exists_alternative (c := c) (a := load)
    (p := fun a => a.toOutcome = onNull ∧ a.branch = 2) (by decide +kernel)
  obtain ⟨bs, second, b, hb, isNull'⟩ := exists_alternative (c := d) (a := load)
    (p := fun b => b.toOutcome = onNull ∧ b.branch = 3) (by decide +kernel)
  obtain ⟨outcome, branch⟩ := of_decide_eq_true isNull
  obtain ⟨outcome', branch'⟩ := of_decide_eq_true isNull'
  have pa : a.isPlain = true := outcome ▸ by decide
  have pb : b.isPlain = true := outcome' ▸ by decide
  have same : a.toOutcome = b.toOutcome := outcome.trans outcome'.symm
  have equal : (a == b) = true := decide_eq_true (congrArg Outcome.identity same)
  have fresh : a.isFresh = true := congrArg (·.writeBack.isSome) outcome
  have law := equal_alternatives_store_alike first second ha hb pa pb
    (fun _ => congrArg Outcome.canonical same) equal
  exact ⟨as, bs, first, second, a, ha, b, hb, congrArg Outcome.kind outcome,
    congrArg Outcome.kind outcome', by omega, equal, fresh, law.2.2.mpr fun _ => rfl⟩

/-- Two loads of one row of an array that take it for different types, on the branches on which it
is null: the two alternatives have one canonical form, but not one store. -/
theorem equal_alternatives_store_different_types :
    let row : ClassName := ⟨"[Ljava/lang/Object;"⟩
    let s : HeapSnapshot := { objects := [⟨row.arrayOf, none⟩] }
    let c : Context :=
      { policy := {}, heap := s.view .base, hierarchy := ClassTable.base.hierarchy,
        procedure := .clausal, path := {} }
    let origin : Origin := .element (.root "a") (.term "i")
    let load (staticType : ClassName) : Access :=
      .arrayLoad 0 (.int 3) (.term "i") (.symbolic ⟨origin, staticType⟩) true
    ∃ as bs, c.alternatives (load .object) = .ok as ∧ c.alternatives (load row) = .ok bs ∧
      ∃ a ∈ as, ∃ b ∈ bs, a.isPlain = true ∧ b.isPlain = true ∧ a.canonical = b.canonical ∧
        (a == b) = true ∧ a.writeBack = some ⟨0, .element (.term "i"), ⟨origin, .object⟩⟩ ∧
        b.writeBack = some ⟨0, .element (.term "i"), ⟨origin, row⟩⟩ ∧
        a.writeBack ≠ b.writeBack := by
  intro row s c origin load
  let onNull (staticType : ClassName) : Outcome :=
    ⟨.arrayLoad, .resolved .null, ⟨[.inBounds (.term "i") (.int 3), .resolves origin .null]⟩,
      some ⟨0, .element (.term "i"), ⟨origin, staticType⟩⟩⟩
  obtain ⟨as, first, a, ha, isNull⟩ := exists_alternative (c := c) (a := load .object)
    (p := fun a => a.toOutcome = onNull .object) (by decide +kernel)
  obtain ⟨bs, second, b, hb, isNull'⟩ := exists_alternative (c := c) (a := load row)
    (p := fun b => b.toOutcome = onNull row) (by decide +kernel)
  have outcome : a.toOutcome = onNull .object := of_decide_eq_true isNull
  have outcome' : b.toOutcome = onNull row := of_decide_eq_true isNull'
  have pa : a.isPlain = true := outcome ▸ by decide
  have pb : b.isPlain = true := outcome' ▸ by decide
  have canonical : a.canonical = b.canonical := by
    rw [outcome, outcome']
    rfl
  have equal : (a == b) = true := decide_eq_true (congrArg Identity.ofCanonical canonical)
  have differ : a.writeBack ≠ b.writeBack := by
    rw [outcome, outcome']
    decide
  exact ⟨as, bs, first, second, a, ha, b, hb, pa, pb, canonical, equal,
    congrArg Outcome.writeBack outcome, congrArg Outcome.writeBack outcome', differ⟩

end Context
end DecisionPoints
