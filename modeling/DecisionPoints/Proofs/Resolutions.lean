import DecisionPoints.Enumeration.Resolution
import DecisionPoints.Heap.Snapshot
import Mathlib.Data.List.Basic

/-!
What a reference may be in a heap in memory: one of the discovered objects that fit its type, an
object not seen before of a concrete class below its type, or null. As long as the path has not
resolved the reference, these are the referents that are enumerated, each once and in one order.
-/
namespace DecisionPoints

theorem ClassTable.concreteSubtypes_ascending (t : ClassTable) (name : ClassName) :
    (t.concreteSubtypes name).Pairwise (· < ·) := by
  unfold concreteSubtypes
  split
  · exact List.pairwise_singleton ..
  · exact (t.ascending.filter _).map ClassDecl.name fun _ _ below => below

namespace Referent

/-- Whether the one stands before the other: objects by their positions, then classes of fresh
objects by their names, then null. -/
def Precedes : Referent → Referent → Prop
  | .alias position _, .alias position' _ => position < position'
  | .fresh className, .fresh className' => className < className'
  | .alias .., .fresh _ | .alias .., .null | .fresh _, .null => True
  | .fresh _, .alias .. | .null, _ => False

theorem Precedes.ne {r q : Referent} (before : r.Precedes q) : r ≠ q := by
  rintro rfl
  match r with
  | .alias position _ => exact Nat.lt_irrefl position before
  | .fresh className => exact ClassName.lt_irrefl className before
  | .null => exact before

end Referent

namespace HeapSnapshot

/-- Whether the heap leaves it open that the reference is the referent. -/
def Admits (t : ClassTable) (s : HeapSnapshot) (r : SymbolicReference) : Referent → Prop
  | .alias position origin => origin ≠ r.origin ∧ ∃ className,
      s.object? position = some ⟨className, some origin⟩ ∧ t.isSubtype className r.staticType = true
  | .fresh className => className ∈ t.concreteSubtypes r.staticType
  | .null => r.origin ∉ s.nonNull

def candidate? (t : ClassTable) (r : SymbolicReference) (object : HeapObject) (position : Nat) :
    Option AliasCandidate :=
  match object.origin with
  | some found =>
    if found ≠ r.origin ∧ t.isSubtype object.className r.staticType then some ⟨position, found⟩
    else none
  | none => none

theorem candidate?_eq_some_iff {t : ClassTable} {r : SymbolicReference} {object : HeapObject}
    {position : Nat} {a : AliasCandidate} :
    candidate? t r object position = some a ↔
      a.position = position ∧ object.origin = some a.origin ∧ a.origin ≠ r.origin ∧
        t.isSubtype object.className r.staticType = true := by
  obtain ⟨p, o⟩ := a
  unfold candidate?
  cases object.origin with
  | none => simp
  | some found =>
    simp only [Option.ite_none_right_eq_some, Option.some.injEq, AliasCandidate.mk.injEq]
    constructor
    · rintro ⟨fits, rfl, rfl⟩
      exact ⟨rfl, rfl, fits⟩
    · rintro ⟨rfl, rfl, fits⟩
      exact ⟨fits, rfl, rfl⟩

theorem aliasCandidates_eq (t : ClassTable) (s : HeapSnapshot) (r : SymbolicReference) :
    s.aliasCandidates t r.staticType r.origin =
      s.objects.zipIdx.filterMap fun (object, position) => candidate? t r object position := rfl

theorem positions_ascending (t : ClassTable) (s : HeapSnapshot) (r : SymbolicReference) :
    (s.aliasCandidates t r.staticType r.origin).Pairwise fun a b => a.position < b.position := by
  have indexed : s.objects.zipIdx.Pairwise fun a b => a.2 < b.2 := by
    rw [← List.pairwise_map (f := Prod.snd) (R := (· < ·)), List.zipIdx_map_snd]
    exact List.pairwise_lt_range'
  refine indexed.filterMap _ fun a b below c hc d hd => ?_
  rw [(candidate?_eq_some_iff.mp hc).1, (candidate?_eq_some_iff.mp hd).1]
  exact below

theorem mem_aliasCandidates {t : ClassTable} {s : HeapSnapshot} {r : SymbolicReference}
    {a : AliasCandidate} :
    a ∈ s.aliasCandidates t r.staticType r.origin ↔ s.Admits t r (.alias a.position a.origin) := by
  simp only [aliasCandidates_eq, List.mem_filterMap, Prod.exists, candidate?_eq_some_iff,
    List.mem_zipIdx_iff_getElem?]
  constructor
  · rintro ⟨object, position, found, rfl, origin, differs, fits⟩
    exact ⟨differs, object.className, by rw [object?, found, ← origin], fits⟩
  · rintro ⟨differs, className, found, fits⟩
    exact ⟨⟨className, some a.origin⟩, a.position, found, rfl, rfl, differs, fits⟩

end HeapSnapshot

theorem eraseDups_of_nodup {α : Type} [DecidableEq α] {as : List α} (distinct : as.Nodup) :
    as.eraseDups = as := by
  induction distinct with
  | nil => rfl
  | cons absent _ ih =>
    rw [List.eraseDups_cons, List.filter_eq_self.mpr, ih]
    intro a member
    simpa using (absent a member).symm

namespace Context

variable {t : ClassTable} {s : HeapSnapshot} {c : Context} (snapshot : c.heap = s.view t)
include snapshot

theorem freshClasses_eq (required : ClassName) :
    c.freshClasses required = t.concreteSubtypes required := by
  have ascending := t.concreteSubtypes_ascending required
  have distinct : (t.concreteSubtypes required).Nodup := by
    refine ascending.imp fun {a b} below same => ?_
    exact ClassName.lt_irrefl b (same ▸ below)
  have sorted : (t.concreteSubtypes required).mergeSort (fun a b => !(b < a : Bool)) =
      t.concreteSubtypes required := by
    refine List.mergeSort_of_pairwise (ascending.imp fun {a b} below => ?_)
    have : ¬ b < a := fun above => ClassName.lt_irrefl _ (ClassName.lt_trans below above)
    simpa using this
  rw [freshClasses, snapshot]
  simp only [HeapSnapshot.view, sorted, eraseDups_of_nodup distinct]
  split
  · rfl
  · next empty =>
    have : t.concreteSubtypes required = [] := by simpa using empty
    exact this.symm

theorem openReferents_eq (r : SymbolicReference) (allowNull : Bool) :
    c.openReferents r allowNull =
      (s.aliasCandidates t r.staticType r.origin).map (fun a => .alias a.position a.origin) ++
        (t.concreteSubtypes r.staticType).map .fresh ++
        if allowNull = true ∧ r.origin ∉ s.nonNull then [.null] else [] := by
  rw [openReferents, freshClasses_eq snapshot, snapshot]
  simp [HeapSnapshot.view]

theorem mem_openReferents {r : SymbolicReference} {allowNull : Bool} {referent : Referent} :
    referent ∈ c.openReferents r allowNull ↔
      s.Admits t r referent ∧ (referent = .null → allowNull = true) := by
  rw [openReferents_eq snapshot]
  match referent with
  | .alias position origin =>
    have candidate : (⟨position, origin⟩ : AliasCandidate) ∈
        s.aliasCandidates t r.staticType r.origin ↔ s.Admits t r (.alias position origin) :=
      HeapSnapshot.mem_aliasCandidates
    simp only [List.mem_append, List.mem_map, ← candidate]
    constructor
    · rintro ((⟨a, member, same⟩ | ⟨className, _, same⟩) | null)
      · cases same
        exact ⟨member, nofun⟩
      · cases same
      · split at null <;> simp at null
    · rintro ⟨member, _⟩
      exact .inl (.inl ⟨_, member, rfl⟩)
  | .fresh className => simp [HeapSnapshot.Admits]
  | .null => simp [HeapSnapshot.Admits, and_comm]

theorem openReferents_ascending (r : SymbolicReference) (allowNull : Bool) :
    (c.openReferents r allowNull).Pairwise Referent.Precedes := by
  have aliases : ((s.aliasCandidates t r.staticType r.origin).map
      fun a => Referent.alias a.position a.origin).Pairwise Referent.Precedes :=
    (HeapSnapshot.positions_ascending t s r).map _ fun _ _ below => below
  have fresh : ((t.concreteSubtypes r.staticType).map Referent.fresh).Pairwise Referent.Precedes :=
    (t.concreteSubtypes_ascending r.staticType).map _ fun _ _ below => below
  rw [openReferents_eq snapshot]
  refine List.pairwise_append.mpr ⟨List.pairwise_append.mpr ⟨aliases, fresh, ?_⟩, ?_, ?_⟩
  · simp [Referent.Precedes]
  · split
    · exact List.pairwise_singleton ..
    · exact .nil
  · intro referent object other null
    obtain rfl : other = .null := by
      split at null
      · exact List.mem_singleton.mp null
      · cases null
    rcases List.mem_append.mp object with known | fresh
    · obtain ⟨_, _, rfl⟩ := List.mem_map.mp known
      trivial
    · obtain ⟨_, _, rfl⟩ := List.mem_map.mp fresh
      trivial

theorem openReferents_nodup (r : SymbolicReference) (allowNull : Bool) :
    (c.openReferents r allowNull).Nodup :=
  (openReferents_ascending snapshot r allowNull).imp Referent.Precedes.ne

end Context
end DecisionPoints
