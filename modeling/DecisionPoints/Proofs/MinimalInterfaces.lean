import DecisionPoints.Proofs.MethodLookup
import Mathlib.Data.Fintype.EquivFin
import Mathlib.Data.Fintype.Sets
import Mathlib.Order.WellFounded

/-!
The methods that a class inherits from interfaces. Subtyping orders the interfaces of an acyclic
table, and the maximally specific methods are those of the minimal ones. A class has finitely many
interfaces, so each inherited method has a maximally specific one at or below it, and a lookup among
interfaces finds nothing only where nothing is inherited.
-/
namespace DecisionPoints

theorem exists_minimal_below {α : Type} [DecidableEq α] (below : α → α → Prop) {as : List α}
    (irrefl : ∀ a ∈ as, ¬ below a a)
    (trans : ∀ a ∈ as, ∀ b ∈ as, ∀ c ∈ as, below a b → below b c → below a c) {x : α}
    (member : x ∈ as) : ∃ m ∈ as, (m = x ∨ below m x) ∧ ∀ y ∈ as, ¬ below y m := by
  let under (a b : {a // a ∈ as}) : Prop := below a b
  have transitive : IsTrans _ under := ⟨fun a b c => trans a a.2 b b.2 c c.2⟩
  have irreflexive : Std.Irrefl under := ⟨fun a => irrefl a a.2⟩
  obtain ⟨m, lower, least⟩ := (Finite.wellFounded_of_trans_of_irrefl under).has_min
    {m | m.1 = x ∨ below m x} ⟨⟨x, member⟩, .inl rfl⟩
  refine ⟨m, m.2, lower, fun y among lesser => least ⟨y, among⟩ ?_ lesser⟩
  rcases lower with same | lower
  · exact .inr (same ▸ lesser)
  · exact .inr (trans y among m m.2 x member lesser lower)

namespace ClassTable

variable {t : ClassTable} {className : ClassName} {name descriptor : String} {m n : DeclaredMethod}
variable {r : Request} {d e : ClassDecl}

/-- An interface above the class declares the method under this name and descriptor, and neither
privately nor as a static one. -/
def IsOffered (t : ClassTable) (className : ClassName) (name descriptor : String)
    (m : DeclaredMethod) : Prop :=
  ∃ d ∈ t.superinterfaces className, d.name = m.owner ∧
    d.method? name descriptor = some m.method ∧ m.flags.isPrivate = false ∧
    m.flags.isStatic = false

theorem mem_interfaceMethods_iff_isOffered :
    m ∈ t.interfaceMethods className name descriptor ↔ t.IsOffered className name descriptor m := by
  rw [mem_interfaceMethods_iff, mem_declaredIn_iff]
  constructor
  · rintro ⟨⟨d, above, owner, declared⟩, flags⟩
    exact ⟨d, above, owner, declared, flags⟩
  · rintro ⟨d, above, owner, declared, flags⟩
    exact ⟨⟨d, above, owner, declared⟩, flags⟩

theorem IsOffered.exists_loaded (offered : t.IsOffered className name descriptor m) :
    ∃ d ∈ t.classes, d.name = m.owner := by
  obtain ⟨d, above, owner, _⟩ := offered
  exact ⟨d, mem_of_inherits (.inr above), owner⟩

theorem mem_maximallySpecific_iff : m ∈ t.maximallySpecific className name descriptor ↔
    t.IsOffered className name descriptor m ∧ ∀ n, t.IsOffered className name descriptor n →
      t.isSubtype n.owner m.owner = true → n.owner = m.owner := by
  simp only [maximallySpecific, List.mem_filter, ← mem_interfaceMethods_iff_isOffered,
    Bool.not_eq_true', List.any_eq_false, Bool.and_eq_true, decide_eq_true_eq, not_and]
  refine and_congr_right fun _ => forall₂_congr fun n _ => ?_
  rw [not_imp_comm, Bool.not_eq_true, Bool.not_eq_false]

theorem nodup_owners_maximallySpecific :
    ((t.maximallySpecific className name descriptor).map (·.owner)).Nodup := by
  have filtered : (t.maximallySpecific className name descriptor).Sublist
      (declaredIn (t.superinterfaces className) name descriptor) :=
    List.filter_sublist.trans List.filter_sublist
  exact nodup_owners_declaredIn.sublist (filtered.map _)

theorem eq_of_owner_eq {methods : List DeclaredMethod} (distinct : (methods.map (·.owner)).Nodup)
    (hm : m ∈ methods) (hn : n ∈ methods) (same : m.owner = n.owner) : m = n :=
  List.inj_on_of_nodup_map distinct hm hn same

theorem resolveReference_eq_noSuchMethod_iff (loaded : t.find? r.resolutionRoot = some d)
    (kind : d.isInterface = r.isInterfaceMethod) :
    t.resolveReference r = .error (.noSuchMethod r.method) ↔
      declaredIn (t.superclasses r.resolutionRoot) r.method.name r.method.descriptor = [] ∧
        t.maximallySpecific r.resolutionRoot r.method.name r.method.descriptor = [] := by
  rw [resolveReference, ← Request.resolutionRoot]
  dsimp only
  rw [loaded]
  dsimp only
  rw [if_neg (by simp [kind])]
  cases declaredIn (t.superclasses r.resolutionRoot) r.method.name r.method.descriptor with
  | cons first rest => simp
  | nil =>
    cases t.maximallySpecific r.resolutionRoot r.method.name r.method.descriptor with
    | nil => simp
    | cons first rest =>
      dsimp only
      cases (first :: rest).find? fun m => !m.flags.isAbstract <;> simp

theorem declaredIn_eq_nil_iff {classes : List ClassDecl} :
    declaredIn classes name descriptor = [] ↔ ∀ c ∈ classes, c.method? name descriptor = none := by
  simp [declaredIn]

section Ordered

variable (acyclic : t.Acyclic) (rooted : t.Rooted)
include acyclic rooted

theorem exists_maximallySpecific_below (offered : t.IsOffered className name descriptor m) :
    ∃ n ∈ t.maximallySpecific className name descriptor, t.isSubtype n.owner m.owner = true := by
  let below (n m : DeclaredMethod) : Prop := n.owner ≠ m.owner ∧ t.isSubtype n.owner m.owner = true
  have trans : ∀ a ∈ t.interfaceMethods className name descriptor,
      ∀ b ∈ t.interfaceMethods className name descriptor,
      ∀ c ∈ t.interfaceMethods className name descriptor, below a b → below b c → below a c := by
    intro a ha b hb c _ ⟨differ, first⟩ ⟨_, second⟩
    obtain ⟨d, hd, named⟩ := (mem_interfaceMethods_iff_isOffered.mp ha).exists_loaded
    obtain ⟨e, he, named'⟩ := (mem_interfaceMethods_iff_isOffered.mp hb).exists_loaded
    rw [isSubtype_iff_isBelow] at first second
    refine ⟨?_, ?_⟩
    · -- Back at the owner it came from, the chain would put two interfaces below each other.
      intro same
      rw [← same, ← named, ← named'] at second
      rw [← named, ← named'] at first differ
      exact differ (congrArg _ (rooted.isBelow_antisymm acyclic hd he first second))
    · rw [isSubtype_iff_isBelow]
      exact rooted.isBelow_trans_of_class (named ▸ rooted.component?_eq_none hd) first second
  obtain ⟨n, among, lower, least⟩ := exists_minimal_below below
    (fun a _ strict => strict.1 rfl) trans (mem_interfaceMethods_iff_isOffered.mpr offered)
  refine ⟨n, mem_maximallySpecific_iff.mpr ⟨mem_interfaceMethods_iff_isOffered.mp among, ?_⟩, ?_⟩
  · intro other others under
    by_contra differ
    exact least other (mem_interfaceMethods_iff_isOffered.mpr others) ⟨differ, under⟩
  · rcases lower with same | strict
    · rw [same]
      exact isSubtype_iff_isBelow.mpr (.refl _)
    · exact strict.2

theorem maximallySpecific_eq_nil_iff : t.maximallySpecific className name descriptor = [] ↔
    ∀ m, ¬ t.IsOffered className name descriptor m := by
  constructor
  · intro none m offered
    obtain ⟨n, found, _⟩ := exists_maximallySpecific_below acyclic rooted offered
    simp [none] at found
  · intro none
    rw [List.eq_nil_iff_forall_not_mem]
    exact fun m found => none m (mem_maximallySpecific_iff.mp found).1

end Ordered

/-- The maximally specific methods are those of the offered ones below whose interfaces no other
interface offers one, each once. None of their interfaces is below another, and every offered method
has one of them at or below it. So there is none only where none is offered, and a reference to a
loaded owner of the right kind names no method exactly where also no class on the way to the root
declares one. -/
theorem maximallySpecific_minimal_and_below_each (acyclic : t.Acyclic) (rooted : t.Rooted) :
    (∀ className name descriptor,
      ((t.maximallySpecific className name descriptor).map (·.owner)).Nodup ∧
      (∀ m, m ∈ t.maximallySpecific className name descriptor ↔
        t.IsOffered className name descriptor m ∧ ∀ n, t.IsOffered className name descriptor n →
          t.isSubtype n.owner m.owner = true → n.owner = m.owner) ∧
      (∀ m ∈ t.maximallySpecific className name descriptor,
        ∀ n ∈ t.maximallySpecific className name descriptor,
          t.isSubtype m.owner n.owner = true → m = n) ∧
      (∀ m, t.IsOffered className name descriptor m →
        ∃ n ∈ t.maximallySpecific className name descriptor,
          t.isSubtype n.owner m.owner = true) ∧
      (t.maximallySpecific className name descriptor = [] ↔
        ∀ m, ¬ t.IsOffered className name descriptor m)) ∧
    ∀ r d, t.find? r.resolutionRoot = some d → d.isInterface = r.isInterfaceMethod →
      (t.resolveReference r = .error (.noSuchMethod r.method) ↔
        (∀ c ∈ t.superclasses r.resolutionRoot,
          c.method? r.method.name r.method.descriptor = none) ∧
        ∀ m, ¬ t.IsOffered r.resolutionRoot r.method.name r.method.descriptor m) := by
  refine ⟨fun className name descriptor => ⟨nodup_owners_maximallySpecific,
    fun m => mem_maximallySpecific_iff, ?_, ?_, maximallySpecific_eq_nil_iff acyclic rooted⟩, ?_⟩
  · intro m hm n hn under
    have same := (mem_maximallySpecific_iff.mp hn).2 m (mem_maximallySpecific_iff.mp hm).1 under
    exact eq_of_owner_eq nodup_owners_maximallySpecific hm hn same
  · exact fun m offered => exists_maximallySpecific_below acyclic rooted offered
  · intro r d loaded kind
    rw [resolveReference_eq_noSuchMethod_iff loaded kind, declaredIn_eq_nil_iff,
      maximallySpecific_eq_nil_iff acyclic rooted]

theorem maximallySpecific_minimal_and_below_each_diamond :
    let area (flags : MethodFlags) : Method := ⟨"area", "()D", flags⟩
    let scale : Method := ⟨"scale", "()V", { isPrivate := true }⟩
    let shape : ClassDecl :=
      { ClassDecl.interface ⟨"Shape"⟩ with methods := [area {}, scale] }
    let flat : ClassDecl :=
      { ClassDecl.interface ⟨"Flat"⟩ with interfaces := [⟨"Shape"⟩], methods := [area {}] }
    let round : ClassDecl :=
      { ClassDecl.interface ⟨"Round"⟩ with
        interfaces := [⟨"Shape"⟩], methods := [area { isAbstract := true }] }
    let disc : ClassDecl :=
      { name := ⟨"Disc"⟩, superclass := some .object,
        interfaces := [⟨"Shape"⟩, ⟨"Flat"⟩, ⟨"Round"⟩] }
    let t := (((ClassTable.base.insert shape).insert flat).insert round).insert disc
    let r : Request := { method := ⟨⟨"Disc"⟩, "()V", "scale"⟩, isInterfaceMethod := false }
    t.Acyclic ∧ t.Rooted ∧ t.IsOffered ⟨"Disc"⟩ "area" "()D" ⟨⟨"Shape"⟩, area {}⟩ ∧
      ⟨⟨"Shape"⟩, area {}⟩ ∉ t.maximallySpecific ⟨"Disc"⟩ "area" "()D" ∧
      (∃ n ∈ t.maximallySpecific ⟨"Disc"⟩ "area" "()D",
        t.isSubtype n.owner ⟨"Shape"⟩ = true) ∧
      t.resolveReference r = .error (.noSuchMethod r.method) := by
  intro area scale shape flat round disc t r
  have acyclic : t.Acyclic := by
    apply acyclic_of_rank fun name =>
      if name = ⟨"Disc"⟩ then 3 else if name = ⟨"Flat"⟩ ∨ name = ⟨"Round"⟩ then 2 else
        if name = .object then 0 else 1
    decide +kernel
  have rooted : t.Rooted := by
    constructor <;> decide +kernel
  have law := maximallySpecific_minimal_and_below_each acyclic rooted
  have above (d : ClassDecl) (listed : d.name ∈ disc.interfaces)
      (loaded : t.find? d.name = some d) : d ∈ t.superinterfaces ⟨"Disc"⟩ :=
    mem_superinterfaces_iff.mpr ⟨disc, by decide +kernel, d.name, listed, .here loaded⟩
  have offered : t.IsOffered ⟨"Disc"⟩ "area" "()D" ⟨⟨"Shape"⟩, area {}⟩ :=
    ⟨shape, above shape (by decide) (by decide +kernel), rfl, by decide +kernel, rfl, rfl⟩
  have lower : t.IsOffered ⟨"Disc"⟩ "area" "()D" ⟨⟨"Flat"⟩, area {}⟩ :=
    ⟨flat, above flat (by decide) (by decide +kernel), rfl, by decide +kernel, rfl, rfl⟩
  have below : t.isSubtype ⟨"Flat"⟩ ⟨"Shape"⟩ = true := by
    refine isSubtype_iff_isBelow.mpr (.inherited (d := shape) rfl rfl rfl (.inr ?_))
    exact mem_superinterfaces_iff.mpr
      ⟨flat, by decide +kernel, ⟨"Shape"⟩, by decide, .here (by decide +kernel)⟩
  refine ⟨acyclic, rooted, offered, ?_, (law.1 _ _ _).2.2.2.1 _ offered, ?_⟩
  · intro selected
    have same := (((law.1 _ _ _).2.1 _).mp selected).2 _ lower below
    exact absurd same (by decide)
  · refine (law.2 r disc (by decide +kernel) rfl).mpr ⟨by decide +kernel, ?_⟩
    rintro m ⟨d, inherited, _, declared, visible, _⟩
    have hidden : ∀ c ∈ t.classes, (c.method? "scale" "()V").all (·.flags.isPrivate) = true := by
      decide +kernel
    have isPrivate := hidden d (mem_of_inherits (.inr inherited))
    rw [declared] at isPrivate
    exact absurd (isPrivate.symm.trans visible) (by decide)

end ClassTable
end DecisionPoints
