import DecisionPoints.Proofs.ClassWalks
import Mathlib.Data.List.Chain
import Mathlib.Data.List.Nodup
import Mathlib.Data.List.Perm.Subperm
import Mathlib.Logic.Relation

/-!
Walks by rounds. A walk over the loaded classes can do without the list of the unvisited ones: it is
enough to keep in mind what has been seen. Round by round such a walk ends on every table, whatever
its links are, and what it has found by then is just what superclass and interface links reach.
-/
namespace DecisionPoints

/-- So many rounds lead from the first state to the last one, which has no further round. -/
inductive Ends {σ : Type} (round : σ → Option σ) : Nat → σ → σ → Prop where
  | done {s : σ} (last : round s = none) : Ends round 0 s s
  | next {n : Nat} {s s' final : σ} (first : round s = some s') (rest : Ends round n s' final) :
    Ends round (n + 1) s final

namespace ClassTable

structure Climb where
  met : List ClassDecl := []
  next : Option ClassDecl

def climb (t : ClassTable) (w : Climb) : Option Climb :=
  match w.next with
  | none => none
  | some d =>
    if d.name ∈ w.met.map (·.name) then none
    else some ⟨w.met ++ [d], d.superclass.bind t.find?⟩

structure Search where
  found : List ClassDecl := []
  seen : List ClassName := []
  queue : List ClassName

def search (t : ClassTable) (w : Search) : Option Search :=
  match w.queue with
  | [] => none
  | name :: rest =>
    if name ∈ w.seen then some ⟨w.found, w.seen, rest⟩
    else
      match t.find? name with
      | none => some ⟨w.found, name :: w.seen, rest⟩
      | some d => some ⟨w.found ++ [d], name :: w.seen, rest ++ d.interfaces⟩

variable {t : ClassTable} {name : ClassName} {d : ClassDecl}

def unseen (t : ClassTable) (seen : List ClassName) : List ClassDecl :=
  t.classes.filter (·.name ∉ seen)

@[simp] theorem unseen_nil : t.unseen [] = t.classes := by
  simp [unseen]

theorem find?_unseen (seen : List ClassName) :
    (t.unseen seen).find? (·.name = name) = if name ∈ seen then none else t.find? name := by
  rw [unseen, List.find?_filter, find?]
  by_cases old : name ∈ seen
  · rw [if_pos old, List.find?_eq_none]
    intro d _ same
    simp only [decide_eq_true_eq] at same
    exact same.1 (same.2 ▸ old)
  · rw [if_neg old]
    congr 1
    funext d
    by_cases named : d.name = name <;> simp [named, old]

theorem without_unseen {seen more : List ClassName}
    (added : ∀ other, other ∈ more ↔ other = name ∨ other ∈ seen) :
    without (t.unseen seen) name = t.unseen more := by
  rw [without, unseen, unseen, List.filter_filter]
  refine List.filter_congr fun d _ => ?_
  simp [added]

theorem unseen_cons_of_absent (absent : t.find? name = none) (seen : List ClassName) :
    t.unseen (name :: seen) = t.unseen seen := by
  refine List.filter_congr fun d loaded => ?_
  have differ : d.name ≠ name := by
    intro named
    rw [find?_eq_some_iff.mpr ⟨loaded, named⟩] at absent
    cases absent
  simp [differ]

theorem climb_ends (met : List ClassDecl) (name : ClassName) :
    ∃ last, Ends t.climb (chainFrom (t.unseen (met.map (·.name))) name).length
        ⟨met, t.find? name⟩ last ∧
      last.met = met ++ chainFrom (t.unseen (met.map (·.name))) name := by
  generalize unvisited : t.unseen (met.map (·.name)) = classes
  induction classes, name using chainFrom.induct generalizing met with
  | case1 classes name absent =>
    subst unvisited
    rw [chainFrom_of_absent absent, List.append_nil]
    refine ⟨_, .done ?_, rfl⟩
    rw [find?_unseen] at absent
    cases found : t.find? name with
    | none => rfl
    | some d =>
      obtain ⟨_, rfl⟩ := find?_eq_some_iff.mp found
      have again : d.name ∈ met.map (·.name) := by
        by_contra new
        simp [new, found] at absent
      simp [climb, again]
  | case2 classes name d visited ih =>
    subst unvisited
    have new : name ∉ met.map (·.name) := by
      intro old
      simp [find?_unseen, old] at visited
    have found : t.find? name = some d := by simpa [find?_unseen, new] using visited
    obtain ⟨_, rfl⟩ := find?_eq_some_iff.mp found
    have round : t.climb ⟨met, t.find? d.name⟩ = some ⟨met ++ [d], d.superclass.bind t.find?⟩ := by
      simp only [climb, found, if_neg new]
    have rest : t.unseen ((met ++ [d]).map (·.name)) =
        without (t.unseen (met.map (·.name))) d.name :=
      (without_unseen (by simp [or_comm])).symm
    rw [chainFrom_of_visited visited]
    cases extended : d.superclass with
    | none =>
      rw [extended] at round
      exact ⟨_, .next round (.done rfl), rfl⟩
    | some superclass =>
      rw [extended] at round
      obtain ⟨last, ends, listed⟩ := ih superclass (met ++ [d]) rest
      refine ⟨last, ?_, ?_⟩
      · simpa using Ends.next round ends
      · simpa using listed

theorem search_ends (found : List ClassDecl) (seen queue : List ClassName) :
    ∃ last, Ends t.search (queue.length +
        ((interfacesFrom (t.unseen seen) queue).flatMap (·.interfaces)).length)
        ⟨found, seen, queue⟩ last ∧
      last.found = found ++ interfacesFrom (t.unseen seen) queue := by
  generalize unvisited : t.unseen seen = classes
  induction classes, queue using interfacesFrom.induct generalizing found seen with
  | case1 classes =>
    rw [interfacesFrom_nil]
    exact ⟨_, .done rfl, by simp⟩
  | case2 classes name rest absent ih =>
    subst unvisited
    rw [interfacesFrom_of_absent absent]
    rw [find?_unseen] at absent
    by_cases old : name ∈ seen
    · obtain ⟨last, ends, listed⟩ := ih found seen rfl
      have round : t.search ⟨found, seen, name :: rest⟩ = some ⟨found, seen, rest⟩ := by
        simp [search, old]
      refine ⟨last, ?_, listed⟩
      simpa [Nat.add_right_comm] using Ends.next round ends
    · rw [if_neg old] at absent
      obtain ⟨last, ends, listed⟩ :=
        ih found (name :: seen) (unseen_cons_of_absent absent seen)
      have round : t.search ⟨found, seen, name :: rest⟩ = some ⟨found, name :: seen, rest⟩ := by
        simp [search, old, absent]
      refine ⟨last, ?_, listed⟩
      simpa [Nat.add_right_comm] using Ends.next round ends
  | case3 classes name rest d visited ih =>
    subst unvisited
    have new : name ∉ seen := by
      intro old
      simp [find?_unseen, old] at visited
    have loaded : t.find? name = some d := by simpa [find?_unseen, new] using visited
    obtain ⟨last, ends, listed⟩ :=
      ih (found ++ [d]) (name :: seen) (without_unseen (by simp)).symm
    have round : t.search ⟨found, seen, name :: rest⟩ =
        some ⟨found ++ [d], name :: seen, rest ++ d.interfaces⟩ := by
      simp [search, new, loaded]
    rw [interfacesFrom_of_visited visited]
    refine ⟨last, ?_, ?_⟩
    · have rounds := Ends.next round ends
      simp only [List.length_append, List.length_cons, List.flatMap_cons] at rounds ⊢
      convert rounds using 1
      omega
    · simpa using listed

def Links (links : ClassDecl → List ClassName) (t : ClassTable) (d e : ClassDecl) : Prop :=
  ∃ name ∈ links d, t.find? name = some e

def Extends (t : ClassTable) : ClassDecl → ClassDecl → Prop := Links (·.superclass.toList) t

def Implements (t : ClassTable) : ClassDecl → ClassDecl → Prop := Links (·.interfaces) t

theorem reaches_iff_reflTransGen {links : ClassDecl → List ClassName} :
    Reaches links t.classes name d ↔
      ∃ c, t.find? name = some c ∧ Relation.ReflTransGen (Links links t) c d := by
  constructor
  · intro reach
    induction reach with
    | here found => exact ⟨_, found, .refl⟩
    | @next name link d e found linked rest ih =>
      obtain ⟨c, loaded, path⟩ := ih
      exact ⟨e, found, .head ⟨link, linked, loaded⟩ path⟩
  · rintro ⟨c, found, path⟩
    induction path using Relation.ReflTransGen.head_induction_on generalizing name with
    | refl => exact .here found
    | head step _ ih =>
      obtain ⟨link, linked, loaded⟩ := step
      exact .next found linked (ih loaded)

theorem mem_superclasses_iff_reflTransGen : d ∈ t.superclasses name ↔
    ∃ c, t.find? name = some c ∧ Relation.ReflTransGen t.Extends c d :=
  mem_superclasses_iff.trans reaches_iff_reflTransGen

theorem mem_superinterfaces_iff_transGen : d ∈ t.superinterfaces name ↔
    ∃ c ∈ t.superclasses name, Relation.TransGen t.Implements c d := by
  rw [mem_superinterfaces_iff]
  refine exists_congr fun c => and_congr_right fun _ => ?_
  simp only [reaches_iff_reflTransGen, Relation.TransGen.head'_iff]
  constructor
  · rintro ⟨start, declared, e, loaded, path⟩
    exact ⟨e, ⟨start, declared, loaded⟩, path⟩
  · rintro ⟨e, ⟨start, declared, loaded⟩, path⟩
    exact ⟨start, declared, e, loaded, path⟩

section Order

variable {classes : List ClassDecl}

theorem head?_chainFrom : (chainFrom classes name).head? = classes.find? (·.name = name) := by
  cases found : classes.find? (·.name = name) with
  | none => rw [chainFrom_of_absent found, List.head?_nil]
  | some d => rw [chainFrom_of_visited found, List.head?_cons]

theorem isChain_chainFrom : (chainFrom classes name).IsChain fun d e =>
    ∃ superclass ∈ d.superclass, classes.find? (·.name = superclass) = some e := by
  induction classes, name using chainFrom.induct with
  | case1 classes name absent =>
    rw [chainFrom_of_absent absent]
    exact .nil
  | case2 classes name d visited ih =>
    rw [chainFrom_of_visited visited]
    have known {link : ClassName} {e : ClassDecl}
        (found : (without classes name).find? (·.name = link) = some e) :
        classes.find? (·.name = link) = some e := by
      rw [find?_without] at found
      split at found
      · cases found
      · exact found
    cases extended : d.superclass with
    | none => exact .singleton d
    | some superclass =>
      have onward : (chainFrom (without classes name) superclass).IsChain fun d e =>
          ∃ superclass ∈ d.superclass, classes.find? (·.name = superclass) = some e := by
        refine (ih superclass).imp fun _ _ next => ?_
        obtain ⟨link, linked, found⟩ := next
        exact ⟨link, linked, known found⟩
      simp only [Option.toList_some, List.flatMap_cons, List.flatMap_nil, List.append_nil]
      refine onward.cons fun e next => ?_
      rw [head?_chainFrom] at next
      exact ⟨superclass, extended, known next⟩

theorem nodup_chainFrom : ((chainFrom classes name).map (·.name)).Nodup := by
  induction classes, name using chainFrom.induct with
  | case1 classes name absent => simp [chainFrom_of_absent absent]
  | case2 classes name d visited ih =>
    rw [chainFrom_of_visited visited]
    cases extended : d.superclass with
    | none => simp
    | some superclass =>
      simp only [Option.toList_some, List.flatMap_cons, List.flatMap_nil, List.append_nil,
        List.map_cons, List.nodup_cons]
      refine ⟨?_, ih superclass⟩
      intro again
      obtain ⟨e, member, same⟩ := List.mem_map.mp again
      have unvisitedStill := (List.mem_filter.mp (mem_chainFrom_iff.mp member).mem).2
      have named := List.find?_some visited
      simp only [decide_eq_true_eq] at named unvisitedStill
      exact unvisitedStill (same.trans named)

end Order

theorem length_le_size {met : List ClassDecl} (distinct : (met.map (·.name)).Nodup)
    (loaded : ∀ d ∈ met, d ∈ t.classes) : met.length ≤ t.size :=
  ((List.Nodup.of_map _ distinct).subperm loaded).length_le

/-- What the chain of a name is: the class called so, each class followed by its superclass, none
twice, and all classes that superclass links lead to. -/
structure IsChainOf (t : ClassTable) (name : ClassName) (chain : List ClassDecl) : Prop where
  starts : chain.head? = t.find? name
  ordered : chain.IsChain t.Extends
  distinct : (chain.map (·.name)).Nodup
  exact : ∀ d, d ∈ chain ↔ ∃ c, t.find? name = some c ∧ Relation.ReflTransGen t.Extends c d

/-- What the interfaces of a name are: none twice, and all classes that one interface link or more
lead to from some class of the chain. -/
structure AreInterfacesOf (t : ClassTable) (name : ClassName) (found : List ClassDecl) : Prop where
  distinct : (found.map (·.name)).Nodup
  exact : ∀ d, d ∈ found ↔ ∃ c ∈ t.superclasses name, Relation.TransGen t.Implements c d

theorem isChainOf_superclasses (t : ClassTable) (name : ClassName) :
    t.IsChainOf name (t.superclasses name) where
  starts := head?_chainFrom
  ordered := by
    refine isChain_chainFrom.imp fun _ _ next => ?_
    obtain ⟨superclass, linked, found⟩ := next
    exact ⟨superclass, Option.mem_toList.mpr linked, found⟩
  distinct := nodup_chainFrom
  exact _ := mem_superclasses_iff_reflTransGen

theorem areInterfacesOf_superinterfaces (t : ClassTable) (name : ClassName) :
    t.AreInterfacesOf name (t.superinterfaces name) where
  distinct := nodup_interfacesFrom
  exact _ := mem_superinterfaces_iff_transGen

/-- On every table, from every name, both walks end, and what they have met is the chain of the name
and its interfaces. The first ends after a round for each class of the chain, and there are no more
of these than are loaded. The second ends after a round for each interface that a class of the chain
or one found later lists. -/
theorem walks_end_with_what_links_reach (t : ClassTable) (name : ClassName) :
    let chain := t.superclasses name
    let found := t.superinterfaces name
    let queue := chain.flatMap (·.interfaces)
    (∃ last, Ends t.climb chain.length ⟨[], t.find? name⟩ last ∧ last.met = chain) ∧
      chain.length ≤ t.size ∧ t.IsChainOf name chain ∧
    (∃ last, Ends t.search (queue.length + (found.flatMap (·.interfaces)).length) ⟨[], [], queue⟩
      last ∧ last.found = found) ∧
      found.length ≤ t.size ∧ t.AreInterfacesOf name found := by
  intro chain found queue
  have chained := t.isChainOf_superclasses name
  have reached := t.areInterfacesOf_superinterfaces name
  refine ⟨?_, ?_, chained, ?_, ?_, reached⟩
  · obtain ⟨last, ends, listed⟩ := t.climb_ends [] name
    rw [List.map_nil, unseen_nil] at ends listed
    exact ⟨last, ends, listed⟩
  · exact length_le_size chained.distinct fun d member => (mem_superclasses_iff.mp member).mem
  · obtain ⟨last, ends, listed⟩ := t.search_ends [] [] queue
    rw [unseen_nil] at ends listed
    exact ⟨last, ends, listed⟩
  · refine length_le_size reached.distinct fun d member => ?_
    obtain ⟨_, _, _, _, reach⟩ := mem_superinterfaces_iff.mp member
    exact reach.mem

example :
    let a : ClassDecl :=
      { name := ⟨"A"⟩, superclass := some ⟨"B"⟩, interfaces := [⟨"I"⟩, ⟨"Absent"⟩] }
    let b : ClassDecl := .concrete ⟨"B"⟩ ⟨"A"⟩
    let i : ClassDecl := { ClassDecl.interface ⟨"I"⟩ with interfaces := [⟨"I"⟩, ⟨"A"⟩] }
    let t := ((empty.insert a).insert b).insert i
    t.superclasses ⟨"A"⟩ = [a, b] ∧ t.superinterfaces ⟨"A"⟩ = [i, a] := by
  exact ⟨by cbv, by cbv⟩

end ClassTable
end DecisionPoints
