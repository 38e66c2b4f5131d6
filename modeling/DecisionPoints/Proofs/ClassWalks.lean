import DecisionPoints.Class.Walk

/-!
The walks over the loaded classes, as reachability. A walk takes each class that it visits out of
the unvisited ones and never comes back to it. What it could have met through that class it has in
its queue by then, so in the end it has met all that the links reach, on a cyclic table too.
-/
namespace DecisionPoints
namespace ClassTable

variable {links : ClassDecl → List ClassName} {classes : List ClassDecl}
variable {name other : ClassName} {d e : ClassDecl}

/-- The class is called by the name, or the links of the class called so lead on to it. -/
inductive Reaches (links : ClassDecl → List ClassName) (classes : List ClassDecl) :
    ClassName → ClassDecl → Prop where
  | here {name : ClassName} {d : ClassDecl} (found : classes.find? (·.name = name) = some d) :
    Reaches links classes name d
  | next {name link : ClassName} {d e : ClassDecl}
    (found : classes.find? (·.name = name) = some e) (linked : link ∈ links e)
    (rest : Reaches links classes link d) : Reaches links classes name d

namespace Reaches

theorem mem (reach : Reaches links classes name d) : d ∈ classes := by
  induction reach with
  | here found => exact List.mem_of_find?_eq_some found
  | next found linked rest ih => exact ih

theorem trans (first : Reaches links classes name d) (second : Reaches links classes d.name e) :
    Reaches links classes name e := by
  induction first with
  | here found =>
    have same := List.find?_some found
    simp only [decide_eq_true_eq] at same
    exact same ▸ second
  | next found linked rest ih => exact next found linked (ih second)

end Reaches

theorem Reaches.mono {more : ClassDecl → List ClassName} (among : ∀ c, links c ⊆ more c)
    (reach : Reaches links classes name d) : Reaches more classes name d := by
  induction reach with
  | here found => exact .here found
  | @next name link d e found linked rest ih => exact .next found (among e linked) ih

theorem find?_without : (without classes name).find? (·.name = other) =
    if other = name then none else classes.find? (·.name = other) := by
  unfold without
  rw [List.find?_filter]
  by_cases same : other = name
  · subst same
    simp
  · rw [if_neg same]
    congr 1
    funext c
    by_cases named : c.name = other <;> simp [named, same]

theorem Reaches.of_without (reach : Reaches links (without classes name) other d) :
    Reaches links classes other d := by
  have known {sought : ClassName} {c : ClassDecl}
      (found : (without classes name).find? (·.name = sought) = some c) :
      classes.find? (·.name = sought) = some c := by
    rw [find?_without] at found
    by_cases same : sought = name
    · simp [same] at found
    · simpa [same] using found
  induction reach with
  | here found => exact here (known found)
  | next found linked rest ih => exact next (known found) linked ih

/-- What is reached without a class or through it is, after the last visit to the class, reached
from one of its links without it. -/
theorem Reaches.avoid (visited : classes.find? (·.name = name) = some e)
    (reach : Reaches links classes other d) : Reaches links (without classes name) other d ∨
      d = e ∨ ∃ link ∈ links e, Reaches links (without classes name) link d := by
  induction reach with
  | @here other d found =>
    by_cases same : other = name
    · subst same
      exact .inr (.inl (Option.some.inj (found.symm.trans visited)))
    · exact .inl (here (by rw [find?_without, if_neg same, found]))
  | @next other link d c found linked rest ih =>
    rcases ih with around | through
    · by_cases same : other = name
      · subst same
        obtain rfl : c = e := Option.some.inj (found.symm.trans visited)
        exact .inr (.inr ⟨link, linked, around⟩)
      · exact .inl (next (by rw [find?_without, if_neg same, found]) linked around)
    · exact .inr through

theorem reaches_iff_of_visited (visited : classes.find? (·.name = name) = some e) :
    Reaches links classes name d ↔
      d = e ∨ ∃ link ∈ links e, Reaches links (without classes name) link d := by
  constructor
  · intro reach
    rcases reach.avoid visited with around | through
    · -- Without the class nothing is called by its name.
      cases around with
      | here found => simp [find?_without] at found
      | next found linked rest => simp [find?_without] at found
    · exact through
  · intro through
    rcases through with same | ⟨link, linked, rest⟩
    · subst same
      exact .here visited
    · exact .next visited linked rest.of_without

theorem not_reaches (absent : classes.find? (·.name = name) = none) :
    ¬ Reaches links classes name d := by
  intro reach
  cases reach with
  | here found => simp [absent] at found
  | next found linked rest => simp [absent] at found

theorem chainFrom_of_absent (absent : classes.find? (·.name = name) = none) :
    chainFrom classes name = [] := by
  unfold chainFrom
  split
  · rfl
  · next visited => simp [absent] at visited

theorem chainFrom_of_visited (visited : classes.find? (·.name = name) = some e) :
    chainFrom classes name =
      e :: e.superclass.toList.flatMap (chainFrom (without classes name)) := by
  rw [chainFrom]
  split
  · next absent => simp [visited] at absent
  · next c found =>
    obtain rfl : e = c := Option.some.inj (visited.symm.trans found)
    cases e.superclass <;> simp

@[simp] theorem interfacesFrom_nil : interfacesFrom classes [] = [] := by
  rw [interfacesFrom]

theorem interfacesFrom_of_absent (absent : classes.find? (·.name = name) = none)
    (rest : List ClassName) :
    interfacesFrom classes (name :: rest) = interfacesFrom classes rest := by
  rw [interfacesFrom]
  split
  · rfl
  · next visited => simp [absent] at visited

theorem interfacesFrom_of_visited (visited : classes.find? (·.name = name) = some e)
    (rest : List ClassName) : interfacesFrom classes (name :: rest) =
      e :: interfacesFrom (without classes name) (rest ++ e.interfaces) := by
  rw [interfacesFrom]
  split
  · next absent => simp [visited] at absent
  · next c found =>
    obtain rfl : e = c := Option.some.inj (visited.symm.trans found)
    rfl

theorem mem_chainFrom_iff :
    d ∈ chainFrom classes name ↔ Reaches (·.superclass.toList) classes name d := by
  induction classes, name using chainFrom.induct with
  | case1 unvisited name absent =>
    simp [chainFrom_of_absent absent, not_reaches absent]
  | case2 unvisited name e visited ih =>
    rw [chainFrom_of_visited visited, reaches_iff_of_visited visited, List.mem_cons,
      List.mem_flatMap]
    simp only [ih]

theorem mem_interfacesFrom_iff {queue : List ClassName} :
    d ∈ interfacesFrom classes queue ↔
      ∃ start ∈ queue, Reaches (·.interfaces) classes start d := by
  induction classes, queue using interfacesFrom.induct with
  | case1 unvisited => simp
  | case2 unvisited name rest absent ih =>
    simp [interfacesFrom_of_absent absent, ih, not_reaches absent]
  | case3 unvisited name rest e visited ih =>
    rw [interfacesFrom_of_visited visited, List.mem_cons, ih]
    simp only [List.mem_cons, List.mem_append]
    constructor
    · rintro (same | ⟨start, queued | linked, reach⟩)
      · subst same
        exact ⟨name, .inl rfl, .here visited⟩
      · exact ⟨start, .inr queued, reach.of_without⟩
      · exact ⟨name, .inl rfl, .next visited linked reach.of_without⟩
    · rintro ⟨start, first | queued, reach⟩
      · subst first
        rcases (reaches_iff_of_visited visited).mp reach with same | ⟨link, linked, around⟩
        · exact .inl same
        · exact .inr ⟨link, .inr linked, around⟩
      · rcases reach.avoid visited with around | same | ⟨link, linked, around⟩
        · exact .inr ⟨start, .inl queued, around⟩
        · exact .inl same
        · exact .inr ⟨link, .inr linked, around⟩

theorem nodup_interfacesFrom {queue : List ClassName} :
    ((interfacesFrom classes queue).map (·.name)).Nodup := by
  induction classes, queue using interfacesFrom.induct with
  | case1 unvisited => simp
  | case2 unvisited name rest absent ih => rwa [interfacesFrom_of_absent absent]
  | case3 unvisited name rest e visited ih =>
    rw [interfacesFrom_of_visited visited, List.map_cons, List.nodup_cons]
    refine ⟨?_, ih⟩
    intro again
    obtain ⟨d, member, same⟩ := List.mem_map.mp again
    obtain ⟨start, _, reach⟩ := mem_interfacesFrom_iff.mp member
    have unvisitedStill := (List.mem_filter.mp reach.mem).2
    have named := List.find?_some visited
    simp only [decide_eq_true_eq] at named unvisitedStill
    exact unvisitedStill (same.trans named)

variable {t : ClassTable}

theorem mem_superclasses_iff :
    d ∈ t.superclasses name ↔ Reaches (·.superclass.toList) t.classes name d := mem_chainFrom_iff

theorem mem_superinterfaces_iff : d ∈ t.superinterfaces name ↔
    ∃ c ∈ t.superclasses name, ∃ start ∈ c.interfaces,
      Reaches (·.interfaces) t.classes start d := by
  rw [superinterfaces, mem_interfacesFrom_iff]
  simp only [List.mem_flatMap]
  constructor
  · rintro ⟨start, ⟨c, inherited, declared⟩, reach⟩
    exact ⟨c, inherited, start, declared, reach⟩
  · rintro ⟨c, inherited, start, declared, reach⟩
    exact ⟨start, ⟨c, inherited, declared⟩, reach⟩

def parents (d : ClassDecl) : List ClassName := d.superclass.toList ++ d.interfaces

/-- No class is above itself, by superclass and interface links together. -/
def Acyclic (t : ClassTable) : Prop :=
  ∀ d ∈ t.classes, ∀ parent ∈ parents d, ¬ Reaches parents t.classes parent d

theorem Acyclic.eq_of_reaches (acyclic : t.Acyclic) (loaded : d ∈ t.classes)
    (up : Reaches parents t.classes d.name e) (down : Reaches parents t.classes e.name d) :
    d = e := by
  have here := find?_eq_some_iff.mpr ⟨loaded, rfl⟩
  cases up with
  | here found => exact Option.some.inj (here.symm.trans found)
  | next found linked rest =>
    obtain rfl := Option.some.inj (here.symm.trans found)
    exact absurd (rest.trans down) (acyclic d loaded _ linked)

theorem acyclic_of_rank (rank : ClassName → Nat)
    (descends : ∀ d ∈ t.classes, ∀ parent ∈ parents d, rank parent < rank d.name) :
    t.Acyclic := by
  have bound {name : ClassName} {d : ClassDecl} (reach : Reaches parents t.classes name d) :
      rank d.name ≤ rank name := by
    induction reach with
    | here found => exact Nat.le_of_eq (congrArg rank (find?_eq_some_iff.mp found).2)
    | @next name link d e found linked rest ih =>
      obtain ⟨member, named⟩ := find?_eq_some_iff.mp found
      have below := descends e member link linked
      rw [named] at below
      omega
  intro d member parent linked reach
  have below := descends d member parent linked
  have above := bound reach
  omega

end ClassTable
end DecisionPoints
