import DecisionPoints.Condition.Decider
import Mathlib.Data.List.Flatten
import Mathlib.Data.List.Nodup

/-!
What the loops of the decision procedure come to. None of them depends on the order of the clauses
or of the collected pairs: the answer is unsatisfiable exactly if two clauses exclude each other or
one is refuted by its literals, and without that it is left open exactly if a term occurs twice in
the bounded pairs, each pair counted once.
-/
namespace DecisionPoints

theorem nodup_eraseDups {α : Type} [BEq α] [LawfulBEq α] (as : List α) : as.eraseDups.Nodup := by
  induction size : as.length using Nat.strongRecOn generalizing as with
  | ind n ih =>
    cases as with
    | nil => exact .nil
    | cons a rest =>
      rw [List.eraseDups_cons]
      have shorter := List.length_filter_le (fun b => !b == a) rest
      rw [List.length_cons] at size
      refine List.nodup_cons.mpr ⟨?_, ih _ (by omega) _ rfl⟩
      simp [List.mem_eraseDups]

theorem Keyed.get?_eq_some_iff {κ α : Type} [DecidableEq κ] {m : Keyed κ α} {key : κ} {value : α} :
    m.get? key = some value ↔ (key, value) ∈ m.entries := by
  constructor
  · intro found
    obtain ⟨entry, first, rfl⟩ := Option.map_eq_some_iff.mp found
    have same : entry.1 = key := by simpa using List.find?_some first
    exact same ▸ List.mem_of_find?_eq_some first
  · intro member
    cases first : m.entries.find? (·.1 = key) with
    | none => simpa using List.find?_eq_none.mp first _ member
    | some entry =>
      have same : entry.1 = key := by simpa using List.find?_some first
      have unique := List.inj_on_of_nodup_map m.distinct (List.mem_of_find?_eq_some first) member
      rw [get?, first, unique same]
      rfl

namespace Clause

def Conflicts (a b : Clause) : Prop := a ≠ b ∧ a.origin?.isSome ∧ a.origin? = b.origin?

instance (a b : Clause) : Decidable (a.Conflicts b) :=
  inferInstanceAs (Decidable (_ ∧ _ ∧ _))

def Excludes (a b : Clause) : Prop := a.Conflicts b ∨ a.opposite? = some b

instance (a b : Clause) : Decidable (a.Excludes b) := inferInstanceAs (Decidable (_ ∨ _))

/-- Whether the literals of a bounds clause refute it, whatever its terms are. -/
def isRefuted : Clause → Bool
  | .inBounds index length =>
    match index.concrete?, length.concrete? with
    | some i, some l => !(0 ≤ i.toInt && i.toInt < l.toInt)
    | some i, none => i.toInt < 0
    | none, some l => l.toInt ≤ 0
    | none, none => false
  | .outOfBounds index length =>
    match index.concrete?, length.concrete? with
    | some i, some l => 0 ≤ i.toInt && i.toInt < l.toInt
    | _, _ => false
  | .resolves .. => false

def boundedPairs (clauses : List Clause) : List (Expression × Expression) :=
  (clauses.filterMap bounded?).eraseDups

def boundedTerms (clauses : List Clause) : List String :=
  (boundedPairs clauses).flatMap fun (index, length) => index.terms ++ length.terms

def contradictory (clauses : List Clause) : Bool :=
  (clauses.any fun a => clauses.any fun b => a.Excludes b) || clauses.any isRefuted

theorem Conflicts.symm {a b : Clause} (h : a.Conflicts b) : b.Conflicts a :=
  ⟨Ne.symm h.1, h.2.2 ▸ h.2.1, h.2.2.symm⟩

theorem contradictory_iff {clauses : List Clause} : contradictory clauses = true ↔
    (∃ a ∈ clauses, ∃ b ∈ clauses, a.Excludes b) ∨ ∃ c ∈ clauses, c.isRefuted = true := by
  simp [contradictory]

theorem mem_boundedPairs {clauses : List Clause} {pair : Expression × Expression} :
    pair ∈ boundedPairs clauses ↔ ∃ c ∈ clauses, c.bounded? = some pair := by
  rw [boundedPairs, List.mem_eraseDups, List.mem_filterMap]

section Resolutions

variable {resolved : Keyed Origin Clause} {origin : Origin} {c d : Clause} {rest : List Clause}

def Meets (resolved : Keyed Origin Clause) (c : Clause) : Prop :=
  ∃ origin ∈ c.origin?, ∃ e ∈ resolved.get? origin, e ≠ c

theorem meets_insert (about : c.origin? = some origin) (free : ¬ Meets resolved c) :
    Meets (resolved.insert origin c) d ↔ Meets resolved d ∨ c.Conflicts d := by
  have settled : ∀ e, resolved.get? origin = some e → e = c := by
    intro e found
    by_contra differ
    exact free ⟨origin, about, e, found, differ⟩
  constructor
  · rintro ⟨other, same, e, found, differ⟩
    rw [Option.mem_def, Keyed.get?_insert] at found
    split at found
    · next here =>
      cases found
      exact .inr ⟨differ, by rw [about]; rfl, by rw [about, same, here]⟩
    · exact .inl ⟨other, same, e, found, differ⟩
  · intro h
    have at_origin (same : d.origin? = some origin) (differ : c ≠ d) :
        Meets (resolved.insert origin c) d :=
      ⟨origin, same, c, by rw [Option.mem_def, Keyed.get?_insert, if_pos rfl], differ⟩
    rcases h with ⟨other, same, e, found, differ⟩ | ⟨differ, _, same⟩
    · by_cases here : other = origin
      · subst here
        exact at_origin same (settled e found ▸ differ)
      · refine ⟨other, same, e, ?_, differ⟩
        rw [Option.mem_def, Keyed.get?_insert, if_neg here]
        exact found
    · exact at_origin (same.symm.trans about) differ

theorem exists_conflict_cons : (∃ a ∈ c :: rest, ∃ b ∈ c :: rest, a.Conflicts b) ↔
    (∃ b ∈ rest, c.Conflicts b) ∨ ∃ a ∈ rest, ∃ b ∈ rest, a.Conflicts b := by
  have irreflexive : ¬ c.Conflicts c := fun h => h.1 rfl
  constructor
  · rintro ⟨a, ha, b, hb, conflict⟩
    rcases List.mem_cons.mp ha with rfl | first
    · rcases List.mem_cons.mp hb with rfl | second
      · exact absurd conflict irreflexive
      · exact .inl ⟨b, second, conflict⟩
    · rcases List.mem_cons.mp hb with rfl | second
      · exact .inl ⟨a, first, conflict.symm⟩
      · exact .inr ⟨a, first, b, second, conflict⟩
  · rintro (⟨b, hb, conflict⟩ | ⟨a, ha, b, hb, conflict⟩)
    · exact ⟨c, List.mem_cons_self, b, List.mem_cons_of_mem _ hb, conflict⟩
    · exact ⟨a, List.mem_cons_of_mem _ ha, b, List.mem_cons_of_mem _ hb, conflict⟩

theorem firstConflict?_cons_of_meets (met : Meets resolved c) :
    (firstConflict? resolved (c :: rest)).isSome := by
  obtain ⟨origin, about, e, found, differ⟩ := met
  simp [firstConflict?, Option.mem_def.mp about, Option.mem_def.mp found, differ]

theorem firstConflict?_cons_of_not_meets (about : c.origin? = some origin)
    (free : ¬ Meets resolved c) :
    firstConflict? resolved (c :: rest) = firstConflict? (resolved.insert origin c) rest := by
  rw [firstConflict?, about]
  dsimp only
  cases found : resolved.get? origin with
  | none => rfl
  | some e =>
    have same : e = c := by
      by_contra differ
      exact free ⟨origin, about, e, found, differ⟩
    simp [same]

theorem firstConflict?_isSome_iff {clauses : List Clause} :
    (firstConflict? resolved clauses).isSome ↔
      (∃ c ∈ clauses, Meets resolved c) ∨ ∃ a ∈ clauses, ∃ b ∈ clauses, a.Conflicts b := by
  induction clauses generalizing resolved with
  | nil => simp [firstConflict?]
  | cons c rest ih =>
    rw [exists_conflict_cons, List.exists_mem_cons_iff]
    by_cases met : Meets resolved c
    · exact iff_of_true (firstConflict?_cons_of_meets met) (.inl (.inl met))
    · cases about : c.origin? with
      | none =>
        have alone : ¬ ∃ b ∈ rest, c.Conflicts b := by
          rintro ⟨b, _, _, resolves, _⟩
          rw [about] at resolves
          cases resolves
        simp only [firstConflict?, about, ih, met, alone, false_or]
      | some origin =>
        -- What later clauses meet in the grown map is what they met before, or the clause `c`.
        simp only [firstConflict?_cons_of_not_meets about met, ih, meets_insert about met, met,
          false_or, and_or_left, exists_or, or_assoc]

theorem referenceFeasibility_eq (clauses : List Clause) : referenceFeasibility clauses =
    if ∃ a ∈ clauses, ∃ b ∈ clauses, a.Conflicts b then .unsat else .sat := by
  have unmet : ¬ ∃ c ∈ clauses, Meets {} c := by
    rintro ⟨_, _, _, _, _, found, _⟩
    cases found
  rw [referenceFeasibility]
  simp only [firstConflict?_isSome_iff, unmet, false_or]

end Resolutions

section Collecting

variable {m : Keyed (Expression × Expression) Polarity} {clauses : List Clause}

def waysOf (clauses : List Clause) (pair : Expression × Expression) : Polarity :=
  ⟨clauses.contains (.inBounds pair.1 pair.2), clauses.contains (.outOfBounds pair.1 pair.2)⟩

/-- The map holds the bounded pairs of the clauses, each with its ways. -/
def Collects (m : Keyed (Expression × Expression) Polarity) (clauses : List Clause) : Prop :=
  ∀ pair, m.get? pair = if pair ∈ boundedPairs clauses then some (waysOf clauses pair) else none

theorem Collects.getD_eq (h : Collects m clauses) (pair : Expression × Expression) :
    (m.get? pair).getD {} = waysOf clauses pair := by
  rw [h pair]
  split
  · rfl
  · next unbounded =>
    have absent (c : Clause) (bounds : c.bounded? = some pair) : c ∉ clauses :=
      fun member => unbounded (mem_boundedPairs.mpr ⟨c, member, bounds⟩)
    simp [waysOf, absent (.inBounds pair.1 pair.2) rfl, absent (.outOfBounds pair.1 pair.2) rfl]

theorem Collects.step (h : Collects m clauses) (c : Clause) :
    Collects (collect m c) (clauses ++ [c]) := by
  intro pair
  have grown : pair ∈ boundedPairs (clauses ++ [c]) ↔
      pair ∈ boundedPairs clauses ∨ c.bounded? = some pair := by
    simp [mem_boundedPairs, or_and_right, exists_or]
  by_cases here : c.bounded? = some pair
  · have ways : (waysOf clauses pair).add c.isInBounds = waysOf (clauses ++ [c]) pair := by
      cases c <;> cases here <;> simp [waysOf, Polarity.add, isInBounds]
    rw [collect, here]
    dsimp only
    rw [Keyed.get?_insert, if_pos rfl, if_pos (grown.mpr (.inr here)), h.getD_eq, ways]
  · have same : (collect m c).get? pair = m.get? pair := by
      rw [collect]
      split
      · rfl
      · next other bounds =>
        have apart : pair ≠ other := fun same => here (same ▸ bounds)
        rw [Keyed.get?_insert, if_neg apart]
    have ways : waysOf (clauses ++ [c]) pair = waysOf clauses pair := by
      have inside : c ≠ .inBounds pair.1 pair.2 := by rintro rfl; exact here rfl
      have outside : c ≠ .outOfBounds pair.1 pair.2 := by rintro rfl; exact here rfl
      simp [waysOf, Ne.symm inside, Ne.symm outside]
    simp only [same, h pair, grown, here, or_false, ways]

theorem collects_foldl (h : Collects m clauses) (later : List Clause) :
    Collects (later.foldl collect m) (clauses ++ later) := by
  induction later generalizing m clauses with
  | nil => simpa using h
  | cons c rest ih => simpa using ih (h.step c)

theorem collects_polarities (clauses : List Clause) : Collects (polarities clauses) clauses := by
  have none : Collects {} [] := fun _ => rfl
  exact collects_foldl none clauses

theorem mem_polarities_iff {pair : Expression × Expression} {ways : Polarity} :
    (pair, ways) ∈ (polarities clauses).entries ↔
      pair ∈ boundedPairs clauses ∧ waysOf clauses pair = ways := by
  rw [← Keyed.get?_eq_some_iff, collects_polarities, Option.ite_none_right_eq_some,
    Option.some.injEq]

theorem polarities_perm (clauses : List Clause) :
    ((polarities clauses).entries.map (·.1)).Perm (boundedPairs clauses) := by
  have once : (boundedPairs clauses).Nodup := nodup_eraseDups _
  rw [List.perm_ext_iff_of_nodup (polarities clauses).distinct once]
  intro pair
  simp [mem_polarities_iff]

end Collecting

end Clause

namespace BoundedPair

def terms (entry : BoundedPair) : List String := entry.1.1.terms ++ entry.1.2.terms

def isRefuted (entry : BoundedPair) : Bool :=
  entry.2.inside && entry.2.outside ||
    Clause.pairFeasibility entry.1.1 entry.1.2 entry.2.inside = .unsat

end BoundedPair

namespace Clause

theorem pairFeasibility_ne_unknown (index length : Expression) (isInside : Bool) :
    pairFeasibility index length isInside ≠ .unknown := by
  unfold pairFeasibility
  dsimp only
  split <;> (try split) <;> simp

theorem isRefuted_eq_pairFeasibility {c : Clause} {pair : Expression × Expression}
    (bounds : c.bounded? = some pair) :
    c.isRefuted = (pairFeasibility pair.1 pair.2 c.isInBounds = .unsat : Bool) := by
  have refutes (holds : Prop) [Decidable holds] :
      (if holds then Feasibility.sat else .unsat) = .unsat ↔ ¬ holds := by
    split <;> simp_all
  cases c with
  | resolves reference referent => cases bounds
  | inBounds index length | outOfBounds index length =>
    cases bounds
    rw [Bool.eq_iff_iff, decide_eq_true_eq]
    cases hi : index.concrete? <;> cases hl : length.concrete? <;>
      simp only [isRefuted, pairFeasibility, isInBounds, hi, hl, refutes, Bool.and_eq_true,
        Bool.or_eq_true, Bool.not_eq_true', Bool.and_eq_false_iff, decide_eq_true_eq,
        decide_eq_false_iff_not, reduceCtorEq, Bool.false_eq_true] <;>
      omega

section Walking

variable {seen : List String} {answer : Feasibility} {entry : BoundedPair}
  {entries rest : List BoundedPair}

theorem isIndependent_iff {terms : List String} :
    isIndependent terms seen = true ↔ terms.Nodup ∧ terms.Disjoint seen := by
  simp [isIndependent, List.Disjoint]

theorem walk_cons_of_isRefuted (refuted : entry.isRefuted = true) :
    walk seen answer (entry :: rest) = .unsat := by
  obtain ⟨⟨index, length⟩, ways⟩ := entry
  rw [walk]
  split
  · rfl
  · next single =>
    have unsat : pairFeasibility index length ways.inside = .unsat := by
      simpa [BoundedPair.isRefuted, single] using refuted
    simp [unsat]

theorem walk_cons_of_not_isRefuted (unrefuted : entry.isRefuted = false) :
    walk seen answer (entry :: rest) = walk (entry.terms ++ seen)
      (if isIndependent entry.terms seen then answer else .unknown) rest := by
  obtain ⟨⟨index, length⟩, ways⟩ := entry
  obtain ⟨single, unrefuted⟩ : (ways.inside && ways.outside) = false ∧
      pairFeasibility index length ways.inside ≠ .unsat := by
    simpa [BoundedPair.isRefuted] using unrefuted
  rw [walk, single]
  cases found : pairFeasibility index length ways.inside with
  | unsat => exact absurd found unrefuted
  | unknown => exact absurd found (pairFeasibility_ne_unknown _ _ _)
  | sat => rfl

theorem walk_eq_unsat_iff (undecided : answer ≠ .unsat) :
    walk seen answer entries = .unsat ↔ ∃ entry ∈ entries, entry.isRefuted = true := by
  induction entries generalizing seen answer with
  | nil => simpa [walk] using undecided
  | cons entry rest ih =>
    rw [List.exists_mem_cons_iff]
    cases refuted : entry.isRefuted with
    | true => simp [walk_cons_of_isRefuted refuted]
    | false =>
      rw [walk_cons_of_not_isRefuted refuted, ih]
      · simp
      · split <;> simp [undecided]

theorem walk_unknown_ne_sat : walk seen .unknown entries ≠ .sat := by
  induction entries generalizing seen with
  | nil => simp [walk]
  | cons entry rest ih =>
    cases refuted : entry.isRefuted with
    | true => simp [walk_cons_of_isRefuted refuted]
    | false => simpa [walk_cons_of_not_isRefuted refuted] using ih

theorem walk_eq_sat_iff : walk seen .sat entries = .sat ↔
    (∀ entry ∈ entries, entry.isRefuted = false) ∧
      (entries.flatMap BoundedPair.terms).Nodup ∧
      (entries.flatMap BoundedPair.terms).Disjoint seen := by
  induction entries generalizing seen with
  | nil => simp [walk]
  | cons entry rest ih =>
    rw [List.forall_mem_cons, List.flatMap_cons]
    cases refuted : entry.isRefuted with
    | true => simp [walk_cons_of_isRefuted refuted]
    | false =>
      rw [walk_cons_of_not_isRefuted refuted, List.nodup_append', List.disjoint_append_left]
      by_cases independent : isIndependent entry.terms seen = true
      · obtain ⟨once, fresh⟩ := isIndependent_iff.mp independent
        rw [if_pos independent, ih, List.disjoint_append_right]
        constructor
        · intro ⟨each, distinct, apart, later⟩
          exact ⟨⟨rfl, each⟩, ⟨once, distinct, List.disjoint_symm apart⟩, fresh, later⟩
        · intro ⟨⟨_, each⟩, ⟨_, distinct, apart⟩, _, later⟩
          exact ⟨each, distinct, List.disjoint_symm apart, later⟩
      · rw [if_neg independent]
        refine iff_of_false walk_unknown_ne_sat ?_
        intro ⟨_, ⟨once, _⟩, fresh, _⟩
        exact independent (isIndependent_iff.mpr ⟨once, fresh⟩)

end Walking

section Answer

variable {clauses : List Clause} {pair : Expression × Expression} {entries : List BoundedPair}

theorem inside_eq_isInBounds {c : Clause} (member : c ∈ clauses) (bounds : c.bounded? = some pair)
    (single : ((waysOf clauses pair).inside && (waysOf clauses pair).outside) = false) :
    (waysOf clauses pair).inside = c.isInBounds := by
  cases c with
  | resolves reference referent => cases bounds
  | inBounds index length =>
    cases bounds
    simpa [waysOf, isInBounds] using member
  | outOfBounds index length =>
    cases bounds
    simpa [waysOf, isInBounds, member] using single

theorem isRefuted_waysOf_iff (bounded : pair ∈ boundedPairs clauses) :
    BoundedPair.isRefuted (pair, waysOf clauses pair) = true ↔
      (.inBounds pair.1 pair.2 ∈ clauses ∧ .outOfBounds pair.1 pair.2 ∈ clauses) ∨
        ∃ c ∈ clauses, c.bounded? = some pair ∧ c.isRefuted = true := by
  cases both : (waysOf clauses pair).inside && (waysOf clauses pair).outside with
  | true =>
    have members : .inBounds pair.1 pair.2 ∈ clauses ∧ .outOfBounds pair.1 pair.2 ∈ clauses := by
      simpa [waysOf] using both
    simp [BoundedPair.isRefuted, both, members]
  | false =>
    have apart : ¬ (.inBounds pair.1 pair.2 ∈ clauses ∧ .outOfBounds pair.1 pair.2 ∈ clauses) := by
      simpa [waysOf] using both
    have agrees (c : Clause) (member : c ∈ clauses) (bounds : c.bounded? = some pair) :
        BoundedPair.isRefuted (pair, waysOf clauses pair) = c.isRefuted := by
      rw [isRefuted_eq_pairFeasibility bounds, ← inside_eq_isInBounds member bounds both]
      simp [BoundedPair.isRefuted, both]
    simp only [apart, false_or]
    constructor
    · intro refuted
      obtain ⟨c, member, bounds⟩ := mem_boundedPairs.mp bounded
      exact ⟨c, member, bounds, agrees c member bounds ▸ refuted⟩
    · intro ⟨c, member, bounds, refuted⟩
      exact agrees c member bounds ▸ refuted

theorem opposite?_eq_some_iff {a b : Clause} : a.opposite? = some b ↔
    ∃ index length, (a = .inBounds index length ∧ b = .outOfBounds index length) ∨
      (a = .outOfBounds index length ∧ b = .inBounds index length) := by
  cases a <;> simp [opposite?, eq_comm]

theorem exists_isRefuted_iff (perm : entries.Perm (polarities clauses).entries) :
    (∃ entry ∈ entries, entry.isRefuted = true) ↔
      (∃ a ∈ clauses, ∃ b ∈ clauses, a.opposite? = some b) ∨
        ∃ c ∈ clauses, c.isRefuted = true := by
  have collected : (∃ entry ∈ entries, entry.isRefuted = true) ↔
      ∃ pair ∈ boundedPairs clauses, BoundedPair.isRefuted (pair, waysOf clauses pair) = true := by
    simp [perm.mem_iff, mem_polarities_iff]
  rw [collected]
  constructor
  · intro ⟨pair, bounded, refuted⟩
    rcases (isRefuted_waysOf_iff bounded).mp refuted with ⟨inside, outside⟩ | ⟨c, member, _, found⟩
    · exact .inl ⟨_, inside, _, outside, rfl⟩
    · exact .inr ⟨c, member, found⟩
  · rintro (⟨a, ha, b, hb, opposite⟩ | ⟨c, member, refuted⟩)
    · obtain ⟨index, length, sides⟩ := opposite?_eq_some_iff.mp opposite
      have both : .inBounds index length ∈ clauses ∧ .outOfBounds index length ∈ clauses := by
        rcases sides with ⟨rfl, rfl⟩ | ⟨rfl, rfl⟩
        · exact ⟨ha, hb⟩
        · exact ⟨hb, ha⟩
      have bounded : (index, length) ∈ boundedPairs clauses :=
        mem_boundedPairs.mpr ⟨_, both.1, rfl⟩
      exact ⟨_, bounded, (isRefuted_waysOf_iff bounded).mpr (.inl both)⟩
    · cases bounds : c.bounded? with
      | none => cases c <;> first | cases refuted | cases bounds
      | some pair =>
        have bounded := mem_boundedPairs.mpr ⟨c, member, bounds⟩
        have stops := (isRefuted_waysOf_iff bounded).mpr (.inr ⟨c, member, bounds, refuted⟩)
        exact ⟨pair, bounded, stops⟩

theorem nodup_terms_iff (perm : entries.Perm (polarities clauses).entries) :
    (entries.flatMap BoundedPair.terms).Nodup ↔ (boundedTerms clauses).Nodup := by
  let termsOf (pair : Expression × Expression) : List String := pair.1.terms ++ pair.2.terms
  have pairs : (entries.map (·.1)).Perm (boundedPairs clauses) :=
    (perm.map _).trans (polarities_perm clauses)
  have same : entries.flatMap BoundedPair.terms = (entries.map (·.1)).flatMap termsOf := by
    rw [List.flatMap_map]
    rfl
  rw [same]
  exact (pairs.flatMap_right termsOf).nodup_iff

/-- The walk does not depend on the order in which it meets the pairs. -/
theorem walk_eq (perm : entries.Perm (polarities clauses).entries) : walk [] .sat entries =
    if (∃ a ∈ clauses, ∃ b ∈ clauses, a.opposite? = some b) ∨ ∃ c ∈ clauses, c.isRefuted = true
      then .unsat
    else if (boundedTerms clauses).Nodup then .sat
    else .unknown := by
  have unsat : walk [] .sat entries = .unsat ↔ _ :=
    (walk_eq_unsat_iff (by simp)).trans (exists_isRefuted_iff perm)
  by_cases refuted : (∃ a ∈ clauses, ∃ b ∈ clauses, a.opposite? = some b) ∨
      ∃ c ∈ clauses, c.isRefuted = true
  · rw [if_pos refuted, unsat]
    exact refuted
  · have unrefuted : ∀ entry ∈ entries, entry.isRefuted = false := by
      simpa using (exists_isRefuted_iff perm).not.mpr refuted
    have sat : walk [] .sat entries = .sat ↔ (boundedTerms clauses).Nodup := by
      rw [walk_eq_sat_iff, ← nodup_terms_iff perm]
      simpa using fun _ => unrefuted
    rw [if_neg refuted]
    cases answer : walk [] .sat entries with
    | unsat => exact absurd (unsat.mp answer) refuted
    | sat => rw [if_pos (sat.mp answer)]
    | unknown =>
      have repeated : ¬ (boundedTerms clauses).Nodup := by
        rw [← sat, answer]
        simp
      rw [if_neg repeated]

theorem feasibility_eq (clauses : List Clause) : feasibility clauses =
    if contradictory clauses then .unsat
    else if (boundedTerms clauses).Nodup then .sat
    else .unknown := by
  rw [feasibility, referenceFeasibility_eq, boundsFeasibility, walk_eq (List.Perm.refl _)]
  by_cases conflict : ∃ a ∈ clauses, ∃ b ∈ clauses, a.Conflicts b
  · obtain ⟨a, ha, b, hb, differ⟩ := conflict
    have refuted : contradictory clauses = true :=
      contradictory_iff.mpr (.inl ⟨a, ha, b, hb, .inl differ⟩)
    rw [if_pos ⟨a, ha, b, hb, differ⟩, if_pos refuted]
  · have refuted : contradictory clauses = true ↔
        (∃ a ∈ clauses, ∃ b ∈ clauses, a.opposite? = some b) ∨
          ∃ c ∈ clauses, c.isRefuted = true := by
      rw [contradictory_iff]
      simp only [Excludes, and_or_left, exists_or, conflict, false_or]
    rw [if_neg conflict]
    simp only [← refuted]
    generalize (if contradictory clauses = true then Feasibility.unsat
      else if (boundedTerms clauses).Nodup then .sat else .unknown) = answer
    cases answer <;> rfl

end Answer

end Clause
end DecisionPoints
