import DecisionPoints.Fault.Located

/-!
What a report gathers. Whatever is added to a report, and in whichever way, its errors at one
instruction stay in the order in which they were added, and none gets lost or is there twice. A
report that has just been sorted is determined by that: it is the stable sort of all its errors.
-/
namespace DecisionPoints

/-- How a report comes about: one constructor an operation, the last to take over a report that a
part of the library has gathered. -/
inductive Gathering : Type → Type 1 where
  | start {ε : Type} : Gathering ε
  | add {ε : Type} (g : Gathering ε) (e : Located ε) : Gathering ε
  | addLocated {ε : Type} (g : Gathering ε) (pc : UInt32) (payload : ε) : Gathering ε
  | addMany {ε : Type} (g : Gathering ε) (es : List (Located ε)) : Gathering ε
  | map {δ ε : Type} (g : Gathering δ) (f : δ → ε) : Gathering ε

namespace Gathering

def report {ε : Type} : Gathering ε → Report ε
  | start => {}
  | add g e => g.report.add e
  | addLocated g pc payload => g.report.addLocated pc payload
  | addMany g es => g.report.addMany es
  | map g f => g.report.map f

def added {ε : Type} : Gathering ε → List (Located ε)
  | start => []
  | add g e => g.added ++ [e]
  | addLocated g pc payload => g.added ++ [⟨pc, payload⟩]
  | addMany g es => g.added ++ es
  | map g f => g.added.map (·.map f)

end Gathering

namespace Located

variable {ε δ : Type} {as bs : List (Located ε)}

def Ascending (es : List (Located ε)) : Prop := es.Pairwise (·.pc ≤ ·.pc)

instance (es : List (Located ε)) : Decidable (Ascending es) :=
  inferInstanceAs (Decidable (es.Pairwise (·.pc ≤ ·.pc)))

def SameAtEach (as bs : List (Located ε)) : Prop :=
  ∀ pc, as.filter (·.pc = pc) = bs.filter (·.pc = pc)

theorem SameAtEach.symm (same : SameAtEach as bs) : SameAtEach bs as := fun pc => (same pc).symm

theorem SameAtEach.subset (same : SameAtEach as bs) : as ⊆ bs := by
  intro e member
  have here : e ∈ as.filter (·.pc = e.pc) := by simpa using member
  rw [same e.pc] at here
  exact (List.mem_filter.mp here).1

theorem SameAtEach.append {cs ds : List (Located ε)} (same : SameAtEach as bs)
    (same' : SameAtEach cs ds) : SameAtEach (as ++ cs) (bs ++ ds) := by
  intro pc
  rw [List.filter_append, List.filter_append, same pc, same' pc]

theorem filter_map (f : ε → δ) (es : List (Located ε)) (pc : UInt32) :
    (es.map (·.map f)).filter (·.pc = pc) = (es.filter (·.pc = pc)).map (·.map f) :=
  List.filter_map ..

theorem SameAtEach.map (same : SameAtEach as bs) (f : ε → δ) :
    SameAtEach (as.map (·.map f)) (bs.map (·.map f)) := by
  intro pc
  rw [filter_map, filter_map, same pc]

theorem SameAtEach.of_cons {e : Located ε} (same : SameAtEach (e :: as) (e :: bs)) :
    SameAtEach as bs := by
  intro pc
  have both := same pc
  rw [List.filter_cons, List.filter_cons] at both
  split at both
  · exact (List.cons.inj both).2
  · exact both

theorem SameAtEach.eq (same : SameAtEach as bs) (ascending : Ascending as)
    (ascending' : Ascending bs) : as = bs := by
  induction as generalizing bs with
  | nil => exact (List.subset_nil.mp same.symm.subset).symm
  | cons a as ih =>
    cases bs with
    | nil => exact List.subset_nil.mp same.subset
    | cons b bs =>
      obtain ⟨first, rest⟩ := List.pairwise_cons.mp ascending
      obtain ⟨first', rest'⟩ := List.pairwise_cons.mp ascending'
      -- Each head is a member of the other list, so neither counter is above the other.
      have below : a.pc ≤ b.pc := by
        obtain rfl | later := List.mem_cons.mp (same.symm.subset List.mem_cons_self)
        · exact UInt32.le_refl _
        · exact first b later
      have above : b.pc ≤ a.pc := by
        obtain rfl | later := List.mem_cons.mp (same.subset List.mem_cons_self)
        · exact UInt32.le_refl _
        · exact first' a later
      have level : b.pc = a.pc := UInt32.le_antisymm above below
      have heads := same a.pc
      rw [List.filter_cons_of_pos (by simp), List.filter_cons_of_pos (by simpa using level)]
        at heads
      obtain rfl : a = b := (List.cons.inj heads).1
      rw [ih same.of_cons rest rest']

theorem counter_trans (a b c : Located ε) : decide (a.pc ≤ b.pc) = true →
    decide (b.pc ≤ c.pc) = true → decide (a.pc ≤ c.pc) = true := by
  simpa using UInt32.le_trans

theorem counter_total (a b : Located ε) :
    (decide (a.pc ≤ b.pc) || decide (b.pc ≤ a.pc)) = true := by
  simpa using UInt32.le_total a.pc b.pc

/-- The errors in the order of their counters, those at one counter in the order given. -/
structure IsStableSort (es sorted : List (Located ε)) : Prop where
  ascending : Ascending sorted
  perm : sorted.Perm es
  steady : SameAtEach sorted es

theorem IsStableSort.eq {es : List (Located ε)} (h : IsStableSort es as) (h' : IsStableSort es bs) :
    as = bs :=
  SameAtEach.eq (fun pc => (h.steady pc).trans (h'.steady pc).symm) h.ascending h'.ascending

end Located

namespace Report

open Located

variable {ε δ : Type} (r : Report ε)

theorem perm_sorted : r.sorted.errors.Perm r.errors := List.mergeSort_perm ..

theorem ascending_sorted : Ascending r.sorted.errors :=
  (List.pairwise_mergeSort counter_trans counter_total r.errors).imp of_decide_eq_true

theorem sameAtEach_sorted : SameAtEach r.sorted.errors r.errors := by
  intro pc
  have level : (r.errors.filter (·.pc = pc)).Pairwise fun a b => decide (a.pc ≤ b.pc) = true := by
    refine List.pairwise_of_forall_mem_list fun a here b here' => ?_
    have equal : a.pc = b.pc := by
      rw [of_decide_eq_true (List.mem_filter.mp here).2,
        of_decide_eq_true (List.mem_filter.mp here').2]
    simp [equal]
  have kept : (r.errors.filter (·.pc = pc)).Sublist r.sorted.errors :=
    List.sublist_mergeSort counter_trans counter_total level List.filter_sublist
  have here := kept.filter (·.pc = pc)
  simp only [List.filter_filter, Bool.and_self] at here
  exact (here.eq_of_length (r.perm_sorted.filter _).length_eq.symm).symm

theorem size_map (f : ε → δ) : (r.map f).size = r.size := List.length_map ..

theorem counters_map (f : ε → δ) : (r.map f).errors.map (·.pc) = r.errors.map (·.pc) :=
  List.map_map ..

theorem payloads_map (f : ε → δ) :
    (r.map f).errors.map (·.payload) = (r.errors.map (·.payload)).map f := by
  rw [List.map_map]
  exact List.map_map ..

end Report

namespace Gathering

open Located

variable {ε : Type} (g : Gathering ε)

theorem perm_added : g.report.errors.Perm g.added := by
  induction g with
  | start => exact .refl _
  | add g e ih => exact ih.append_right _
  | addLocated g pc payload ih => exact (Report.perm_sorted _).trans (ih.append_right _)
  | addMany g es ih => exact ih.append_right _
  | map g f ih => exact ih.map _

theorem sameAtEach_added : SameAtEach g.report.errors g.added := by
  induction g with
  | start => exact fun _ => rfl
  | add g e ih => exact ih.append fun _ => rfl
  | addLocated g pc payload ih =>
    exact fun here => (Report.sameAtEach_sorted _ here).trans (ih.append (fun _ => rfl) here)
  | addMany g es ih => exact ih.append fun _ => rfl
  | map g f ih => exact ih.map f

theorem isStableSort_addLocated (pc : UInt32) (payload : ε) :
    IsStableSort (g.added ++ [⟨pc, payload⟩]) (g.addLocated pc payload).report.errors :=
  ⟨Report.ascending_sorted _, perm_added _, sameAtEach_added _⟩

/-- A report has all errors that were added to it and no others, those at one instruction in the
order in which they were added. Taking it over into another report keeps how many there are, their
order and their counters. Right after an error has been added at its counter, the report is the one
list that sorts all that was added by counter and keeps the order at each. -/
theorem errors_kept_in_order :
    (∀ pc, g.report.errorsAt pc = g.added.filter (·.pc = pc)) ∧
      g.report.size = g.added.length ∧ g.report.errors.Perm g.added ∧
      (∀ {δ : Type} (f : ε → δ), (g.report.map f).size = g.report.size ∧
        (g.report.map f).errors.map (·.pc) = g.report.errors.map (·.pc) ∧
        (g.report.map f).errors.map (·.payload) = (g.report.errors.map (·.payload)).map f) ∧
      ∀ (pc : UInt32) (payload : ε) (sorted : List (Located ε)),
        IsStableSort (g.added ++ [⟨pc, payload⟩]) sorted ↔
          sorted = (g.addLocated pc payload).report.errors := by
  refine ⟨g.sameAtEach_added, g.perm_added.length_eq, g.perm_added, ?_, ?_⟩
  · intro δ f
    exact ⟨g.report.size_map f, g.report.counters_map f, g.report.payloads_map f⟩
  · intro pc payload sorted
    have stable := g.isStableSort_addLocated pc payload
    constructor
    · exact fun other => other.eq stable
    · rintro rfl
      exact stable

end Gathering
end DecisionPoints
