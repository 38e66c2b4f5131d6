import DecisionPoints.Enumeration.Candidate
import Mathlib.Data.List.Basic

/-!
The outcomes of an access, of which its candidates are those that the policy asks for. Whatever the
access does with what it finds, the guards of its outcomes depend up to order on two things only: the
index that it bounds, and the ways of resolving its reference.
-/
namespace DecisionPoints

theorem bind_eq_ok_iff {ε α β : Type} {x : Except ε α} {f : α → Except ε β} {b : β} :
    (x >>= f) = .ok b ↔ ∃ a, x = .ok a ∧ f a = .ok b := by
  cases x <;> simp [bind, Except.bind]

theorem map_of_mapM_eq_ok {ε α β γ : Type} {f : α → Except ε β} {key : α → γ} {view : β → γ}
    (each : ∀ a b, f a = .ok b → view b = key a) {as : List α} {bs : List β}
    (run : as.mapM f = .ok bs) : bs.map view = as.map key := by
  induction as generalizing bs with
  | nil => cases run; rfl
  | cons a rest ih =>
    rw [List.mapM_cons, bind_eq_ok_iff] at run
    obtain ⟨b, first, run⟩ := run
    obtain ⟨later, others, result⟩ := bind_eq_ok_iff.mp run
    cases result
    rw [List.map_cons, List.map_cons, each a b first, ih others]

theorem exists_of_mem_mapM {ε α β : Type} {f : α → Except ε β} {as : List α} {bs : List β}
    (run : as.mapM f = .ok bs) {b : β} (member : b ∈ bs) : ∃ a ∈ as, f a = .ok b := by
  induction as generalizing bs with
  | nil =>
    cases run
    cases member
  | cons a rest ih =>
    rw [List.mapM_cons, bind_eq_ok_iff] at run
    obtain ⟨first, here, run⟩ := run
    obtain ⟨later, others, result⟩ := bind_eq_ok_iff.mp run
    cases result
    rcases List.mem_cons.mp member with rfl | member
    · exact ⟨a, List.mem_cons_self, here⟩
    · obtain ⟨x, among, found⟩ := ih others member
      exact ⟨x, List.mem_cons_of_mem _ among, found⟩

theorem exists_mapM_eq_ok {ε α β : Type} {f : α → Except ε β} {related : α → β → Prop}
    {as : List α} (each : ∀ a ∈ as, ∃ b, f a = .ok b ∧ related a b) :
    ∃ bs, as.mapM f = .ok bs ∧ List.Forall₂ related as bs := by
  induction as with
  | nil => exact ⟨[], rfl, .nil⟩
  | cons a rest ih =>
    obtain ⟨b, first, here⟩ := each a List.mem_cons_self
    obtain ⟨bs, others, later⟩ := ih fun x member => each x (List.mem_cons_of_mem _ member)
    refine ⟨b :: bs, ?_, .cons here later⟩
    rw [List.mapM_cons, first, others]
    rfl

namespace Access

def symbolic? : Access → Option SymbolicReference
  | .arrayLoad _ _ _ element _ => element.symbolic?
  | .arrayStore .. => none
  | .fieldLoad _ loaded => loaded.symbolic?
  | .checkCast _ reference | .instanceOf _ reference | .receiver reference => reference.symbolic?

def bounds? : Access → Option (Expression × Expression)
  | .arrayLoad _ length index _ _ | .arrayStore _ length index _ => some (index, length)
  | .fieldLoad .. | .checkCast .. | .instanceOf .. | .receiver _ => none

def allowsNull (policy : Policy) : Access → Bool
  | .receiver _ => policy.nullReceivers
  | _ => true

end Access

namespace Guard

/-- The guards of an access to what may be resolved in some ways, if it needs to be, at an index,
if it has one. -/
def enumerated (bounds : Option (Expression × Expression)) (ways : Option (List Clause)) :
    List Guard :=
  match bounds, ways with
  | none, none => [⟨[]⟩]
  | none, some ways => ways.map fun way => ⟨[way]⟩
  | some (index, length), none => [⟨[.inBounds index length]⟩, ⟨[.outOfBounds index length]⟩]
  | some (index, length), some ways =>
    ways.map (fun way => ⟨[.inBounds index length, way]⟩) ++ [⟨[.outOfBounds index length]⟩]

end Guard

namespace Context

def ways? (c : Context) (a : Access) : Option (List Clause) :=
  a.symbolic?.map fun r => (c.resolutions r (a.allowsNull c.policy)).map (·.clause)

theorem symbolic?_of_expectSymbolic {reference : Reference} {r : SymbolicReference}
    (h : reference.expectSymbolic = .ok r) : reference.symbolic? = some r := by
  cases reference <;> cases h
  rfl

theorem subject?_eq_ok {c : Context} {a : Access} {subject : Option SymbolicReference}
    (h : c.subject? a = .ok subject) :
    a.symbolic? = subject ∧ (subject = none → a.bounds?.isSome) := by
  cases a with
  | arrayLoad array length index element isFresh =>
    obtain ⟨component, _, h⟩ := bind_eq_ok_iff.mp h
    refine ⟨?_, fun _ => rfl⟩
    cases element with
    | null => cases h; rfl
    | object position => cases h; rfl
    | symbolic r =>
      dsimp only at h
      split at h
      · obtain ⟨_, _, h⟩ := bind_eq_ok_iff.mp h
        cases h; rfl
      · cases h
  | arrayStore array length index value =>
    obtain ⟨_, _, h⟩ := bind_eq_ok_iff.mp h
    cases h
    exact ⟨rfl, fun _ => rfl⟩
  | fieldLoad field loaded =>
    obtain ⟨r, found, h⟩ := bind_eq_ok_iff.mp h
    split at h
    · cases h
    · split at h
      · obtain ⟨_, _, h⟩ := bind_eq_ok_iff.mp h
        cases h
        exact ⟨symbolic?_of_expectSymbolic found, by rintro ⟨⟩⟩
      · cases h
  | checkCast target reference | instanceOf target reference =>
    obtain ⟨r, found, h⟩ := bind_eq_ok_iff.mp h
    obtain ⟨_, _, h⟩ := bind_eq_ok_iff.mp h
    obtain ⟨_, _, h⟩ := bind_eq_ok_iff.mp h
    cases h
    exact ⟨symbolic?_of_expectSymbolic found, by rintro ⟨⟩⟩
  | receiver reference =>
    obtain ⟨r, found, h⟩ := bind_eq_ok_iff.mp h
    obtain ⟨_, _, h⟩ := bind_eq_ok_iff.mp h
    cases h
    exact ⟨symbolic?_of_expectSymbolic found, by rintro ⟨⟩⟩

theorem subjectResolutions_eq_ok {c : Context} {a : Access} {ways : List Resolution}
    (h : c.subjectResolutions a = .ok ways) :
    (a.bounds?.isSome ∧ c.ways? a = none ∧ ways = []) ∨ c.ways? a = some (ways.map (·.clause)) := by
  obtain ⟨subject, found, h⟩ := bind_eq_ok_iff.mp h
  obtain ⟨same, bounded⟩ := subject?_eq_ok found
  cases subject with
  | none => cases h; exact .inl ⟨bounded rfl, by simp [ways?, same], rfl⟩
  | some r =>
    refine .inr ?_
    rw [ways?, same]
    cases a <;> cases h <;> rfl

/-- The outcomes of an access, whether or not the policy asks for those in which it fails. -/
def outcomes (c : Context) (a : Access) : Except AccessError (List Outcome) := do
  let resolutions ← c.subjectResolutions a
  match a with
  | .arrayLoad array length index element isFresh =>
    let inside := Clause.inBounds index length
    let outside : Outcome := ⟨a.family, .outOfBounds, ⟨[.outOfBounds index length]⟩, none⟩
    match element with
    | .symbolic r =>
      let writeBack := if isFresh then some ⟨array, .element index, r⟩ else none
      return resolutions.map (fun s =>
        ⟨a.family, .resolved s.referent, ⟨[inside, s.clause]⟩, writeBack⟩) ++ [outside]
    | _ => return [⟨a.family, .inBounds, ⟨[inside]⟩, none⟩, outside]
  | .arrayStore array length index value =>
    let kind := if ← c.isStorable array value then .inBounds else .typeMismatch none
    return [⟨a.family, kind, ⟨[.inBounds index length]⟩, none⟩,
      ⟨a.family, .outOfBounds, ⟨[.outOfBounds index length]⟩, none⟩]
  | .fieldLoad .. | .receiver _ =>
    return resolutions.map fun s => ⟨a.family, .resolved s.referent, ⟨[s.clause]⟩, none⟩
  | .checkCast target _ =>
    let cast ← resolutions.mapM fun s =>
      return (s, (← c.isInstance target s.referent) || s.referent = .null)
    let (passing, failing) := cast.partition (·.2)
    return passing.map (fun (s, _) => ⟨a.family, .resolved s.referent, ⟨[s.clause]⟩, none⟩) ++
      failing.map fun (s, _) => ⟨a.family, .typeMismatch (some s.referent), ⟨[s.clause]⟩, none⟩
  | .instanceOf target _ =>
    resolutions.mapM fun s =>
      return ⟨a.family, .typeTest s.referent (← c.isInstance target s.referent), ⟨[s.clause]⟩, none⟩

def asksFor (c : Context) (o : Outcome) : Bool :=
  c.policy.faultAlternatives || !o.kind.isViolation

section Faults

variable {c : Context} {passing failing : List Outcome}

theorem filter_asksFor_of_passing (pass : ∀ o ∈ passing, o.kind.isViolation = false) :
    passing.filter c.asksFor = passing := by
  refine List.filter_eq_self.mpr fun o member => ?_
  simp [asksFor, pass o member]

theorem filter_asksFor_of_failing (fail : ∀ o ∈ failing, o.kind.isViolation = true) :
    failing.filter c.asksFor = c.faults failing := by
  cases wanted : c.policy.faultAlternatives with
  | true => simp [asksFor, faults, wanted]
  | false => simpa [asksFor, faults, wanted] using fail

theorem filter_asksFor_append (pass : ∀ o ∈ passing, o.kind.isViolation = false)
    (fail : ∀ o ∈ failing, o.kind.isViolation = true) :
    (passing ++ failing).filter c.asksFor = passing ++ c.faults failing := by
  rw [List.filter_append, filter_asksFor_of_passing pass, filter_asksFor_of_failing fail]

theorem filter_asksFor_cons {o : Outcome} (pass : o.kind.isViolation = false)
    (fail : ∀ o ∈ failing, o.kind.isViolation = true) :
    (o :: failing).filter c.asksFor = [o] ++ c.faults failing := by
  rw [← List.singleton_append]
  exact filter_asksFor_append (by simpa using pass) fail

theorem filter_asksFor_mapM {f : Resolution → Except AccessError Outcome} {ways : List Resolution}
    (pass : ∀ s o, f s = .ok o → o.kind.isViolation = false) :
    List.filter c.asksFor <$> ways.mapM f = ways.mapM f := by
  cases run : ways.mapM f with
  | error e => rfl
  | ok os =>
    refine congrArg Except.ok (filter_asksFor_of_passing fun o member => ?_)
    obtain ⟨s, _, found⟩ := exists_of_mem_mapM run member
    exact pass s o found

theorem faults_append (first second : List Outcome) :
    c.faults first ++ c.faults second = c.faults (first ++ second) := by
  rw [faults, faults, faults]
  split <;> rfl

end Faults

/-- Each access leaves out its own faults, and what remains is what the policy asks for. -/
theorem candidates_eq (c : Context) (a : Access) :
    c.candidates a = List.filter c.asksFor <$> c.outcomes a := by
  rw [candidates, outcomes]
  cases c.subjectResolutions a with
  | error e => rfl
  | ok ways =>
    cases a with
    | arrayLoad array length index element isFresh =>
      cases element with
      | null | object position =>
        refine congrArg Except.ok (filter_asksFor_cons ?_ ?_).symm <;>
          simp [OutcomeKind.isViolation]
      | symbolic r =>
        refine congrArg Except.ok (filter_asksFor_append ?_ ?_).symm <;>
          simp [OutcomeKind.isViolation]
    | arrayStore array length index value =>
      dsimp only [bind, Except.bind]
      cases c.isStorable array value with
      | error e => rfl
      | ok fits =>
        refine congrArg Except.ok ?_
        cases fits with
        | true => refine (filter_asksFor_cons ?_ ?_).symm <;> simp [OutcomeKind.isViolation]
        | false =>
          rw [filter_asksFor_of_failing (by simp [OutcomeKind.isViolation])]
          exact faults_append _ _
    | fieldLoad field loaded | receiver reference =>
      refine congrArg Except.ok (filter_asksFor_of_passing ?_).symm
      simp [OutcomeKind.isViolation]
    | checkCast target reference =>
      dsimp only [bind, Except.bind]
      split
      · rfl
      · refine congrArg Except.ok (filter_asksFor_append ?_ ?_).symm <;>
          simp [OutcomeKind.isViolation]
    | instanceOf target reference =>
      refine (filter_asksFor_mapM fun s o found => ?_).symm
      obtain ⟨holds, _, found⟩ := bind_eq_ok_iff.mp found
      cases found
      rfl

theorem guards_perm_enumerated {c : Context} {a : Access} {outcomes : List Outcome}
    (h : c.outcomes a = .ok outcomes) :
    (outcomes.map (·.guard)).Perm (Guard.enumerated a.bounds? (c.ways? a)) := by
  obtain ⟨ways, found, h⟩ := bind_eq_ok_iff.mp h
  have resolved := subjectResolutions_eq_ok found
  cases a with
  | arrayLoad array length index element isFresh =>
    cases element with
    | null | object position => cases h; rfl
    | symbolic r =>
      cases h
      rcases resolved with ⟨_, unresolved, _⟩ | resolved
      · cases unresolved
      · simp [resolved, Guard.enumerated, Access.bounds?, Function.comp_def]
  | arrayStore array length index value =>
    obtain ⟨storable, _, h⟩ := bind_eq_ok_iff.mp h
    cases h; rfl
  | fieldLoad field loaded | receiver reference =>
    cases h
    rcases resolved with ⟨array, _⟩ | resolved
    · cases array
    · simp [resolved, Guard.enumerated, Access.bounds?, Function.comp_def]
  | checkCast target reference =>
    obtain ⟨cast, run, h⟩ := bind_eq_ok_iff.mp h
    rw [List.partition_eq_filter_filter] at h
    cases h
    rcases resolved with ⟨array, _⟩ | resolved
    · cases array
    · -- What passes is listed before what fails, so only here the order of the ways is lost.
      let guardOf (pair : Resolution × Bool) : Guard := ⟨[pair.1.clause]⟩
      have tested : cast.map guardOf = ways.map fun s => ⟨[s.clause]⟩ := by
        refine map_of_mapM_eq_ok ?_ run
        intro s pair h
        obtain ⟨holds, _, h⟩ := bind_eq_ok_iff.mp h
        cases h; rfl
      have reordered := (List.filter_append_perm (·.2) cast).map guardOf
      simpa [tested, resolved, guardOf, Guard.enumerated, Access.bounds?, Function.comp_def]
        using reordered
  | instanceOf target reference =>
    rcases resolved with ⟨array, _⟩ | resolved
    · cases array
    · have guarded : outcomes.map (·.guard) = ways.map fun s => ⟨[s.clause]⟩ := by
        refine map_of_mapM_eq_ok ?_ h
        intro s o h
        obtain ⟨holds, _, h⟩ := bind_eq_ok_iff.mp h
        cases h; rfl
      simp [guarded, resolved, Guard.enumerated, Access.bounds?, Function.comp_def]

end Context
end DecisionPoints
