import DecisionPoints.Condition.Decider
import DecisionPoints.Proofs.Alternatives
import DecisionPoints.Proofs.CanonicalForm
import DecisionPoints.Proofs.PerResolution
import DecisionPoints.Proofs.Resolutions

/-!
Distinct forms. With any names at all, a canonical form can be read in several ways, but among the
alternatives of one access it stands for one of them. These share what comes before the referent and
what comes after it. A position is read up to its bracket, and a class name is told by the length of
the whole, which holds it twice.
-/
namespace DecisionPoints

namespace Referent

/-- Whether the two are the same, but for the origins through which one object was discovered. -/
def Alike : Referent → Referent → Prop
  | .alias position _, .alias position' _ => position = position'
  | r, q => r = q

theorem Precedes.not_alike {r q : Referent} (before : r.Precedes q) : ¬ r.Alike q := by
  intro alike
  match r, q with
  | .alias position _, .alias position' _ => exact Nat.ne_of_lt before alike
  | .alias _ _, .fresh _ | .alias _ _, .null | .fresh _, _ | .null, _ => exact before.ne alike

theorem length_text_fresh (c : ClassName) :
    (fresh c).text.toList.length = c.text.toList.length + 13 := by
  change ("Fresh(class=" ++ c.text ++ ")").toList.length = _
  simp

end Referent

namespace OutcomeKind

theorem name_ne_outOfBounds {kind : OutcomeKind} {r : Referent} (h : kind.referent? = some r) :
    kind.name ≠ "OutOfBounds" := by
  cases kind with
  | resolved referent => cases referent <;> simp [name, Referent.kindName]
  | typeTest referent holds | typeMismatch referent => simp [name]
  | inBounds | outOfBounds => cases h

def halfFrame (name : String) : Nat :=
  if name = "Fresh" then 6 else if name = "TypeTest" then 12 else 13

theorem length_text_of_fresh {kind : OutcomeKind} {c : ClassName}
    (fresh : kind.referent? = some (.fresh c)) : ∃ odd ≤ 1,
      kind.text.toList.length = c.text.toList.length + 2 * halfFrame kind.name + odd := by
  have length := Referent.length_text_fresh c
  cases kind with
  | resolved r =>
    cases fresh
    exact ⟨1, Nat.le_refl 1, length⟩
  | typeTest r holds =>
    cases fresh
    cases holds with
    | true =>
      refine ⟨0, by decide, ?_⟩
      change ((Referent.fresh c).text ++ "/holds=" ++ "true").toList.length =
        c.text.toList.length + 2 * 12 + 0
      simp [length]
    | false =>
      refine ⟨1, Nat.le_refl 1, ?_⟩
      change ((Referent.fresh c).text ++ "/holds=" ++ "false").toList.length =
        c.text.toList.length + 2 * 12 + 1
      simp [length]
  | typeMismatch r =>
    cases fresh
    refine ⟨1, Nat.le_refl 1, ?_⟩
    change ("TypeMismatch(" ++ (Referent.fresh c).text ++ ")").toList.length =
      c.text.toList.length + 2 * 13 + 1
    simp [length]
  | inBounds | outOfBounds => cases fresh

/-- A text that names a class twice says by its length how long the name is: the rest is as long for
all classes, or longer by one. -/
theorem length_eq_of_fresh {x y : OutcomeKind} (same : x.name = y.name) {c d : ClassName}
    (fresh : x.referent? = some (.fresh c)) (fresh' : y.referent? = some (.fresh d))
    (h : c.text.toList.length + x.text.toList.length =
      d.text.toList.length + y.text.toList.length) :
    c.text.toList.length = d.text.toList.length := by
  obtain ⟨odd, _, first⟩ := length_text_of_fresh fresh
  obtain ⟨odd', _, second⟩ := length_text_of_fresh fresh'
  rw [same] at first
  omega

theorem alike_of_text_eq {x y : OutcomeKind} (same : x.name = y.name) {r q : Referent}
    (hr : x.referent? = some r) (hq : y.referent? = some q) {s : List Char}
    (h : r.verdict.toList ++ ':' :: (x.text.toList ++ s) =
      q.verdict.toList ++ ':' :: (y.text.toList ++ s)) : r.Alike q := by
  rcases r with ⟨position, origin⟩ | c | _
  · rcases q with ⟨position', origin'⟩ | d | _
    · have h : (toString position).toList ++ ']' :: (" (".toList ++ (origin.text.toList ++ ')' ::
            ':' :: (x.text.toList ++ s))) = (toString position').toList ++ ']' :: (" (".toList ++
          (origin'.text.toList ++ ')' :: ':' :: (y.text.toList ++ s))) := by
        simpa [Referent.verdict] using h
      exact (reads_position rfl rfl (Stops.cons rfl) (Stops.cons rfl) h).1
    · simp [Referent.verdict] at h
    · simp [Referent.verdict] at h
  · rcases q with ⟨position', origin'⟩ | d | _
    · simp [Referent.verdict] at h
    · have h : c.text.toList ++ (':' :: (x.text.toList ++ s)) =
          d.text.toList ++ (':' :: (y.text.toList ++ s)) := by
        simpa [Referent.verdict] using h
      have lengths := congrArg List.length h
      simp only [List.length_append, List.length_cons] at lengths
      have named := (List.append_inj h (length_eq_of_fresh same hr hq (by omega))).1
      obtain ⟨text⟩ := c
      obtain ⟨text'⟩ := d
      exact congrArg (Referent.fresh ⟨·⟩) (String.toList_inj.mp named)
    · simp [Referent.verdict] at h
  · rcases q with ⟨position', origin'⟩ | d | _
    · simp [Referent.verdict] at h
    · simp [Referent.verdict] at h
    · rfl

end OutcomeKind

theorem Clause.exists_lead (bounds : List Clause) (origin : Origin) : ∃ lead, ∀ r : Referent,
    (conjunctionText (bounds ++ [.resolves origin r])).toList = lead ++ r.verdict.toList := by
  cases bounds with
  | nil =>
    refine ⟨origin.text.toList, fun r => ?_⟩
    rw [List.nil_append, toList_conjunctionText, text_resolves]
    simp
  | cons first rest =>
    refine ⟨first.text.toList ++ rest.flatMap linked ++ " && ".toList ++ origin.text.toList,
      fun r => ?_⟩
    rw [List.cons_append, toList_conjunctionText, List.flatMap_append]
    simp [linked, text_resolves]

theorem Outcome.alike_of_canonical_eq {a : Access} {origin : Origin} {x y : Outcome}
    {r q : Referent} (hx : x.IsOn a (.plain origin r)) (hy : y.IsOn a (.plain origin q))
    (h : x.canonical = y.canonical) : r.Alike q := by
  obtain ⟨_, name, h⟩ := head_of_canonical_eq h
  obtain ⟨lead, texts⟩ := Clause.exists_lead a.inside origin
  rw [hx.guard, hy.guard, hx.writeBack, hy.writeBack] at h
  simp only [Guard.text, Resolution.plain, texts, List.append_assoc,
    List.append_cancel_left_eq] at h
  exact OutcomeKind.alike_of_text_eq name hx.referent hy.referent h

namespace Context

theorem pairwise_append_overrun {a : Access} {inside : List Outcome}
    (differ : inside.Pairwise fun x y => x.canonical ≠ y.canonical)
    (named : ∀ o ∈ inside, o.kind.name ≠ "OutOfBounds") :
    (inside ++ overrun a).Pairwise fun x y => x.canonical ≠ y.canonical := by
  refine List.pairwise_append.mpr ⟨differ, pairwise_overrun a _, ?_⟩
  intro o member p outside same
  have name := (Outcome.head_of_canonical_eq same).2.1
  rw [kind_of_mem_overrun outside] at name
  exact named o member name

section Snapshot

variable {t : ClassTable} {s : HeapSnapshot} {c : Context} (snapshot : c.heap = s.view t)
include snapshot

theorem openReferents_not_alike (r : SymbolicReference) (allowNull : Bool) :
    (c.openReferents r allowNull).Pairwise fun x y => ¬ x.Alike y :=
  (openReferents_ascending snapshot r allowNull).imp Referent.Precedes.not_alike

theorem forms_differ_of_mapM {a : Access} {r : SymbolicReference} {allowNull : Bool}
    {each : List Outcome} (run : (c.resolutions r allowNull).mapM (c.outcomeOn a) = .ok each) :
    each.Pairwise fun x y => x.canonical ≠ y.canonical := by
  cases settled : c.path.referentOf? r.origin with
  | some referent =>
    rw [resolutions, settled] at run
    exact pairwise_of_mapM (R := fun _ _ => False) (fun _ _ _ _ => False.elim)
      (List.pairwise_singleton ..) run
  | none =>
    have apart : (c.resolutions r allowNull).Pairwise fun s s' => ∃ x y,
        s = .plain r.origin x ∧ s' = .plain r.origin y ∧ ¬ x.Alike y := by
      rw [resolutions, settled]
      exact (openReferents_not_alike snapshot r allowNull).map _ fun x y h => ⟨x, y, rfl, rfl, h⟩
    refine pairwise_of_mapM ?_ apart run
    rintro _ _ o p ⟨x, y, rfl, rfl, differ⟩ first second same
    exact differ (Outcome.alike_of_canonical_eq (isOn_of_outcomeOn first)
      (isOn_of_outcomeOn second) same)

theorem forms_differ {a : Access} {outcomes : List Outcome} (found : c.outcomes a = .ok outcomes) :
    outcomes.Pairwise fun x y => x.canonical ≠ y.canonical := by
  obtain ⟨_, resolved, _⟩ := bind_eq_ok_iff.mp found
  obtain ⟨subject, checked, _⟩ := bind_eq_ok_iff.mp resolved
  cases subject with
  | none =>
    obtain ⟨inside, rfl, _, _, kind⟩ := exists_inside_of_no_subject checked found
    change ([inside] ++ overrun a).Pairwise _
    refine pairwise_append_overrun (List.pairwise_singleton ..) fun o member => ?_
    rw [List.mem_singleton.mp member]
    rcases kind with kind | kind <;> rw [kind] <;> decide
  | some r =>
    obtain ⟨each, run, rfl⟩ := (outcomes_eq_ok_iff checked).mp found
    refine ((arranged_perm a each).pairwise_iff Ne.symm).mpr ?_
    refine pairwise_append_overrun (forms_differ_of_mapM snapshot run) fun o inside => ?_
    obtain ⟨s, _, here⟩ := exists_of_mem_mapM run inside
    exact OutcomeKind.name_ne_outOfBounds (isOn_of_outcomeOn here).referent

/-- The alternatives of an access have pairwise different canonical forms, whatever texts stand for
roots, fields, terms and classes. So where the digest tells these forms apart, no two of them have
the same identity. -/
theorem siblings_told_apart {a : Access} {alternatives : List Alternative}
    (found : c.alternatives a = .ok alternatives) :
    alternatives.Pairwise fun x y => x.canonical ≠ y.canonical ∧
      ((Keccak.digest x.canonical.toUTF8 = Keccak.digest y.canonical.toUTF8 →
          x.canonical = y.canonical) →
        x.identity ≠ y.identity ∧ (x == y) = false) := by
  obtain ⟨outcomes, all, kept⟩ := exists_outcomes_sublist found
  have differ := (forms_differ snapshot all).sublist kept
  refine (List.pairwise_map.mp differ).imp fun {x y} forms => ⟨forms, fun apart => ?_⟩
  have identities : x.identity ≠ y.identity := fun same => forms (apart (Identity.mk.inj same))
  exact ⟨identities, decide_eq_false identities⟩

end Snapshot

theorem siblings_told_apart_borrowed :
    let short : ClassName := ⟨"x"⟩
    let long : ClassName := ⟨"x:Fresh(class=x"⟩
    let root : ClassDecl := { name := .object, superclass := none, isAbstract := true }
    let t := ((ClassTable.empty.insert root).insert (.concrete short .object)).insert
      (.concrete long .object)
    let s : HeapSnapshot := { objects := [⟨short, some (.root "a) (b")⟩] }
    let c : Context :=
      { policy := { feasibilityChecks := false }, heap := s.view t, hierarchy := t.hierarchy
        procedure := .clausal, path := ⟨[]⟩ }
    let receiver : Access := .receiver (.symbolic ⟨.root "r fresh x", .object⟩)
    c.heap = s.view t ∧ ∃ alternatives, c.alternatives receiver = .ok alternatives ∧
      alternatives.map (·.canonical) =
        ["INVOKE_Aliases:\x7bROOT\x7d:r fresh x == Object[0] (\x7bROOT\x7d:a) (b):" ++
          "Aliases(pos=0,origin=\x7bROOT\x7d:a) (b):-",
        "INVOKE_Fresh:\x7bROOT\x7d:r fresh x fresh x:Fresh(class=x):-",
        "INVOKE_Fresh:\x7bROOT\x7d:r fresh x fresh x:Fresh(class=x:Fresh(class=x:Fresh(class=x):-",
        "INVOKE_Null:\x7bROOT\x7d:r fresh x == null:Null:-"] ∧
      alternatives.Pairwise fun x y => x.canonical ≠ y.canonical := by
  intro short long root t s c receiver
  let r : SymbolicReference := ⟨.root "r fresh x", .object⟩
  have referents : c.openReferents r true =
      [.alias 0 (.root "a) (b"), .fresh short, .fresh long, .null] :=
    (openReferents_eq rfl r true).trans (by decide +kernel)
  let resolved (x : Referent) : Outcome :=
    ⟨.invoke, .resolved x, ⟨[.resolves (.root "r fresh x") x]⟩, none⟩
  have found : c.outcomes receiver = .ok ((c.openReferents r true).map resolved) := by
    have known : c.ensureResolvable r = .ok () := by
      rw [ensureResolvable, if_pos (by decide), ensureKnown]
      exact if_pos (by decide +kernel)
    have subject : c.subject? receiver = .ok (some r) :=
      bind_eq_ok_iff.mpr ⟨r, rfl, bind_eq_ok_iff.mpr ⟨(), known, rfl⟩⟩
    rw [outcomes, subjectResolutions_eq subject]
    change Except.ok (((c.openReferents r true).map (Resolution.plain r.origin)).map _) = _
    rw [List.map_map]
    rfl
  have run := alternatives_of_unasked rfl rfl found (by rw [referents]; simp)
  refine ⟨rfl, _, run, ?_, ?_⟩
  · rw [referents]
    decide +kernel
  · exact (siblings_told_apart rfl run).imp fun apart => apart.1

end Context

end DecisionPoints
