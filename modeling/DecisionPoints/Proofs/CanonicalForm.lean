import DecisionPoints.Alternative.Basic
import DecisionPoints.Proofs.UniqueReading

/-!
Canonical forms. The text from which an identity is computed gives back the outcome, but for the
static type of the value to store: so outcomes that are taken for the same are the same, unless the
digest takes two texts for one.
-/
namespace DecisionPoints

theorem Stops.className {rest : List Char} (h : Stops isClauseChar rest) :
    Stops isClassChar rest :=
  h.mono fun c goes => by simp [isClauseChar, goes]

theorem Stops.expression {rest : List Char} (h : Stops isClauseChar rest) :
    Stops isNumeralChar rest := by
  refine h.mono fun c goes => ?_
  simp only [isNumeralChar, Bool.or_eq_true] at goes
  simp only [isClauseChar, isClassChar, isNameChar, Char.isAlphanum, Bool.or_eq_true]
  tauto

namespace Referent

def isPlain : Referent → Bool
  | .alias _ origin => origin.isPlain
  | .fresh className => className.isPlain
  | .null => true

theorem reads_object {position position' : Nat} {origin origin' : Origin}
    (plain : origin.isPlain = true) (plain' : origin'.isPlain = true) {c : Char}
    (stops : c.isDigit = false) (between : List Char) {s t : List Char}
    (h : (toString position).toList ++ c :: (between ++ (origin.text.toList ++ ')' :: s)) =
      (toString position').toList ++ c :: (between ++ (origin'.text.toList ++ ')' :: t))) :
    position = position' ∧ origin = origin' ∧ s = t := by
  obtain ⟨first, h⟩ := reads_position rfl rfl (Stops.cons stops) (Stops.cons stops) h
  have h := List.append_cancel_left (List.cons.inj h).2
  obtain ⟨second, h⟩ := Origin.reads_text plain plain' (Stops.cons rfl) (Stops.cons rfl) h
  exact ⟨first, second, (List.cons.inj h).2⟩

theorem reads_text : ReadsBack isPlain (fun _ => false) (·.text.toList) := by
  intro x y s t px py _ _ h
  unfold text at h
  rcases x with ⟨position, origin⟩ | className | _
  · rcases y with ⟨position', origin'⟩ | className' | _
    · obtain ⟨rfl, rfl, rest⟩ := reads_object px py (c := ',') rfl "origin=".toList
        (by simpa using h)
      exact ⟨rfl, rest⟩
    · simp at h
    · simp at h
  · rcases y with ⟨position', origin'⟩ | className' | _
    · simp at h
    · have h : className.text.toList ++ ')' :: s = className'.text.toList ++ ')' :: t := by
        simpa using h
      obtain ⟨rfl, rest⟩ := reads_className px py (Stops.cons rfl) (Stops.cons rfl) h
      exact ⟨rfl, (List.cons.inj rest).2⟩
    · simp at h
  · rcases y with ⟨position', origin'⟩ | className' | _
    · simp at h
    · simp at h
    · exact ⟨rfl, List.append_cancel_left h⟩

def verdict : Referent → String
  | .alias position origin => " == Object[" ++ toString position ++ "] (" ++ origin.text ++ ")"
  | .fresh className => " fresh " ++ className.text
  | .null => " == null"

theorem reads_verdict : ReadsBack isPlain isClauseChar (·.verdict.toList) := by
  intro x y s t px py hs ht h
  unfold verdict at h
  rcases x with ⟨position, origin⟩ | className | _
  · rcases y with ⟨position', origin'⟩ | className' | _
    · obtain ⟨rfl, rfl, rest⟩ := reads_object px py (c := ']') rfl " (".toList
        (by simpa using h)
      exact ⟨rfl, rest⟩
    · simp at h
    · simp at h
  · rcases y with ⟨position', origin'⟩ | className' | _
    · simp at h
    · have h : className.text.toList ++ s = className'.text.toList ++ t := by
        simpa using h
      obtain ⟨rfl, rest⟩ := reads_className px py hs.className ht.className h
      exact ⟨rfl, rest⟩
    · simp at h
  · rcases y with ⟨position', origin'⟩ | className' | _
    · simp at h
    · simp at h
    · exact ⟨rfl, List.append_cancel_left h⟩

theorem stops_verdict (r : Referent) (s : List Char) :
    Stops isOriginChar (r.verdict.toList ++ s) := by
  have first : (r.verdict.toList ++ s).head? = some ' ' := by
    unfold verdict
    rcases r with ⟨position, origin⟩ | className | _ <;> simp
  intro c member
  rw [first] at member
  cases member
  rfl

end Referent

namespace Clause

def isPlain : Clause → Bool
  | .resolves reference referent => reference.isPlain && referent.isPlain
  | .inBounds index length | .outOfBounds index length => index.isPlain && length.isPlain

theorem text_resolves (reference : Origin) (referent : Referent) :
    (resolves reference referent).text = reference.text ++ referent.verdict := by
  unfold text Referent.verdict
  rcases referent with ⟨position, origin⟩ | className | _ <;> simp [String.append_assoc]

theorem text_inBounds (index length : Expression) : (inBounds index length).text.toList =
    '0' :: (" <= ".toList ++ index.text.toList ++ " < ".toList ++ length.text.toList) := by
  simp [text]

theorem text_outOfBounds (index length : Expression) : (outOfBounds index length).text.toList =
    '!' :: '(' :: ((inBounds index length).text.toList ++ [')']) := by
  simp [text]

theorem resolves_append_ne {reference : Origin} {referent : Referent} {s rest : List Char}
    {c : Char} (brace : c ≠ '\x7b') (bracket : c ≠ '[') :
    (resolves reference referent).text.toList ++ s ≠ c :: rest := by
  rw [text_resolves, String.toList_append, List.append_assoc]
  exact reference.text_append_ne _ brace bracket rest

theorem reads_bounds {index length index' length' : Expression}
    (plain : (index.isPlain && length.isPlain) = true)
    (plain' : (index'.isPlain && length'.isPlain) = true) {s t : List Char}
    (hs : Stops isNumeralChar s) (ht : Stops isNumeralChar t)
    (h : index.text.toList ++ ' ' :: '<' :: ' ' :: (length.text.toList ++ s) =
      index'.text.toList ++ ' ' :: '<' :: ' ' :: (length'.text.toList ++ t)) :
    index = index' ∧ length = length' ∧ s = t := by
  rw [Bool.and_eq_true] at plain plain'
  obtain ⟨first, h⟩ :=
    Expression.reads_text plain.1 plain'.1 (Stops.cons rfl) (Stops.cons rfl) h
  simp only [List.cons.injEq, true_and] at h
  obtain ⟨second, rest⟩ := Expression.reads_text plain.2 plain'.2 hs ht h
  exact ⟨first, second, rest⟩

theorem reads_text : ReadsBack isPlain isClauseChar (·.text.toList) := by
  intro x y s t px py hs ht h
  cases x with
  | resolves reference referent =>
    cases y with
    | resolves reference' referent' =>
      simp only [isPlain, Bool.and_eq_true] at px py
      simp only [text_resolves, String.toList_append, List.append_assoc] at h
      obtain ⟨rfl, later⟩ :=
        Origin.reads_text px.1 py.1 (referent.stops_verdict s) (referent'.stops_verdict t) h
      obtain ⟨rfl, rest⟩ := Referent.reads_verdict px.2 py.2 hs ht later
      exact ⟨rfl, rest⟩
    | inBounds index length =>
      simp only [text_inBounds, List.cons_append] at h
      exact absurd h (resolves_append_ne (by decide) (by decide))
    | outOfBounds index length =>
      simp only [text_outOfBounds, List.cons_append] at h
      exact absurd h (resolves_append_ne (by decide) (by decide))
  | inBounds index length =>
    cases y with
    | resolves reference referent =>
      simp only [text_inBounds, List.cons_append] at h
      exact absurd h.symm (resolves_append_ne (by decide) (by decide))
    | inBounds index' length' =>
      obtain ⟨rfl, rfl, rest⟩ := reads_bounds px py hs.expression ht.expression
        (by simpa [text] using h)
      exact ⟨rfl, rest⟩
    | outOfBounds index' length' => simp [text] at h
  | outOfBounds index length =>
    cases y with
    | resolves reference referent =>
      simp only [text_outOfBounds, List.cons_append] at h
      exact absurd h.symm (resolves_append_ne (by decide) (by decide))
    | inBounds index' length' => simp [text] at h
    | outOfBounds index' length' =>
      have h : index.text.toList ++ ' ' :: '<' :: ' ' :: (length.text.toList ++ ')' :: s) =
          index'.text.toList ++ ' ' :: '<' :: ' ' :: (length'.text.toList ++ ')' :: t) := by
        simpa [text] using h
      obtain ⟨rfl, rfl, rest⟩ := reads_bounds px py (Stops.cons rfl) (Stops.cons rfl) h
      exact ⟨rfl, (List.cons.inj rest).2⟩

theorem text_append_ne (x : Clause) (s rest : List Char) : x.text.toList ++ s ≠ 't' :: rest := by
  match x with
  | .resolves reference referent => exact resolves_append_ne (by decide) (by decide)
  | .inBounds index length => simp [text]
  | .outOfBounds index length => simp [text]

def linked (x : Clause) : List Char := " && ".toList ++ x.text.toList

theorem toList_conjunctionText (first : Clause) (rest : List Clause) :
    (conjunctionText (first :: rest)).toList = first.text.toList ++ rest.flatMap linked := by
  induction rest generalizing first with
  | nil => simp [conjunctionText]
  | cons next rest ih =>
    have split : conjunctionText (first :: next :: rest) =
        first.text ++ " && " ++ conjunctionText (next :: rest) := String.intercalate_cons_cons
    rw [split, String.toList_append, String.toList_append, ih, List.flatMap_cons, linked]
    simp only [List.append_assoc]

theorem reads_linked : ReadsBack isPlain isClauseChar linked := by
  intro x y s t px py hs ht h
  simp only [linked, List.append_assoc] at h
  exact reads_text px py hs ht (List.append_cancel_left h)

theorem linked_begins (x : Clause) : ∃ c rest,
    x.linked = c :: rest ∧ (c = ' ' : Bool) = true ∧ isClauseChar c = false :=
  ⟨' ', '&' :: '&' :: ' ' :: x.text.toList, rfl, rfl, rfl⟩

end Clause

namespace Guard

def isPlain (g : Guard) : Bool := g.clauses.all Clause.isPlain

theorem reads_text :
    ReadsBack isPlain (fun c => isClauseChar c || c = ' ') (·.text.toList) := by
  rintro ⟨xs⟩ ⟨ys⟩ s t px py hs ht h
  cases xs with
  | nil =>
    cases ys with
    | nil => exact ⟨rfl, List.append_cancel_left h⟩
    | cons y ys =>
      simp only [text, Clause.toList_conjunctionText, List.append_assoc] at h
      exact absurd h.symm (y.text_append_ne _ _)
  | cons x xs =>
    cases ys with
    | nil =>
      simp only [text, Clause.toList_conjunctionText, List.append_assoc] at h
      exact absurd h (x.text_append_ne _ _)
    | cons y ys =>
      simp only [text, Clause.toList_conjunctionText, List.append_assoc] at h
      simp only [isPlain, List.all_cons, Bool.and_eq_true] at px py
      obtain ⟨rfl, later⟩ := Clause.reads_text px.1 py.1 (hs.flatMap Clause.linked_begins xs)
        (ht.flatMap Clause.linked_begins ys) h
      obtain ⟨rfl, rest⟩ :=
        Clause.reads_linked.sequence Clause.linked_begins px.2 py.2 hs ht later
      exact ⟨rfl, rest⟩

end Guard

namespace OutcomeKind

def isPlain (kind : OutcomeKind) : Bool := kind.referent?.all Referent.isPlain

theorem isPlainName_name (kind : OutcomeKind) : isPlainName kind.name = true := by
  have names : ["Aliases", "Fresh", "Null", "TypeTest", "InBounds", "OutOfBounds",
      "TypeMismatch"].all isPlainName = true := by decide
  refine List.all_eq_true.mp names _ ?_
  cases kind with
  | resolved referent => cases referent <;> simp [name, Referent.kindName]
  | typeTest referent holds => simp [name]
  | inBounds => simp [name]
  | outOfBounds => simp [name]
  | typeMismatch referent => simp [name]

theorem reads_text {x y : OutcomeKind} (same : x.name = y.name) (px : x.isPlain = true)
    (py : y.isPlain = true) {s t : List Char}
    (h : x.text.toList ++ ':' :: s = y.text.toList ++ ':' :: t) : x = y ∧ s = t := by
  unfold text at h
  cases x with
  | resolved r =>
    cases y with
    | resolved r' =>
      obtain ⟨rfl, rest⟩ := Referent.reads_text px py (Stops.cons rfl) (Stops.cons rfl) h
      exact ⟨rfl, (List.cons.inj rest).2⟩
    | _ => cases r <;> simp [name, Referent.kindName] at same
  | typeTest r holds =>
    cases y with
    | resolved r' => cases r' <;> simp [name, Referent.kindName] at same
    | typeTest r' holds' =>
      simp only [String.toList_append, List.append_assoc] at h
      obtain ⟨rfl, tested⟩ := Referent.reads_text px py (fun _ _ => rfl) (fun _ _ => rfl) h
      cases holds <;> cases holds' <;> simp at tested
      · exact ⟨rfl, tested⟩
      · exact ⟨rfl, tested⟩
    | _ => simp [name] at same
  | inBounds =>
    cases y with
    | resolved r' => cases r' <;> simp [name, Referent.kindName] at same
    | inBounds => exact ⟨rfl, by simpa using h⟩
    | _ => simp [name] at same
  | outOfBounds =>
    cases y with
    | resolved r' => cases r' <;> simp [name, Referent.kindName] at same
    | outOfBounds => exact ⟨rfl, by simpa using h⟩
    | _ => simp [name] at same
  | typeMismatch r =>
    cases y with
    | resolved r' => cases r' <;> simp [name, Referent.kindName] at same
    | typeMismatch r' =>
      cases r with
      | none =>
        cases r' with
        | none => exact ⟨rfl, by simpa using h⟩
        | some r' => simp at h
      | some r =>
        cases r' with
        | none => simp at h
        | some r' =>
          have h : r.text.toList ++ ')' :: ':' :: s = r'.text.toList ++ ')' :: ':' :: t := by
            simpa using h
          obtain ⟨rfl, rest⟩ := Referent.reads_text px py (Stops.cons rfl) (Stops.cons rfl) h
          exact ⟨rfl, by simpa using rest⟩
    | _ => simp [name] at same

end OutcomeKind

namespace Family

theorem reads_code {x y : Family} {s t : List Char}
    (h : x.code.toList ++ '_' :: s = y.code.toList ++ '_' :: t) : x = y ∧ s = t := by
  cases x <;> cases y <;> first | exact ⟨rfl, by simpa [code] using h⟩ | simp [code] at h

end Family

namespace WriteBack

def isPlain (w : WriteBack) : Bool := w.slot.isPlain && w.value.origin.isPlain

/-- Where the value is stored and which it is. Its static type is not part of the text. -/
def store (w : WriteBack) : Nat × Slot × Origin := (w.container, w.slot, w.value.origin)

theorem store_eq_of_text_eq {v w : WriteBack} (pv : v.isPlain = true) (pw : w.isPlain = true)
    (h : v.text = w.text) : v.store = w.store := by
  have h : (toString v.container).toList ++
        ']' :: (v.slot.text.toList ++ ' ' :: ':' :: '=' :: ' ' :: v.value.origin.text.toList) =
      (toString w.container).toList ++
        ']' :: (w.slot.text.toList ++ ' ' :: ':' :: '=' :: ' ' :: w.value.origin.text.toList) := by
    simpa [text] using congrArg String.toList h
  rw [isPlain, Bool.and_eq_true] at pv pw
  obtain ⟨container, h⟩ := reads_position rfl rfl (Stops.cons rfl) (Stops.cons rfl) h
  obtain ⟨slot, h⟩ := Slot.reads_text pv.1 pw.1 (Stops.cons rfl) (Stops.cons rfl)
    (List.cons.inj h).2
  simp only [List.cons.injEq, true_and] at h
  rw [← List.append_nil v.value.origin.text.toList, ← List.append_nil w.value.origin.text.toList]
    at h
  obtain ⟨origin, _⟩ := Origin.reads_text pv.2 pw.2 Stops.nil Stops.nil h
  rw [store, store, container, slot, origin]

end WriteBack

namespace Outcome

/-- Whether no name in the text of an outcome holds a character of the fixed parts. -/
def isPlain (o : Outcome) : Bool :=
  o.kind.isPlain && o.guard.isPlain && o.writeBack.all WriteBack.isPlain

/-- Whether two outcomes are the same but for the static type of the value to store. -/
structure Same (a b : Outcome) : Prop where
  family : a.family = b.family
  kind : a.kind = b.kind
  guard : a.guard = b.guard
  writeBack : a.writeBack.map (·.store) = b.writeBack.map (·.store)

def stored (writeBack : Option WriteBack) : String :=
  match writeBack with
  | some w => w.text
  | none => "-"

theorem store_eq_of_stored_eq {v w : Option WriteBack} (pv : v.all WriteBack.isPlain = true)
    (pw : w.all WriteBack.isPlain = true) (h : stored v = stored w) :
    v.map (·.store) = w.map (·.store) := by
  have differ (w : WriteBack) : stored none ≠ stored (some w) := by
    intro same
    have same := congrArg String.toList same
    simp [stored, WriteBack.text] at same
  cases v with
  | none =>
    cases w with
    | none => rfl
    | some w => exact absurd h (differ w)
  | some v =>
    cases w with
    | none => exact absurd h.symm (differ v)
    | some w => exact congrArg some (WriteBack.store_eq_of_text_eq pv pw h)

theorem toList_canonical (o : Outcome) : o.canonical.toList =
    o.family.code.toList ++ '_' :: (o.kind.name.toList ++ ':' :: (o.guard.text.toList ++
      ':' :: (o.kind.text.toList ++ ':' :: (stored o.writeBack).toList))) := by
  have parts : o.canonical = o.family.code ++ "_" ++ o.kind.name ++ ":" ++ o.guard.text ++ ":" ++
      o.kind.text ++ ":" ++ stored o.writeBack := rfl
  rw [parts]
  simp

theorem head_of_canonical_eq {a b : Outcome} (h : a.canonical = b.canonical) :
    a.family = b.family ∧ a.kind.name = b.kind.name ∧
      a.guard.text.toList ++ ':' :: (a.kind.text.toList ++ ':' :: (stored a.writeBack).toList) =
        b.guard.text.toList ++ ':' ::
          (b.kind.text.toList ++ ':' :: (stored b.writeBack).toList) := by
  have h := congrArg String.toList h
  rw [toList_canonical, toList_canonical] at h
  obtain ⟨family, h⟩ := Family.reads_code h
  obtain ⟨name, h⟩ := reads_name a.kind.isPlainName_name b.kind.isPlainName_name
    (Stops.cons rfl) (Stops.cons rfl) h
  exact ⟨family, name, (List.cons.inj h).2⟩

theorem same_of_canonical_eq {a b : Outcome} (pa : a.isPlain = true) (pb : b.isPlain = true)
    (h : a.canonical = b.canonical) : a.Same b := by
  simp only [isPlain, Bool.and_eq_true] at pa pb
  -- The parts are read off from the left, and each leaves the text of the next ones.
  obtain ⟨family, name, h⟩ := head_of_canonical_eq h
  obtain ⟨guard, h⟩ := Guard.reads_text pa.1.2 pb.1.2 (Stops.cons rfl) (Stops.cons rfl) h
  obtain ⟨kind, h⟩ := OutcomeKind.reads_text name pa.1.1 pb.1.1 (List.cons.inj h).2
  exact ⟨family, kind, guard, store_eq_of_stored_eq pa.2 pb.2 (String.toList_inj.mp h)⟩

end Outcome

namespace Alternative

/-- The canonical form says which outcome an alternative stands for, under which guard. So where the
digest tells the two texts apart, alternatives that compare equal stand for the same outcome. -/
theorem canonical_unambiguous {a b : Alternative} (pa : a.isPlain = true) (pb : b.isPlain = true) :
    (a.canonical = b.canonical → a.Same b.toOutcome) ∧
      ((Keccak.digest a.canonical.toUTF8 = Keccak.digest b.canonical.toUTF8 →
          a.canonical = b.canonical) →
        (a == b) = true → a.Same b.toOutcome) := by
  refine ⟨Outcome.same_of_canonical_eq pa pb, ?_⟩
  intro apart equal
  have identity : a.identity = b.identity := of_decide_eq_true equal
  exact Outcome.same_of_canonical_eq pa pb (apart (Identity.mk.inj identity))

theorem canonical_unambiguous_load :
    let load (staticType : ClassName) (branch : Nat) : Alternative :=
      { family := .arrayLoad
        kind := .resolved (.fresh .object)
        guard := ⟨[.inBounds (.term "i") (.sub (.term "n") (.int 1)),
          .resolves (.element (.root "a$0") (.term "i")) (.fresh .object)]⟩
        writeBack :=
          some ⟨4, .element (.term "i"), ⟨.element (.root "a$0") (.term "i"), staticType⟩⟩
        branch }
    let a := load .object 1
    let b := load .cloneable 2
    a.isPlain = true ∧ b.isPlain = true ∧ a.canonical = b.canonical ∧ (a == b) = true ∧
      a.Same b.toOutcome := by
  intro load a b
  have pa : a.isPlain = true := by decide
  have pb : b.isPlain = true := by decide
  have same : a.canonical = b.canonical := rfl
  have equal : (a == b) = true := decide_eq_true (congrArg Identity.ofCanonical same)
  exact ⟨pa, pb, same, equal, (canonical_unambiguous pa pb).2 (fun _ => same) equal⟩

end Alternative

end DecisionPoints
