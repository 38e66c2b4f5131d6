import DecisionPoints.Value.Expression

/-!
Concrete values. An expression without terms has one exact value. Evaluation within 64 bits gives
this value, and it does so exactly if every part of the expression stays in the range: a sum that
leaves it is not made good by what is subtracted later.
-/
namespace DecisionPoints
namespace Expression

def operands : Expression → List Expression
  | .int _ | .term _ => []
  | .add left right | .sub left right => [left, right]

inductive HasPart : Expression → Expression → Prop where
  | whole (e : Expression) : HasPart e e
  | within {e operand part : Expression} (direct : operand ∈ e.operands)
    (deeper : operand.HasPart part) : HasPart e part

def IsTermFree (e : Expression) : Prop := ∀ name, ¬ e.HasPart (.term name)

def HasValue (e : Expression) (x : Int) : Prop := ∀ value, e.eval value = x

def InRange (x : Int) : Prop := Int64.minValue.toInt ≤ x ∧ x ≤ Int64.maxValue.toInt

/-- Every subexpression has an exact value, and one of 64 bits. -/
def StaysInRange (e : Expression) : Prop :=
  ∀ part, e.HasPart part → ∃ x, part.HasValue x ∧ InRange x

variable {e l r part : Expression}

theorem inRange_toInt (n : Int64) : InRange n.toInt := ⟨n.minValue_le_toInt, n.toInt_le⟩

theorem exists_literal?_iff {x : Int} : (∃ n, literal? x = some n) ↔ InRange x := by
  constructor
  · intro ⟨n, literal⟩
    exact literal?_eq_some_iff.mp literal ▸ inRange_toInt n
  · intro fits
    rw [InRange, Int64.toInt_minValue, Int64.toInt_maxValue] at fits
    have same : (Int64.ofInt x).toInt = x :=
      Int64.toInt_ofInt_of_le fits.1 (Int.lt_of_le_sub_one fits.2)
    exact ⟨Int64.ofInt x, literal?_eq_some_iff.mpr same⟩

theorem hasPart_iff : e.HasPart part ↔ part = e ∨ ∃ o ∈ e.operands, o.HasPart part := by
  constructor
  · intro h
    cases h with
    | whole => exact .inl rfl
    | within direct deeper => exact .inr ⟨_, direct, deeper⟩
  · rintro (same | ⟨o, direct, deeper⟩)
    · exact same ▸ .whole e
    · exact .within direct deeper

theorem mem_terms_iff {name : String} : name ∈ e.terms ↔ e.HasPart (.term name) := by
  induction e with
  | int n | term other =>
    rw [hasPart_iff]
    simp [terms, operands]
  | add l r ihl ihr | sub l r ihl ihr =>
    rw [hasPart_iff]
    simp [terms, operands, ihl, ihr]

theorem terms_eq_nil_iff : e.terms = [] ↔ e.IsTermFree := by
  rw [List.eq_nil_iff_forall_not_mem]
  exact forall_congr' fun name => not_congr mem_terms_iff

theorem not_hasValue_term (name : String) (x : Int) : ¬ (term name).HasValue x := by
  intro worth
  have zero : (0 : Int) = x := worth fun _ => 0
  have one : (1 : Int) = x := worth fun _ => 1
  omega

theorem StaysInRange.isTermFree (stays : e.StaysInRange) : e.IsTermFree := by
  intro name occurs
  obtain ⟨x, worth, _⟩ := stays _ occurs
  exact not_hasValue_term name x worth

theorem staysInRange_iff : e.StaysInRange ↔
    (∃ x, e.HasValue x ∧ InRange x) ∧ ∀ o ∈ e.operands, o.StaysInRange := by
  constructor
  · intro stays
    exact ⟨stays e (.whole e), fun o direct part deeper => stays part (.within direct deeper)⟩
  · rintro ⟨itself, each⟩ part inside
    rcases hasPart_iff.mp inside with same | ⟨o, direct, deeper⟩
    · exact same ▸ itself
    · exact each o direct part deeper

/-- What a sum and a difference have in common: an operation on the values of two operands, in 64
bits for the concrete value. -/
structure Applies (e : Expression) (op : Int → Int → Int) (l r : Expression) : Prop where
  operands : e.operands = [l, r]
  eval : ∀ value, e.eval value = op (l.eval value) (r.eval value)
  concrete? : e.concrete? =
    l.concrete?.bind fun a => r.concrete?.bind fun b => literal? (op a.toInt b.toInt)

theorem applies_add (l r : Expression) : (add l r).Applies (· + ·) l r :=
  ⟨rfl, fun _ => rfl, rfl⟩

theorem applies_sub (l r : Expression) : (sub l r).Applies (· - ·) l r :=
  ⟨rfl, fun _ => rfl, rfl⟩

theorem Applies.concrete?_eq_some_iff {op : Int → Int → Int} (applies : e.Applies op l r)
    {n : Int64} : e.concrete? = some n ↔
      ∃ a, l.concrete? = some a ∧
        ∃ b, r.concrete? = some b ∧ n.toInt = op a.toInt b.toInt := by
  rw [applies.concrete?]
  simp only [Option.bind_eq_some_iff, literal?_eq_some_iff]

theorem Applies.exists_concrete?_iff {op : Int → Int → Int} (applies : e.Applies op l r)
    (left : (∃ a, l.concrete? = some a) ↔ l.StaysInRange)
    (right : (∃ b, r.concrete? = some b) ↔ r.StaysInRange) :
    (∃ n, e.concrete? = some n) ↔ e.StaysInRange := by
  rw [staysInRange_iff, applies.operands, List.forall_mem_cons, List.forall_mem_singleton,
    ← left, ← right]
  constructor
  · intro ⟨n, found⟩
    obtain ⟨a, ha, b, hb, _⟩ := applies.concrete?_eq_some_iff.mp found
    exact ⟨⟨n.toInt, eval_eq_of_concrete? found, inRange_toInt n⟩, ⟨a, ha⟩, ⟨b, hb⟩⟩
  · intro ⟨⟨x, worth, fits⟩, ⟨a, ha⟩, ⟨b, hb⟩⟩
    obtain ⟨n, literal⟩ := exists_literal?_iff.mpr fits
    -- An exact value is the value under any assignment, so one of them shows what it is.
    have result : x = op a.toInt b.toInt := by
      rw [← worth fun _ => 0, applies.eval, eval_eq_of_concrete? ha, eval_eq_of_concrete? hb]
    have same : n.toInt = op a.toInt b.toInt := (literal?_eq_some_iff.mp literal).trans result
    exact ⟨n, applies.concrete?_eq_some_iff.mpr ⟨a, ha, b, hb, same⟩⟩

theorem exists_concrete?_iff : (∃ n, e.concrete? = some n) ↔ e.StaysInRange := by
  induction e with
  | int n =>
    have stays : (int n).StaysInRange :=
      staysInRange_iff.mpr ⟨⟨n.toInt, fun _ => rfl, inRange_toInt n⟩, nofun⟩
    exact iff_of_true ⟨n, rfl⟩ stays
  | term name =>
    have symbolic : ¬ (term name).StaysInRange := fun stays => stays.isTermFree name (.whole _)
    exact iff_of_false nofun symbolic
  | add l r ihl ihr => exact (applies_add l r).exists_concrete?_iff ihl ihr
  | sub l r ihl ihr => exact (applies_sub l r).exists_concrete?_iff ihl ihr

/-- Evaluation within 64 bits succeeds exactly on the expressions without terms that have no part
out of range, and then gives the exact value. No terms are listed exactly if none occurs. -/
theorem concrete_value_exact (e : Expression) :
    ((∃ n, e.concrete? = some n) ↔ e.IsTermFree ∧ e.StaysInRange) ∧
      (∀ n, e.concrete? = some n → e.HasValue n.toInt) ∧
      (e.terms = [] ↔ e.IsTermFree) := by
  refine ⟨?_, fun n => eval_eq_of_concrete?, terms_eq_nil_iff⟩
  rw [exists_concrete?_iff]
  constructor
  · intro stays
    exact ⟨stays.isTermFree, stays⟩
  · intro ⟨_, stays⟩
    exact stays

example :
    let e : Expression := .sub (.add (.int Int64.maxValue) (.int 1)) (.int 2)
    e.concrete? = none ∧ e.eval (fun _ => 0) = Int64.maxValue.toInt - 1 := by
  decide

end Expression
end DecisionPoints
