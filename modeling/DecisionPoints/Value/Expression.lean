/-!
Integer expressions over literals and unknown terms. Literals are 64-bit; `concrete?` stays inside
that range at every step, and `eval` gives the exact integer under an assignment of the terms.
-/
namespace DecisionPoints

inductive Expression where
  | int (value : Int64)
  | term (name : String)
  | add (left right : Expression)
  | sub (left right : Expression)
deriving DecidableEq, Repr, Inhabited

namespace Expression

def literal? (x : Int) : Option Int64 :=
  if (Int64.ofInt x).toInt = x then some (Int64.ofInt x) else none

theorem literal?_eq_some_iff {x : Int} {n : Int64} : literal? x = some n ↔ n.toInt = x := by
  unfold literal?
  constructor
  · intro h
    split at h
    · cases h; assumption
    · cases h
  · rintro rfl
    simp

def text : Expression → String
  | .int value => toString value.toInt
  | .term name => "\x7b" ++ name ++ "\x7d"
  | .add left right => "(" ++ left.text ++ " + " ++ right.text ++ ")"
  | .sub left right => "(" ++ left.text ++ " - " ++ right.text ++ ")"

instance : ToString Expression := ⟨text⟩

/-- The value of an expression without terms, unless some part of it leaves the 64-bit range. -/
def concrete? : Expression → Option Int64
  | .int value => some value
  | .term _ => none
  | .add left right => do literal? ((← left.concrete?).toInt + (← right.concrete?).toInt)
  | .sub left right => do literal? ((← left.concrete?).toInt - (← right.concrete?).toInt)

def terms : Expression → List String
  | .int _ => []
  | .term name => [name]
  | .add left right | .sub left right => left.terms ++ right.terms

def isTerm : Expression → Bool
  | .term _ => true
  | _ => false

def eval (value : String → Int) : Expression → Int
  | .int n => n.toInt
  | .term name => value name
  | .add left right => left.eval value + right.eval value
  | .sub left right => left.eval value - right.eval value

def order : Expression → Expression → Ordering
  | .int a, .int b => compare a.toInt b.toInt
  | .int _, _ => .lt
  | _, .int _ => .gt
  | .term a, .term b => compare a b
  | .term _, _ => .lt
  | _, .term _ => .gt
  | .add a b, .add c d => (a.order c).then (b.order d)
  | .add _ _, .sub _ _ => .lt
  | .sub _ _, .add _ _ => .gt
  | .sub a b, .sub c d => (a.order c).then (b.order d)

instance : Ord Expression := ⟨order⟩

theorem eval_eq_of_concrete? {e : Expression} {n : Int64} (h : e.concrete? = some n)
    (value : String → Int) : e.eval value = n.toInt := by
  induction e generalizing n with
  | int m => cases h; rfl
  | term name => cases h
  | add l r ihl ihr =>
    simp only [concrete?, Option.bind_eq_bind, Option.bind_eq_some_iff] at h
    obtain ⟨a, ha, b, hb, hn⟩ := h
    rw [eval, ihl ha, ihr hb, literal?_eq_some_iff.mp hn]
  | sub l r ihl ihr =>
    simp only [concrete?, Option.bind_eq_bind, Option.bind_eq_some_iff] at h
    obtain ⟨a, ha, b, hb, hn⟩ := h
    rw [eval, ihl ha, ihr hb, literal?_eq_some_iff.mp hn]

end Expression

end DecisionPoints
