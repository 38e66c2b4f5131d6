/-!
Class names in internal form: `pkg/Node` for a class, `[I` and `[Lpkg/Node;` for arrays. A
primitive type is named by its letter or in full. Any text is a name; nothing checks that it is
well formed, so the operations say what they do with every text.
-/
namespace DecisionPoints

structure ClassName where
  text : String
deriving DecidableEq, Repr, Inhabited

namespace ClassName

instance : ToString ClassName := ⟨ClassName.text⟩

instance : Ord ClassName := ⟨fun a b => compare a.text b.text⟩

instance : LT ClassName := ⟨fun a b => a.text < b.text⟩

instance (a b : ClassName) : Decidable (a < b) :=
  inferInstanceAs (Decidable (a.text < b.text))

theorem lt_trans {a b c : ClassName} (h : a < b) (k : b < c) : a < c := String.lt_trans h k

theorem lt_irrefl (a : ClassName) : ¬ a < a := String.lt_irrefl a.text

def object : ClassName := ⟨"java/lang/Object"⟩

def cloneable : ClassName := ⟨"java/lang/Cloneable"⟩

def serializable : ClassName := ⟨"java/io/Serializable"⟩

def primitiveLetter? (n : ClassName) : Option Char :=
  match n.text with
  | "Z" | "boolean" => some 'Z'
  | "B" | "byte" => some 'B'
  | "C" | "char" => some 'C'
  | "S" | "short" => some 'S'
  | "I" | "int" => some 'I'
  | "J" | "long" => some 'J'
  | "F" | "float" => some 'F'
  | "D" | "double" => some 'D'
  | _ => none

/-- Every name that is not primitive denotes a reference type. -/
def isReference (n : ClassName) : Bool := n.primitiveLetter?.isNone

def isArray (n : ClassName) : Bool := n.text.toList.head? == some '['

def arrayOf (n : ClassName) : ClassName :=
  if n.isArray then ⟨"[" ++ n.text⟩
  else
    match n.primitiveLetter? with
    | some letter => ⟨"[" ++ letter.toString⟩
    | none => ⟨"[L" ++ n.text ++ ";"⟩

def ofDescriptor? (descriptor : String) : Option ClassName :=
  match descriptor.toList with
  | 'L' :: rest =>
    if rest.getLast? = some ';' then some ⟨String.ofList rest.dropLast⟩ else none
  | _ => none

/-- The component type of an array type. What follows the bracket is unwrapped if it is a class
descriptor, and is the component as it stands otherwise. -/
def component? (n : ClassName) : Option ClassName :=
  match n.text.toList with
  | '[' :: rest =>
    let descriptor := String.ofList rest
    some ((ofDescriptor? descriptor).getD ⟨descriptor⟩)
  | _ => none

theorem ofDescriptor?_length_le {d : String} {n : ClassName} (h : ofDescriptor? d = some n) :
    n.text.length ≤ d.length := by
  unfold ofDescriptor? at h
  split at h
  · next rest hd =>
    split at h
    · cases h
      rw [← String.length_toList (s := d), hd]
      simp
      omega
    · cases h
  · cases h

theorem component?_length_lt {n c : ClassName} (h : n.component? = some c) :
    c.text.length < n.text.length := by
  unfold component? at h
  split at h
  · next rest hn =>
    have len : n.text.length = rest.length + 1 := by
      rw [← String.length_toList (s := n.text), hn]; rfl
    cases h
    cases hd : ofDescriptor? (String.ofList rest) with
    | none => simp [len]
    | some m =>
      have := ofDescriptor?_length_le hd
      simp at this ⊢
      omega
  · cases h

end ClassName

end DecisionPoints
