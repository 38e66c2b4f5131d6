import DecisionPoints.Alternative.Outcome
import DecisionPoints.Proofs.PathName

/-!
Unique reading. The texts of expressions and origins put names and numbers between fixed parts, and
nothing is escaped. Where no name holds a character of the fixed parts, each text is still read from
the left in one way only, as long as what follows it does not go on with a name or a number.
-/
namespace DecisionPoints

/-- Whether what follows a text begins with none of the characters that would go on with it. -/
def Stops (more : Char → Bool) (rest : List Char) : Prop := ∀ c ∈ rest.head?, more c = false

namespace Stops

variable {more : Char → Bool}

theorem nil : Stops more [] := nofun

theorem cons {c : Char} {rest : List Char} (h : more c = false) : Stops more (c :: rest) := by
  intro d first
  cases first
  exact h

theorem mono {fewer : Char → Bool} {rest : List Char} (h : Stops more rest)
    (weaker : ∀ c, fewer c = true → more c = true) : Stops fewer rest := by
  intro c first
  have stop := h c first
  by_contra goes
  rw [Bool.not_eq_false] at goes
  rw [weaker c goes] at stop
  cases stop

theorem flatMap {α : Type} {text : α → List Char} {opens : Char → Bool} {s : List Char}
    (h : Stops (fun c => more c || opens c) s)
    (begins : ∀ x, ∃ c rest, text x = c :: rest ∧ opens c = true ∧ more c = false) (xs : List α) :
    Stops more (xs.flatMap text ++ s) := by
  cases xs with
  | nil => exact h.mono fun c goes => by simp [goes]
  | cons x xs =>
    obtain ⟨c, rest, first, _, stops⟩ := begins x
    rw [List.flatMap_cons, first]
    exact cons stops

end Stops

/-- Whether the text of a value is told apart from those of the plain values at the front of longer
texts that stop after it: the value and what follows it are then both known. -/
def ToldApart {α : Type} (plain : α → Bool) (more : Char → Bool) (text : α → List Char) (x : α) :
    Prop :=
  ∀ ⦃y : α⦄ ⦃s t : List Char⦄, plain x = true → plain y = true → Stops more s → Stops more t →
    text x ++ s = text y ++ t → x = y ∧ s = t

def ReadsBack {α : Type} (plain : α → Bool) (more : Char → Bool) (text : α → List Char) : Prop :=
  ∀ ⦃x : α⦄, ToldApart plain more text x

namespace ReadsBack

variable {α : Type} {plain : α → Bool} {more : Char → Bool} {text : α → List Char}

theorem of_injective (within : ∀ x, plain x = true → ∀ c ∈ text x, more c = true)
    (injective : ∀ x y, text x = text y → x = y) : ReadsBack plain more text := by
  have front {x : α} {s : List Char} (px : plain x = true) (hs : Stops more s) :
      (text x ++ s).takeWhile more = text x := by
    rw [List.takeWhile_append_of_pos (within x px)]
    cases s with
    | nil => simp
    | cons c cs => simp [hs c rfl]
  intro x y s t px py hs ht h
  have same : text x = text y := by
    rw [← front px hs, h, front py ht]
  exact ⟨injective x y same, List.append_cancel_left (same ▸ h)⟩

/-- Values are read off one after another, if each text begins with a character that cannot go on
with the one before. -/
theorem sequence {opens : Char → Bool} (reads : ReadsBack plain more text)
    (begins : ∀ x, ∃ c rest, text x = c :: rest ∧ opens c = true ∧ more c = false) :
    ReadsBack (fun xs : List α => xs.all plain) (fun c => more c || opens c)
      (fun xs => xs.flatMap text) := by
  have unopened {s : List Char} (hs : Stops (fun c => more c || opens c) s) (x : α)
      (rest : List Char) : s ≠ text x ++ rest := by
    rintro rfl
    obtain ⟨c, cs, first, opening, _⟩ := begins x
    have stop := hs c (by rw [first]; rfl)
    simp [opening] at stop
  intro xs
  induction xs with
  | nil =>
    intro ys s t _ _ hs _ h
    cases ys with
    | nil => exact ⟨rfl, h⟩
    | cons y ys =>
      simp only [List.flatMap_cons, List.append_assoc] at h
      exact absurd h (unopened hs y _)
  | cons x xs ih =>
    intro ys s t px py hs ht h
    cases ys with
    | nil =>
      simp only [List.flatMap_cons, List.append_assoc] at h
      exact absurd h.symm (unopened ht x _)
    | cons y ys =>
      simp only [List.flatMap_cons, List.append_assoc] at h
      simp only [List.all_cons, Bool.and_eq_true] at px py
      obtain ⟨rfl, later⟩ := reads px.1 py.1 (hs.flatMap begins xs) (ht.flatMap begins ys) h
      obtain ⟨rfl, rest⟩ := ih px.2 py.2 hs ht later
      exact ⟨rfl, rest⟩

end ReadsBack

def isNameChar (c : Char) : Bool := c.isAlphanum || c = '_' || c = '$' || 127 < c.toNat

def isClassChar (c : Char) : Bool := isNameChar c || c = '/' || c = '[' || c = ';'

def isNumeralChar (c : Char) : Bool := c.isDigit || c = '-'

def isOriginChar (c : Char) : Bool := isNameChar c || (c = '.' || c = '[')

def isClauseChar (c : Char) : Bool := isClassChar c || c = '.' || c = '-'

def isPlainName (name : String) : Bool := name.toList.all isNameChar

def ClassName.isPlain (n : ClassName) : Bool := n.text.toList.all isClassChar

theorem reads_name : ReadsBack isPlainName isNameChar String.toList :=
  .of_injective (fun _ plain => List.all_eq_true.mp plain) fun _ _ => String.toList_inj.mp

theorem reads_className : ReadsBack ClassName.isPlain isClassChar (·.text.toList) := by
  refine .of_injective (fun _ plain => List.all_eq_true.mp plain) ?_
  rintro ⟨a⟩ ⟨b⟩ same
  exact congrArg ClassName.mk (String.toList_inj.mp same)

theorem toList_toString_nat (n : Nat) : (toString n).toList = Nat.toDigits 10 n := by
  rw [Nat.toString_eq_repr, Nat.toList_repr]

theorem reads_position :
    ReadsBack (fun _ => true) Char.isDigit fun n : Nat => (toString n).toList := by
  refine .of_injective (fun n _ c member => ?_) fun m n same => ?_
  · rw [toList_toString_nat] at member
    exact Path.isDigit_of_mem_digits member
  · rw [toList_toString_nat, toList_toString_nat] at same
    exact Path.digits_injective same

theorem toList_toString_int (i : Int) :
    (toString i).toList = if i < 0 then '-' :: Nat.toDigits 10 i.natAbs
      else Nat.toDigits 10 i.natAbs := by
  cases i with
  | ofNat n => exact toList_toString_nat n
  | negSucc n =>
    rw [if_pos (Int.negSucc_lt_zero n)]
    simp [Int.toString_eq_repr, Int.repr, Nat.toList_repr]

theorem isNumeralChar_of_mem {i : Int} {c : Char} (member : c ∈ (toString i).toList) :
    isNumeralChar c = true := by
  rw [toList_toString_int] at member
  split at member
  · rcases List.mem_cons.mp member with rfl | member
    · decide
    · simp [isNumeralChar, Path.isDigit_of_mem_digits member]
  · simp [isNumeralChar, Path.isDigit_of_mem_digits member]

theorem toString_int_injective {i j : Int} (same : (toString i).toList = (toString j).toList) :
    i = j := by
  have unsigned (m : Nat) (rest : List Char) : Nat.toDigits 10 m ≠ '-' :: rest := by
    intro signed
    have digit : '-'.isDigit = true :=
      Path.isDigit_of_mem_digits (by rw [signed]; exact List.mem_cons_self)
    exact absurd digit (by decide)
  rw [toList_toString_int, toList_toString_int] at same
  split at same
  · split at same
    · have := Path.digits_injective (List.cons.inj same).2
      omega
    · exact absurd same.symm (unsigned _ _)
  · split at same
    · exact absurd same (unsigned _ _)
    · have := Path.digits_injective same
      omega

theorem reads_literal :
    ReadsBack (fun _ => true) isNumeralChar fun v : Int64 => (toString v.toInt).toList :=
  .of_injective (fun _ _ _ => isNumeralChar_of_mem) fun _ _ same =>
    Int64.toInt_inj.mp (toString_int_injective same)

namespace Expression

def isPlain (e : Expression) : Bool := e.terms.all isPlainName

theorem literal_ne {v : Int64} {c : Char} (h : isNumeralChar c = false) (s rest : List Char) :
    (toString v.toInt).toList ++ s ≠ c :: rest := by
  intro same
  cases shape : (toString v.toInt).toList with
  | nil =>
    rw [toList_toString_int] at shape
    split at shape
    · cases shape
    · exact Nat.toDigits_ne_nil shape
  | cons d ds =>
    have numeral : isNumeralChar d = true :=
      isNumeralChar_of_mem (by rw [shape]; exact List.mem_cons_self)
    rw [shape, List.cons_append] at same
    rw [(List.cons.inj same).1, h] at numeral
    cases numeral

theorem isPlain_term (name : String) : (term name).isPlain = isPlainName name := by
  simp [isPlain, terms]

theorem isPlain_operands {l r : Expression} (h : (l.terms ++ r.terms).all isPlainName = true) :
    l.isPlain = true ∧ r.isPlain = true := by
  rw [List.all_append, Bool.and_eq_true] at h
  exact h

theorem reads_operation {l r : Expression}
    (left : ToldApart isPlain isNumeralChar (·.text.toList) l)
    (right : ToldApart isPlain isNumeralChar (·.text.toList) r) {l' r' : Expression}
    (plain : l.isPlain = true ∧ r.isPlain = true)
    (plain' : l'.isPlain = true ∧ r'.isPlain = true) (op op' : Char) {s t : List Char}
    (h : l.text.toList ++ ' ' :: op :: ' ' :: (r.text.toList ++ ')' :: s) =
      l'.text.toList ++ ' ' :: op' :: ' ' :: (r'.text.toList ++ ')' :: t)) :
    l = l' ∧ op = op' ∧ r = r' ∧ s = t := by
  obtain ⟨first, h⟩ := left plain.1 plain'.1 (Stops.cons rfl) (Stops.cons rfl) h
  simp only [List.cons.injEq, true_and] at h
  obtain ⟨operator, h⟩ := h
  obtain ⟨second, h⟩ := right plain.2 plain'.2 (Stops.cons rfl) (Stops.cons rfl) h
  exact ⟨first, operator, second, (List.cons.inj h).2⟩

theorem reads_text : ReadsBack isPlain isNumeralChar (·.text.toList) := by
  intro x
  induction x with
  | int v =>
    intro y s t _ _ hs ht h
    cases y with
    | int w =>
      obtain ⟨rfl, rest⟩ := reads_literal rfl rfl hs ht h
      exact ⟨rfl, rest⟩
    | term name =>
      simp only [text, String.toList_append] at h
      exact absurd h (literal_ne (c := '\x7b') rfl s _)
    | add l r | sub l r =>
      simp only [text, String.toList_append] at h
      exact absurd h (literal_ne (c := '(') rfl s _)
  | term name =>
    intro y s t px py hs ht h
    cases y with
    | int w =>
      simp only [text, String.toList_append] at h
      exact absurd h.symm (literal_ne (c := '\x7b') rfl t _)
    | term other =>
      have h : name.toList ++ '\x7d' :: s = other.toList ++ '\x7d' :: t := by simpa [text] using h
      rw [isPlain_term] at px py
      obtain ⟨rfl, rest⟩ := reads_name px py (Stops.cons rfl) (Stops.cons rfl) h
      exact ⟨rfl, (List.cons.inj rest).2⟩
    | add l r | sub l r => simp [text] at h
  | add l r ihl ihr =>
    intro y s t px py hs ht h
    have px := isPlain_operands px
    cases y with
    | int w =>
      simp only [text, String.toList_append] at h
      exact absurd h.symm (literal_ne (c := '(') rfl t _)
    | term other => simp [text] at h
    | add l' r' =>
      obtain ⟨rfl, _, rfl, rest⟩ := reads_operation ihl ihr px (isPlain_operands py) '+' '+'
        (by simpa [text] using h)
      exact ⟨rfl, rest⟩
    | sub l' r' =>
      obtain ⟨_, operator, _⟩ := reads_operation ihl ihr px (isPlain_operands py) '+' '-'
        (by simpa [text] using h)
      exact absurd operator (by decide)
  | sub l r ihl ihr =>
    intro y s t px py hs ht h
    have px := isPlain_operands px
    cases y with
    | int w =>
      simp only [text, String.toList_append] at h
      exact absurd h.symm (literal_ne (c := '(') rfl t _)
    | term other => simp [text] at h
    | add l' r' =>
      obtain ⟨_, operator, _⟩ := reads_operation ihl ihr px (isPlain_operands py) '-' '+'
        (by simpa [text] using h)
      exact absurd operator (by decide)
    | sub l' r' =>
      obtain ⟨rfl, _, rfl, rest⟩ := reads_operation ihl ihr px (isPlain_operands py) '-' '-'
        (by simpa [text] using h)
      exact ⟨rfl, rest⟩

end Expression

namespace Slot

def isPlain : Slot → Bool
  | .field name => isPlainName name
  | .element index => index.isPlain

theorem reads_text : ReadsBack isPlain isNameChar (·.text.toList) := by
  intro x y s t px py hs ht h
  cases x with
  | field name =>
    cases y with
    | field other =>
      have h : name.toList ++ s = other.toList ++ t := by simpa [text] using h
      obtain ⟨rfl, rest⟩ := reads_name px py hs ht h
      exact ⟨rfl, rest⟩
    | element index => simp [text] at h
  | element index =>
    cases y with
    | field name => simp [text] at h
    | element other =>
      have h : index.text.toList ++ ']' :: s = other.text.toList ++ ']' :: t := by
        simpa [text] using h
      obtain ⟨rfl, rest⟩ := Expression.reads_text px py (Stops.cons rfl) (Stops.cons rfl) h
      exact ⟨rfl, (List.cons.inj rest).2⟩

theorem text_begins (x : Slot) : ∃ c rest,
    x.text.toList = c :: rest ∧ (c = '.' || c = '[' : Bool) = true ∧ isNameChar c = false := by
  cases x with
  | field name => exact ⟨'.', name.toList, by simp [text], rfl, rfl⟩
  | element index => exact ⟨'[', index.text.toList ++ [']'], by simp [text], rfl, rfl⟩

end Slot

namespace Origin

def isPlain : Origin → Bool
  | .root name => isPlainName name
  | .staticField owner name => owner.isPlain && isPlainName name
  | .field container name => container.isPlain && isPlainName name
  | .element array index => array.isPlain && index.isPlain

def start : Origin → Origin
  | .field inner _ | .element inner _ => inner.start
  | origin => origin

def slots : Origin → List Slot
  | .field inner name => inner.slots ++ [.field name]
  | .element inner index => inner.slots ++ [.element index]
  | .root _ | .staticField _ _ => []

def through (container : Origin) : Slot → Origin
  | .field name => .field container name
  | .element index => .element container index

theorem foldl_through_slots (o : Origin) : o.slots.foldl through o.start = o := by
  induction o with
  | root name | staticField owner name => rfl
  | field inner name ih | element inner index ih =>
    rw [slots, start, List.foldl_append, ih]
    rfl

theorem toList_text (o : Origin) :
    o.text.toList = o.start.text.toList ++ o.slots.flatMap (·.text.toList) := by
  induction o with
  | root name | staticField owner name => simp [start, slots]
  | field inner name ih | element inner index ih => simp [text, start, slots, Slot.text, ih]

theorem isPlain_start_and_slots {o : Origin} (plain : o.isPlain = true) :
    o.start.isPlain = true ∧ o.slots.all Slot.isPlain = true := by
  induction o with
  | root name | staticField owner name => exact ⟨plain, rfl⟩
  | field inner name ih | element inner index ih =>
    rw [isPlain, Bool.and_eq_true] at plain
    obtain ⟨first, rest⟩ := ih plain.1
    simp [start, slots, first, rest, Slot.isPlain, plain.2]

theorem start_cases (o : Origin) :
    (∃ name, o.start = .root name) ∨ ∃ owner name, o.start = .staticField owner name := by
  induction o with
  | root name => exact .inl ⟨name, rfl⟩
  | staticField owner name => exact .inr ⟨owner, name, rfl⟩
  | field inner name ih | element inner index ih => exact ih

theorem reads_start {x y : Origin} {s t : List Char} (px : x.start.isPlain = true)
    (py : y.start.isPlain = true) (hs : Stops isNameChar s) (ht : Stops isNameChar t)
    (h : x.start.text.toList ++ s = y.start.text.toList ++ t) : x.start = y.start ∧ s = t := by
  rcases x.start_cases with ⟨name, first⟩ | ⟨owner, name, first⟩ <;>
    rcases y.start_cases with ⟨name', second⟩ | ⟨owner', name', second⟩ <;>
    rw [first] at px h ⊢ <;> rw [second] at py h ⊢
  · have h : name.toList ++ s = name'.toList ++ t := by simpa [text] using h
    obtain ⟨rfl, rest⟩ := reads_name px py hs ht h
    exact ⟨rfl, rest⟩
  · simp [text] at h
  · simp [text] at h
  · have h : owner.text.toList ++ ']' :: '.' :: (name.toList ++ s) =
        owner'.text.toList ++ ']' :: '.' :: (name'.toList ++ t) := by simpa [text] using h
    rw [isPlain, Bool.and_eq_true] at px py
    obtain ⟨rfl, named⟩ := reads_className px.1 py.1 (Stops.cons rfl) (Stops.cons rfl) h
    simp only [List.cons.injEq, true_and] at named
    obtain ⟨rfl, rest⟩ := reads_name px.2 py.2 hs ht named
    exact ⟨rfl, rest⟩

theorem reads_text : ReadsBack isPlain isOriginChar (·.text.toList) := by
  intro x y s t px py hs ht h
  -- An origin is built from its end, but read from its start.
  simp only [x.toList_text, y.toList_text, List.append_assoc] at h
  obtain ⟨startX, slotsX⟩ := isPlain_start_and_slots px
  obtain ⟨startY, slotsY⟩ := isPlain_start_and_slots py
  obtain ⟨same, later⟩ := reads_start startX startY (hs.flatMap Slot.text_begins x.slots)
    (ht.flatMap Slot.text_begins y.slots) h
  obtain ⟨slots, rest⟩ :=
    Slot.reads_text.sequence Slot.text_begins slotsX slotsY hs ht later
  refine ⟨?_, rest⟩
  rw [← foldl_through_slots x, same, slots, foldl_through_slots]

-- With a dot in the name, a root has the text of a field.
example : (root "a.b").text = (field (root "a") "b").text := by decide

theorem text_append_ne (o : Origin) (s : List Char) {c : Char} (brace : c ≠ '\x7b')
    (bracket : c ≠ '[') (rest : List Char) : o.text.toList ++ s ≠ c :: rest := by
  intro same
  rw [toList_text] at same
  rcases o.start_cases with ⟨name, first⟩ | ⟨owner, name, first⟩
  · simp [first, text] at same
    exact brace same.1.symm
  · simp [first, text] at same
    exact bracket same.1.symm

end Origin

end DecisionPoints
