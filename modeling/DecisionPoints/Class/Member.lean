import DecisionPoints.Class.Name

/-!
Members of classes: the symbolic signature by which an instruction names a method or a field, and
the methods that a class declares.
-/
namespace DecisionPoints

structure Signature where
  owner : ClassName
  descriptor : String
  name : String
deriving DecidableEq, Repr, Inhabited

namespace Signature

def text (s : Signature) : String := s.owner.text ++ ":" ++ s.descriptor ++ ":" ++ s.name

instance : ToString Signature := ⟨text⟩

instance : Ord Signature :=
  ⟨fun a b =>
    (compare a.owner b.owner).then <| (compare a.descriptor b.descriptor).then <|
      compare a.name b.name⟩

def inClass (s : Signature) (owner : ClassName) : Signature := { s with owner }

def referenceType? (s : Signature) : Option ClassName :=
  if (ClassName.mk s.descriptor).isArray then some ⟨s.descriptor⟩
  else ClassName.ofDescriptor? s.descriptor

end Signature

structure MethodFlags where
  isStatic : Bool := false
  isAbstract : Bool := false
  isPrivate : Bool := false
  isNative : Bool := false
deriving DecidableEq, Repr, Inhabited

structure Method where
  name : String
  descriptor : String
  flags : MethodFlags := {}
deriving DecidableEq, Repr, Inhabited

end DecisionPoints
