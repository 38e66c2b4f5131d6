import DecisionPoints.Class.Member
import DecisionPoints.Class.Raised

/-!
Invocations as dispatch sees them. A request that lacks what its discipline needs is an error of
the caller; an invocation that can execute no method is a failure, which belongs to the analyzed
program.
-/
namespace DecisionPoints

inductive Discipline where
  /-- The resolved method itself. -/
  | static
  /-- A method of the named class or of a superclass of the invoking one. -/
  | special
  /-- A method of the receiver's class. -/
  | virtual
  /-- A method of the receiver's class, which must implement the named interface. -/
  | interface
deriving DecidableEq, Repr

namespace Discipline

def text : Discipline → String
  | .static => "static"
  | .special => "special"
  | .virtual => "virtual"
  | .interface => "interface"

def usesReceiver : Discipline → Bool
  | .virtual | .interface => true
  | .static | .special => false

end Discipline

inductive DispatchError where
  | specialAndStatic
  | staticInterface
  | specialInterface
  | missingInvokingClass
  | missingReceiverType (owner : ClassName)
deriving DecidableEq, Repr

namespace DispatchError

def message : DispatchError → String
  | .specialAndStatic => "An invocation cannot be both special and static"
  | .staticInterface => "An invocation cannot be both static and through invokeinterface"
  | .specialInterface => "An invocation cannot be both special and through invokeinterface"
  | .missingInvokingClass => "Special dispatch requires the class of the invoking method"
  | .missingReceiverType owner =>
    s!"Dispatch through {owner} requires the dynamic type of the receiver"

instance : ToString DispatchError := ⟨message⟩

end DispatchError

/-- The kind of an invocation instruction by its three flags, of which at most one is set. They say
nothing about the class of the method that the instruction names. -/
structure InvocationFlags where
  isInterface : Bool := false
  isSpecial : Bool := false
  isStatic : Bool := false
deriving DecidableEq, Repr

def InvocationFlags.discipline (f : InvocationFlags) : Except DispatchError Discipline :=
  match f.isInterface, f.isSpecial, f.isStatic with
  | _, true, true => .error .specialAndStatic
  | true, false, true => .error .staticInterface
  | true, true, false => .error .specialInterface
  | false, false, true => .ok .static
  | false, true, false => .ok .special
  | true, false, false => .ok .interface
  | false, false, false => .ok .virtual

structure Request where
  method : Signature
  isInterfaceMethod : Bool
  invokingClass : Option ClassName := none
  receiverType : Option ClassName := none
deriving DecidableEq, Repr

structure DeclaredMethod where
  owner : ClassName
  method : Method
deriving DecidableEq, Repr

namespace DeclaredMethod

def signature (m : DeclaredMethod) : Signature := ⟨m.owner, m.method.descriptor, m.method.name⟩

def flags (m : DeclaredMethod) : MethodFlags := m.method.flags

def text (m : DeclaredMethod) : String := m.signature.text

end DeclaredMethod

inductive DispatchFailure where
  | noClassDefFound (className : ClassName)
  | noSuchMethod (method : Signature)
  | incompatibleClassChange (method : Signature)
  | ambiguousDefault (method : Signature) (candidates : List ClassName)
  | abstractMethod (method : Signature)
  | unresolvedNative (method : Signature)
deriving DecidableEq, Repr

namespace DispatchFailure

def errorClass : DispatchFailure → ClassName
  | .noClassDefFound _ => .noClassDefFound
  | .noSuchMethod _ => .noSuchMethod
  | .incompatibleClassChange _ | .ambiguousDefault .. => .incompatibleClassChange
  | .abstractMethod _ => .abstractMethod
  | .unresolvedNative _ => .unsatisfiedLink

def text : DispatchFailure → String
  | .noClassDefFound className => s!"Class {className} is not loaded"
  | .noSuchMethod method => s!"No method matches {method}"
  | .incompatibleClassChange method => s!"The invocation is incompatible with {method}"
  | .ambiguousDefault method candidates =>
    s!"Default methods for {method} conflict in " ++
      ", ".intercalate (candidates.map ClassName.text)
  | .abstractMethod method => s!"Method {method} is abstract"
  | .unresolvedNative method => s!"Native method {method} has no implementation"

instance : ToString DispatchFailure := ⟨text⟩

end DispatchFailure

end DecisionPoints
