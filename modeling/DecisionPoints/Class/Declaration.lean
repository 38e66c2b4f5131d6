import DecisionPoints.Class.Member

/-!
The declaration of a class or an interface. The classes it names need not be loaded, and the flags
are independent: an interface is usually abstract, but nothing requires it.
-/
namespace DecisionPoints

structure ClassDecl where
  name : ClassName
  superclass : Option ClassName
  interfaces : List ClassName := []
  isInterface : Bool := false
  isAbstract : Bool := false
  methods : List Method := []
deriving DecidableEq, Repr, Inhabited

namespace ClassDecl

def concrete (name superclass : ClassName) : ClassDecl := { name, superclass := some superclass }

def interface (name : ClassName) : ClassDecl :=
  { name, superclass := some .object, isInterface := true, isAbstract := true }

def method? (d : ClassDecl) (name descriptor : String) : Option Method :=
  d.methods.find? fun m => m.name == name && m.descriptor == descriptor

def isInstantiable (d : ClassDecl) : Bool := !d.isInterface && !d.isAbstract

end ClassDecl

end DecisionPoints
