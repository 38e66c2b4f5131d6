import DecisionPoints.Class.Name

/-!
The classes of the exceptions and errors that the analyzed program raises by itself.
-/
namespace DecisionPoints
namespace ClassName

def arrayIndexOutOfBounds : ClassName := ⟨"java/lang/ArrayIndexOutOfBoundsException"⟩

def arrayStore : ClassName := ⟨"java/lang/ArrayStoreException"⟩

def classCast : ClassName := ⟨"java/lang/ClassCastException"⟩

def nullPointer : ClassName := ⟨"java/lang/NullPointerException"⟩

def noClassDefFound : ClassName := ⟨"java/lang/NoClassDefFoundError"⟩

def noSuchMethod : ClassName := ⟨"java/lang/NoSuchMethodError"⟩

def incompatibleClassChange : ClassName := ⟨"java/lang/IncompatibleClassChangeError"⟩

def abstractMethod : ClassName := ⟨"java/lang/AbstractMethodError"⟩

def unsatisfiedLink : ClassName := ⟨"java/lang/UnsatisfiedLinkError"⟩

end ClassName
end DecisionPoints
