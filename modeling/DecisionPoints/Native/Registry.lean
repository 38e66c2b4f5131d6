import DecisionPoints.Class.Member
import DecisionPoints.Environment.Basic
import DecisionPoints.Journal
import DecisionPoints.Keyed
import DecisionPoints.Native.Override

/-!
The registry of overrides by signature, and the overrides that every analysis starts with.
-/
namespace DecisionPoints

structure Registry where
  overrides : Keyed Signature Override := {}

namespace Registry

def size (r : Registry) : Nat := r.overrides.size

def isEmpty (r : Registry) : Bool := r.overrides.isEmpty

def register (r : Registry) (method : Signature) (override : Override) : Registry :=
  ⟨r.overrides.insert method override⟩

def isOverridden (r : Registry) (method : Signature) : Bool := r.overrides.contains method

def invoke? (r : Registry) (method : Signature) (call : NativeCall) : Option NativeOutcome :=
  (r.overrides.get? method).map (· call)

def invokeJournal (r : Registry) (method : Signature) : Journal :=
  if r.isOverridden method then Journal.trace s!"Running the override of native method {method}"
  else []

def signatures (r : Registry) : List Signature :=
  r.overrides.keys.mergeSort fun a b => (compare a b).isLE

def vendor : String := "decision-engine"

def vendorPage : String := "https://crates.io/crates/" ++ vendor

def fixedProperties : List (String × String) :=
  [("java.specification.version", "1.8"),
   ("java.specification.name", "Java Platform API Specification"),
   ("java.specification.vendor", "Oracle Corporation"),
   ("java.version", "1.8.0_144"),
   ("java.vendor", vendor),
   ("java.vendor.url", vendorPage),
   ("java.vendor.url.bug", vendorPage),
   ("java.class.version", "52.0"),
   ("file.encoding.pkg", "sun.io")]

def standard (e : Environment) : List (Signature × Override) :=
  [(⟨⟨"java/security/AccessController"⟩,
      "(Ljava/security/PrivilegedExceptionAction;)Ljava/lang/Object;", "doPrivileged"⟩,
    .runFirstArgument true),
   (⟨⟨"java/security/AccessController"⟩,
      "(Ljava/security/PrivilegedAction;)Ljava/lang/Object;", "doPrivileged"⟩,
    .runFirstArgument false),
   (⟨⟨"java/security/AccessController"⟩, "()Ljava/security/AccessControlContext;",
      "getStackAccessControlContext"⟩, .constant .null),
   (⟨⟨"java/util/concurrent/atomic/AtomicLong"⟩, "()Z", "VMSupportsCS8"⟩,
    .constant (.boolean true)),
   (⟨⟨"java/lang/Class"⟩, "(Ljava/lang/Class;)Z", "desiredAssertionStatus0"⟩,
    .constant (.boolean false)),
   (⟨⟨"java/lang/System"⟩, "(Ljava/util/Properties;)Ljava/util/Properties;", "initProperties"⟩,
    .constant (.properties (fixedProperties ++ e.properties))),
   (⟨⟨"java/lang/Thread"⟩, "()Z", "isAlive"⟩, .isCurrentThread),
   (⟨⟨"jbse/meta/Analysis"⟩, "()Z", "isRunByJBSE"⟩, .constant (.boolean true)),
   (⟨⟨"sun/misc/Unsafe"⟩, "()I", "addressSize"⟩, .constant (.int 8)),
   (⟨⟨"sun/misc/Unsafe"⟩, "(Ljava/lang/Class;)I", "arrayBaseOffset"⟩, .constant (.int 0)),
   (⟨⟨"sun/misc/Unsafe"⟩, "(Ljava/lang/Class;)I", "arrayIndexScale"⟩, .constant (.int 1))]

def ofEnvironment (e : Environment) : Registry :=
  (standard e).foldl (fun r (method, override) => r.register method override) {}

end Registry

end DecisionPoints
