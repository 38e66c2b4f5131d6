import DecisionPoints.Value.Reference

/-!
Overrides of native methods: what the interpreter does in place of executing one.
-/
namespace DecisionPoints

structure NativeCall where
  receiver : Option Reference := none
  arguments : List Reference := []
  currentThread : Option Reference := none
deriving DecidableEq, Repr

inductive NativeValue where
  | null
  | boolean (value : Bool)
  | int (value : Int32)
  /-- System properties by name, for the object that the call was given and returns. -/
  | properties (values : List (String × String))
deriving DecidableEq, Repr

inductive NativeOutcome where
  | returned (value : NativeValue)
  /-- Run the action and return its result. Checked exceptions of the action may have to be
  wrapped. -/
  | runAction (action : Reference) (wrapsChecked : Bool)
deriving DecidableEq, Repr

abbrev Override := NativeCall → NativeOutcome

namespace Override

def constant (value : NativeValue) : Override := fun _ => .returned value

def runFirstArgument (wrapsChecked : Bool) : Override :=
  fun call => .runAction (call.arguments.headD .null) wrapsChecked

/-- Whether the receiver is the current thread, the only one that ever runs. -/
def isCurrentThread : Override :=
  fun call =>
    .returned (.boolean (call.receiver.isSome && decide (call.receiver = call.currentThread)))

end Override

end DecisionPoints
