/-!
The records that the library keeps of what it does. Functions that compute results are pure; beside
each of them stands a function that gives the records of the same computation, in order.
-/
namespace DecisionPoints

inductive Level where
  | trace
  | debug
  | warn
deriving DecidableEq, Repr

namespace Level

def text : Level → String
  | .trace => "TRACE"
  | .debug => "DEBUG"
  | .warn => "WARN"

end Level

structure JournalEntry where
  level : Level
  message : String
deriving DecidableEq, Repr

namespace JournalEntry

def text (e : JournalEntry) : String := e.level.text ++ " " ++ e.message

end JournalEntry

abbrev Journal := List JournalEntry

namespace Journal

def trace (message : String) : Journal := [⟨.trace, message⟩]

def debug (message : String) : Journal := [⟨.debug, message⟩]

def warn (message : String) : Journal := [⟨.warn, message⟩]

end Journal

end DecisionPoints
