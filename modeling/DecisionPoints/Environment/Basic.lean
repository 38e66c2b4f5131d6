import DecisionPoints.Environment.Property
import DecisionPoints.Text.Document

/-!
The environment that the analyzed program sees. A property without a value is not defined for the
program. A document gives the properties by their keys or, as a list, in their order; their values
are texts or null. No key of a property may repeat, and other keys are passed over with whatever
they hold.
-/
namespace DecisionPoints

structure Environment where
  value? : Property → Option String := fun _ => none

namespace Environment

def set (e : Environment) (p : Property) (value : Option String) : Environment :=
  ⟨fun q => if q = p then value else e.value? q⟩

def properties (e : Environment) : List (String × String) :=
  Property.all.filterMap fun p => (e.value? p).map (p.name, ·)

def isEmpty (e : Environment) : Bool := e.properties.isEmpty

def setting? : Document → Option (Option String)
  | .null => some none
  | .text value => value.string?.map some
  | _ => none

def ofFields? (fields : List (Written × Document)) : Option Environment :=
  read [] {} fields
where
  /-- Adds the fields to `e`, the properties in `seen` having been read. -/
  read (seen : List Property) (e : Environment) :
      List (Written × Document) → Option Environment
    | [] => some e
    | (key, value) :: rest => do
      match Property.ofKey? (← key.string?) with
      | none => read seen e rest
      | some p =>
        if p ∈ seen then none
        read (p :: seen) (e.set p (← setting? value)) rest

def ofItems? (items : List Document) : Option Environment := do
  if Property.all.length < items.length then none
  let settings ← items.mapM setting?
  return (Property.all.zip settings).foldl (fun e (p, value) => e.set p value) {}

def ofDocument? : Document → Option Environment
  | .record fields => ofFields? fields
  | .list items => ofItems? items
  | _ => none

def ofString? (s : String) : Option Environment := (Document.ofString? s).bind ofDocument?

end Environment

end DecisionPoints
