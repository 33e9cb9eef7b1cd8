import IntentRouting.Intent.Basic

/-!
# Bundles

A bundle maps names to typed values and remembers the order in which the names were first put:
putting a value under a name again replaces the value where it stands.
-/

namespace IntentRouting.Bundle

def empty : Bundle := ⟨[]⟩

instance : EmptyCollection Bundle := ⟨empty⟩

instance : Inhabited Bundle := ⟨empty⟩

def keys (bundle : Bundle) : List String := bundle.entries.map (·.1)

def size (bundle : Bundle) : Nat := bundle.entries.length

def isEmpty (bundle : Bundle) : Bool := bundle.entries.isEmpty

def get? (bundle : Bundle) (key : String) : Option Value := bundle.entries.lookup key

def contains (bundle : Bundle) (key : String) : Bool := (bundle.get? key).isSome

/-- Replaces the value under a name, or adds the name at the end. -/
def insertEntry (key : String) (value : Value) : List (String × Value) → List (String × Value)
  | [] => [(key, value)]
  | entry :: entries =>
      if entry.1 = key then (key, value) :: entries else entry :: insertEntry key value entries

def insert (bundle : Bundle) (key : String) (value : Value) : Bundle :=
  ⟨insertEntry key value bundle.entries⟩

/-- A bundle without a name; the other entries keep their order. -/
def erase (bundle : Bundle) (key : String) : Bundle :=
  ⟨bundle.entries.filter fun entry => entry.1 != key⟩

/-- The bundle in which entries are put one after the other. -/
def ofList (entries : List (String × Value)) : Bundle :=
  entries.foldl (fun bundle entry => bundle.insert entry.1 entry.2) empty

/-- A bundle with the entries of another one whose names it does not have. -/
def fillMissing (bundle other : Bundle) : Bundle :=
  other.entries.foldl
    (fun bundle entry =>
      if bundle.contains entry.1 then bundle else bundle.insert entry.1 entry.2)
    bundle

def string? (bundle : Bundle) (key : String) : Option String :=
  match bundle.get? key with
  | some (.string value) => some value
  | _ => none

def int? (bundle : Bundle) (key : String) : Option Int32 :=
  match bundle.get? key with
  | some (.int value) => some value
  | _ => none

/-- The number of 64 bits under a name; one of 32 bits is widened. -/
def long? (bundle : Bundle) (key : String) : Option Int64 :=
  match bundle.get? key with
  | some (.long value) => some value
  | some (.int value) => some value.toInt64
  | _ => none

def bool? (bundle : Bundle) (key : String) : Option Bool :=
  match bundle.get? key with
  | some (.bool value) => some value
  | _ => none

def strings? (bundle : Bundle) (key : String) : Option (List String) :=
  match bundle.get? key with
  | some (.strings value) => some value
  | _ => none

end IntentRouting.Bundle
