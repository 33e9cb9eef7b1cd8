import IntentRouting.Number.Binary

/-!
# TOML values

A document of the format TOML denotes a table: values under keys, in the order in which they are
written.
-/

namespace IntentRouting

/-- A TOML value. -/
inductive Toml where
  | string (value : String)
  | integer (value : Int)
  | float (value : Binary)
  | bool (value : Bool)
  /-- A date, a time or both, by the characters that write it. -/
  | moment (literal : String)
  | array (items : List Toml)
  | table (members : List (String × Toml))

namespace Toml

def string? : Toml → Option String
  | .string value => some value
  | _ => none

def bool? : Toml → Option Bool
  | .bool value => some value
  | _ => none

def integer? (bounds : Integer.Bounds) : Toml → Option Int
  | .integer value => if bounds.Contains value then some value else none
  | _ => none

/-- What a value says about the fields of a record: a table by their names, an array by their
places, where further items do not count. A moment says nothing about any field. -/
def fields? (names : List String) : Toml → Option (List (Option Toml))
  | .table members => some (names.map fun name => members.lookup name)
  | .array items => some ((List.range names.length).map fun index => items[index]?)
  | .moment _ => some (names.map fun _ => none)
  | _ => none

def fieldOr {α : Type} (default : α) (decode : Toml → Option α) : Option Toml → Option α
  | none => some default
  | some value => decode value

end Toml

end IntentRouting
