import IntentRouting.Intent.Bundle

/-!
# Arguments of a query

The names under which a caller puts the arguments of a query, and those under which a provider says
how it answered. Nobody but the provider has to understand them.
-/

namespace IntentRouting.QueryArgs

def limitKey : String := "android:query-arg-limit"

/-- The number of rows that are left out at the beginning. -/
def offsetKey : String := "android:query-arg-offset"

def sortColumnsKey : String := "android:query-arg-sort-columns"

def sortDirectionKey : String := "android:query-arg-sort-direction"

def sortCollationKey : String := "android:query-arg-sort-collation"

def selectionKey : String := "android:query-arg-sql-selection"

/-- The values for the placeholders of the condition. -/
def selectionArgsKey : String := "android:query-arg-sql-selection-args"

def sortOrderKey : String := "android:query-arg-sql-sort-order"

/-- The arguments that the provider respected. -/
def honoredKey : String := "android.content.extra.HONORED_ARGS"

def totalCountKey : String := "android.content.extra.TOTAL_COUNT"

/-- A direction to sort in. -/
inductive SortDirection where
  | ascending
  | descending
deriving DecidableEq, Repr

/-- The name of a direction, as SQL writes it. -/
def SortDirection.name : SortDirection → String
  | .ascending => "asc"
  | .descending => "desc"

/-- The number under a name, if it is a whole number that is not negative. -/
def count? (args : Bundle) (key : String) : Option Nat :=
  let n? : Option Int :=
    match args.get? key with
    | some (.int value) => some value.toInt
    | some (.long value) => some value.toInt
    | _ => none
  n?.bind fun n => if 0 ≤ n then some n.toNat else none

def limit? (args : Bundle) : Option Nat := count? args limitKey

/-- The number of rows that are left out at the beginning. -/
def offset? (args : Bundle) : Option Nat := count? args offsetKey

def sortColumns? (args : Bundle) : Option (List String) := args.strings? sortColumnsKey

def sortDirection? (args : Bundle) : Option SortDirection :=
  match args.int? sortDirectionKey with
  | some 0 => some .ascending
  | some 1 => some .descending
  | _ => none

def sortCollation? (args : Bundle) : Option Int32 := args.int? sortCollationKey

def selection? (args : Bundle) : Option String := args.string? selectionKey

/-- The values for the placeholders of the condition. -/
def selectionArgs? (args : Bundle) : Option (List String) := args.strings? selectionArgsKey

def sortOrder? (args : Bundle) : Option String := args.string? sortOrderKey

/-- The arguments of a query in SQL; what is absent is left out. -/
def ofSql (selection : Option String) (selectionArgs : Option (List String))
    (sortOrder : Option String) : Bundle :=
  ⟨(selection.map fun text => (selectionKey, .string text)).toList ++
    (selectionArgs.map fun texts => (selectionArgsKey, .strings texts)).toList ++
    (sortOrder.map fun text => (sortOrderKey, .string text)).toList⟩

/-- The extra by which a provider says which arguments it respected. -/
def honored (keys : List String) : Bundle := ⟨[(honoredKey, .strings keys)]⟩

end IntentRouting.QueryArgs
