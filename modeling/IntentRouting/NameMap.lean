/-!
# Maps from names

A map from names to values whose entries stand in ascending order of the names, one for each name.
The order is part of the type, so two maps with the same values under the same names are equal, and
listing the entries does not depend on the history of the map.
-/

namespace IntentRouting

/-- A map from names to values. -/
structure NameMap (α : Type) where
  entries : List (String × α)
  ascending : entries.Pairwise (·.1 < ·.1) := by simp

namespace NameMap

variable {α : Type}

def empty : NameMap α := ⟨[], .nil⟩

instance : EmptyCollection (NameMap α) := ⟨empty⟩

instance : Inhabited (NameMap α) := ⟨empty⟩

def names (map : NameMap α) : List String := map.entries.map (·.1)

/-- The values of a map in the order of their names. -/
def values (map : NameMap α) : List α := map.entries.map (·.2)

def get? (map : NameMap α) (name : String) : Option α := map.entries.lookup name

def contains (map : NameMap α) (name : String) : Bool := (map.get? name).isSome

def isEmpty (map : NameMap α) : Bool := map.entries.isEmpty

/-- Puts a value into its place, instead of the one that was under its name. -/
def insertEntry (name : String) (value : α) : List (String × α) → List (String × α)
  | [] => [(name, value)]
  | entry :: entries =>
      if name < entry.1 then (name, value) :: entry :: entries
      else if name = entry.1 then (name, value) :: entries
      else entry :: insertEntry name value entries

theorem mem_insertEntry {name : String} {value : α} {entries : List (String × α)}
    {entry : String × α} (member : entry ∈ insertEntry name value entries) :
    entry = (name, value) ∨ entry ∈ entries := by
  induction entries with
  | nil => simpa [insertEntry] using member
  | cons first rest ih =>
      rw [insertEntry] at member
      grind

theorem insertEntry_ascending {name : String} {value : α} {entries : List (String × α)}
    (ascending : entries.Pairwise (·.1 < ·.1)) :
    (insertEntry name value entries).Pairwise (·.1 < ·.1) := by
  induction entries with
  | nil => simp [insertEntry]
  | cons first rest ih =>
      rw [List.pairwise_cons] at ascending
      rw [insertEntry]
      split
      · rename_i less
        refine .cons ?_ (.cons ascending.1 ascending.2)
        intro other member
        rcases List.mem_cons.1 member with rfl | inRest
        · exact less
        · exact String.lt_trans less (ascending.1 other inRest)
      · split
        · rename_i equal
          exact .cons (fun other member => equal ▸ ascending.1 other member) ascending.2
        · rename_i notLess notEqual
          refine .cons ?_ (ih ascending.2)
          intro other member
          rcases mem_insertEntry member with rfl | inRest
          · rcases Std.lt_trichotomy name first.1 with less | equal | greater
            · exact absurd less notLess
            · exact absurd equal notEqual
            · exact greater
          · exact ascending.1 other inRest

def insert (map : NameMap α) (name : String) (value : α) : NameMap α :=
  ⟨insertEntry name value map.entries, insertEntry_ascending map.ascending⟩

def erase (map : NameMap α) (name : String) : NameMap α :=
  ⟨map.entries.filter fun entry => entry.1 != name, map.ascending.filter _⟩

/-- A map is determined by its entries. -/
@[ext]
theorem ext {left right : NameMap α} (equal : left.entries = right.entries) : left = right := by
  cases left
  cases right
  simp_all

theorem lookup_cons_eq_ite {name : String} {entry : String × α} {entries : List (String × α)} :
    (entry :: entries).lookup name = if name = entry.1 then some entry.2 else entries.lookup name := by
  rcases entry with ⟨name', value⟩
  by_cases equal : name = name'
  · simp [equal]
  · have differ : (name == name') = false := by simpa using equal
    simp [List.lookup_cons, equal, differ]

theorem lookup_insertEntry {name other : String} {value : α} {entries : List (String × α)} :
    (insertEntry name value entries).lookup other =
      if other = name then some value else entries.lookup other := by
  induction entries with
  | nil => rw [insertEntry, lookup_cons_eq_ite]
  | cons first rest ih => grind [insertEntry, lookup_cons_eq_ite]

/-- Putting a value under a name changes what is under that name and nothing else. -/
theorem get?_insert (map : NameMap α) (name other : String) (value : α) :
    (map.insert name value).get? other = if other = name then some value else map.get? other :=
  lookup_insertEntry

end NameMap

end IntentRouting
