/-!
# Categories

The categories of an intent are a set of names, held in ascending order without repetition, so equal
sets are equal values.
-/

namespace IntentRouting

/-- A set of names in ascending order. -/
structure Categories where
  names : List String
  ascending : names.Pairwise (· < ·) := by simp
deriving DecidableEq

namespace Categories

def empty : Categories := ⟨[], .nil⟩

instance : EmptyCollection Categories := ⟨empty⟩

instance : Membership String Categories := ⟨fun categories name => name ∈ categories.names⟩

instance (name : String) (categories : Categories) : Decidable (name ∈ categories) :=
  inferInstanceAs (Decidable (name ∈ categories.names))

def contains (categories : Categories) (name : String) : Bool := categories.names.contains name

def isEmpty (categories : Categories) : Bool := categories.names.isEmpty

/-- Puts a name into its place, unless it is there already. -/
def insertName (name : String) : List String → List String
  | [] => [name]
  | first :: rest =>
      if name < first then name :: first :: rest
      else if name = first then first :: rest
      else first :: insertName name rest

theorem mem_insertName {name other : String} {names : List String} :
    other ∈ insertName name names ↔ other = name ∨ other ∈ names := by
  induction names with
  | nil => simp [insertName]
  | cons first rest ih =>
      rw [insertName]
      split
      · simp
      · split
        · rename_i equal
          simp [equal]
        · simp only [List.mem_cons, ih]
          grind

theorem insertName_ascending {name : String} {names : List String}
    (ascending : names.Pairwise (· < ·)) : (insertName name names).Pairwise (· < ·) := by
  induction names with
  | nil => simp [insertName]
  | cons first rest ih =>
      rw [List.pairwise_cons] at ascending
      rw [insertName]
      split
      · rename_i less
        refine .cons ?_ (.cons ascending.1 ascending.2)
        intro other member
        rcases List.mem_cons.1 member with rfl | inRest
        · exact less
        · exact String.lt_trans less (ascending.1 other inRest)
      · split
        · exact .cons ascending.1 ascending.2
        · rename_i notLess notEqual
          refine .cons ?_ (ih ascending.2)
          intro other member
          rcases mem_insertName.1 member with rfl | inRest
          · rcases Std.lt_trichotomy other first with less | equal | greater
            · exact absurd less notLess
            · exact absurd equal notEqual
            · exact greater
          · exact ascending.1 other inRest

def insert (categories : Categories) (name : String) : Categories :=
  ⟨insertName name categories.names, insertName_ascending categories.ascending⟩

def erase (categories : Categories) (name : String) : Categories :=
  ⟨categories.names.filter (· != name), categories.ascending.filter _⟩

def ofList (names : List String) : Categories := names.foldl insert empty

/-- A set is determined by its names. -/
@[ext]
theorem ext {left right : Categories} (equal : left.names = right.names) : left = right := by
  cases left
  cases right
  simp_all

end Categories

end IntentRouting
