import IntentRouting.Malformed
import IntentRouting.Text.Split

/-!
# Components

A component is a class of a package. Its class may be written in short: a class that begins with a
point continues the name of the package, and one without any point is in the package. Written as one
text, package and class have a slash between them; the short form leaves the package out of the
class again.
-/

namespace IntentRouting

/-- What a component does. -/
inductive ComponentKind where
  | activity
  | service
  | receiver
deriving DecidableEq, Repr

def ComponentKind.name : ComponentKind → String
  | .activity => "activity"
  | .service => "service"
  | .receiver => "receiver"

def ComponentKind.ofName? (name : String) : Option ComponentKind :=
  if name = "activity" then some .activity
  else if name = "service" then some .service
  else if name = "receiver" then some .receiver
  else none

/-- A class of a package. -/
structure Component where
  package : String
  className : String
deriving DecidableEq, Repr

namespace Component

/-- A class in full, given the package that a short one is in. -/
def fullClassName (package className : String) : String :=
  if className.toList.head? = some '.' then package ++ className
  else if className.toList.contains '.' then className
  else package ++ "." ++ className

/-- The component of a class that may be written in short. -/
def of (package className : String) : Component := ⟨package, fullClassName package className⟩

/-- Package and class with a slash between them. -/
def flat (component : Component) : String := component.package ++ "/" ++ component.className

/-- The class without the package, if it continues the package with a point. -/
def relativeClass? (component : Component) : Option (List Char) :=
  (Text.strip? component.package.toList component.className.toList).filter
    fun rest => rest.head? = some '.'

/-- Package and class with a slash between them, the class in short if it is in the package. -/
def short (component : Component) : String :=
  match component.relativeClass? with
  | some rest => component.package ++ "/" ++ String.ofList rest
  | none => component.flat

instance : ToString Component := ⟨short⟩

/-- Reads a component; package and class may not be empty. -/
def parse (text : String) : Except Malformed Component :=
  match Text.cut? '/' text.toList with
  | none => .error (.componentWithoutClass text)
  | some (package, className) =>
      if package.isEmpty || className.isEmpty then .error (.incompleteComponent text)
      else .ok (of (String.ofList package) (String.ofList className))

def simpleClassName (component : Component) : String :=
  match Text.cutLast? '.' component.className.toList with
  | some (_, rest) => String.ofList rest
  | none => component.className

/-- Components are ordered by package, then by class. -/
def compare (left right : Component) : Ordering :=
  (Ord.compare left.package right.package).then (Ord.compare left.className right.className)

instance : Ord Component := ⟨compare⟩

end Component

end IntentRouting
