import IntentRouting.Error
import IntentRouting.Intent.Bundle
import IntentRouting.Mime

/-!
# Changing an intent

Data and type exclude each other unless they are set together, and so do package and selector: one
of these two can only be set while the other is not.
-/

namespace IntentRouting.Intent

def setData (intent : Intent) (data : Option Uri) : Intent :=
  { intent with data, mimeType := none }

def setType (intent : Intent) (mimeType : Option String) : Intent :=
  { intent with data := none, mimeType }

def setDataAndType (intent : Intent) (data : Option Uri) (mimeType : Option String) : Intent :=
  { intent with data, mimeType }

/-- Sets the package, which cannot stand beside a selector. -/
def setPackage (intent : Intent) (package : Option String) : Except Conflict Intent :=
  if package.isSome && intent.selector.isSome then .error .packageBesideSelector
  else .ok { intent with package }

/-- Sets the selector, which cannot stand beside a package. -/
def setSelector (intent : Intent) (selector : Option Intent) : Except Conflict Intent :=
  if selector.isSome && intent.package.isSome then .error .selectorBesidePackage
  else .ok { intent with selector }

def addCategory (intent : Intent) (category : String) : Intent :=
  { intent with categories := intent.categories.insert category }

def removeCategory (intent : Intent) (category : String) : Intent :=
  { intent with categories := intent.categories.erase category }

def addFlags (intent : Intent) (flags : IntentFlags) : Intent :=
  { intent with flags := intent.flags ∪ flags }

def removeFlags (intent : Intent) (flags : IntentFlags) : Intent :=
  { intent with flags := intent.flags \ flags }

def putExtra (intent : Intent) (key : String) (value : Value) : Intent :=
  { intent with extras := intent.extras.insert key value }

/-- The type of the data: the type that is set, else what is known about data that a provider
serves. -/
def resolveType (intent : Intent) (typeOf : Uri → Option String) : Option String :=
  match intent.mimeType with
  | some mimeType => some mimeType
  | none =>
      match intent.data with
      | some data => if data.isContent then typeOf data else none
      | none => none

end IntentRouting.Intent

def IntentRouting.Clip.uris (clip : Clip) : List Uri := clip.items.filterMap (·.uri)
