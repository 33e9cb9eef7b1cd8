import IntentRouting.Bounds
import IntentRouting.Component
import IntentRouting.FlagSet
import IntentRouting.Intent.Categories
import IntentRouting.Number.Binary
import IntentRouting.Uri.Basic

/-!
# Intents

An intent describes something to be done: an action, the resource it is done with and the type of
that resource, categories, and what narrows or carries the request. Its extras are typed values
under names, in the order in which they were put; its clip is a list of items. An intent can be
nested in another one as the selector that stands in for it, as an extra and in an item of its clip,
so these types are defined together.
-/

namespace IntentRouting

mutual

/-- A request for an action. -/
structure Intent where
  action : Option String
  data : Option Uri
  mimeType : Option String
  identifier : Option String
  categories : Categories
  package : Option String
  component : Option Component
  /-- The intent that is matched in place of this one. -/
  selector : Option Intent
  flags : IntentFlags
  extras : Bundle
  clip : Option Clip
  bounds : Option Bounds

/-- Typed values under names, in the order in which the names were first put. -/
structure Bundle where
  entries : List (String × Value)

/-- A typed value. -/
inductive Value where
  | bool (value : Bool)
  | byte (value : Int8)
  | short (value : Int16)
  | char (value : Char)
  | int (value : Int32)
  | long (value : Int64)
  | float (value : Binary)
  | double (value : Binary)
  | string (value : String)
  | blob (value : List UInt8)
  | strings (value : List String)
  | uri (value : Uri)
  | intent (value : Intent)
  | bundle (value : Bundle)

/-- Items that travel with an intent. -/
structure Clip where
  label : Option String
  mimeTypes : List String
  items : List ClipItem

/-- One item of a clip. -/
structure ClipItem where
  text : Option String
  uri : Option Uri
  intent : Option Intent

end

namespace Action

/-- The action of the first screen of an application. -/
def main : String := "android.intent.action.MAIN"

def view : String := "android.intent.action.VIEW"

end Action

namespace Category

/-- The category of handlers that need not be named. -/
def default : String := "android.intent.category.DEFAULT"

/-- The category of handlers that a browser may start. -/
def browsable : String := "android.intent.category.BROWSABLE"

/-- The category of the screens that a launcher lists. -/
def launcher : String := "android.intent.category.LAUNCHER"

end Category

namespace Value

def typeName : Value → String
  | .bool _ => "bool"
  | .byte _ => "byte"
  | .short _ => "short"
  | .char _ => "char"
  | .int _ => "int"
  | .long _ => "long"
  | .float _ => "float"
  | .double _ => "double"
  | .string _ => "string"
  | .blob _ => "blob"
  | .strings _ => "string_list"
  | .uri _ => "uri"
  | .intent _ => "intent"
  | .bundle _ => "bundle"

end Value

def byteBounds : Integer.Bounds := .signed 8

def shortBounds : Integer.Bounds := .signed 16

def intBounds : Integer.Bounds := .signed 32

def longBounds : Integer.Bounds := .signed 64

namespace Intent

def empty : Intent :=
  { action := none, data := none, mimeType := none, identifier := none, categories := .empty,
    package := none, component := none, selector := none, flags := .empty, extras := ⟨[]⟩,
    clip := none, bounds := none }

instance : Inhabited Intent := ⟨empty⟩

def ofAction (action : String) : Intent := { empty with action := some action }

def scheme (intent : Intent) : Option String := intent.data.bind Uri.scheme

/-- The intent that is matched: the selector if there is one. -/
def matchingView (intent : Intent) : Intent := intent.selector.getD intent

def hasCategory (intent : Intent) (category : String) : Bool := intent.categories.contains category

/-- An intent with only what is compared when intents are matched. -/
def cloneFilter (intent : Intent) : Intent :=
  { empty with
    action := intent.action
    data := intent.data
    mimeType := intent.mimeType
    identifier := intent.identifier
    categories := intent.categories
    package := intent.package
    component := intent.component
    selector := intent.selector }

/-- What two intents must share for filters not to tell them apart. -/
structure FilterIdentity where
  action : Option String
  data : Option Uri
  mimeType : Option String
  component : Option Component
  categories : Categories
deriving DecidableEq

/-- What filters see of an intent. -/
def filterIdentity (intent : Intent) : FilterIdentity :=
  ⟨intent.action, intent.data, intent.mimeType, intent.component, intent.categories⟩

/-- Whether filters cannot tell two intents apart. -/
def filterEquals (left right : Intent) : Bool := left.filterIdentity = right.filterIdentity

end Intent

end IntentRouting
