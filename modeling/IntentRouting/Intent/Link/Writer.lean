import IntentRouting.Intent.Edit
import IntentRouting.Number.Shortest

/-!
# Writing an intent as a link

The text of an intent is the text of its data followed by a fragment of entries: `#Intent;`, then
`key=value;` for each field, then `end`. Values are escaped, so that neither the semicolon nor the
equals sign occurs in them. Under the scheme `intent:` the scheme of the data moves into an entry of
its own. Under the scheme `android-app:` the package comes first, followed by scheme, authority and
path of the data as segments. The action that a reader assumes is not written; an intent without an
action has an empty entry for it instead. Only extras of simple types are written, each under a tag
for its type.
-/

namespace IntentRouting.Intent

/-- What opens the entries of a link. -/
def fragmentStart : List Char := "#Intent;".toList

/-- What closes the entries of a link. -/
def fragmentEnd : List Char := "end".toList

/-- The scheme of a link to an intent, with its colon. -/
def intentPrefix : List Char := "intent:".toList

/-- The scheme of a link to an application, with its colon. -/
def appPrefix : List Char := "android-app:".toList

def entryChars (key : List Char) (value : String) : List Char :=
  key ++ '=' :: Uri.encodeChars value.toList ++ [';']

def optionalEntry (key : List Char) : Option String → List Char
  | none => []
  | some value => entryChars key value

/-- The tag and the text of a value of a simple type. -/
def taggedText? : Value → Option (Char × String)
  | .string value => some ('S', value)
  | .bool value => some ('B', if value then "true" else "false")
  | .byte value => some ('b', Integer.text value.toInt)
  | .char value => some ('c', String.singleton value)
  | .double value => some ('d', value.plainText .double)
  | .float value => some ('f', value.plainText .single)
  | .int value => some ('i', Integer.text value.toInt)
  | .long value => some ('l', Integer.text value.toInt)
  | .short value => some ('s', Integer.text value.toInt)
  | _ => none

/-- The entry of an extra, if its type is a simple one. -/
def extraChars (entry : String × Value) : List Char :=
  match taggedText? entry.2 with
  | some (tag, text) => entryChars (tag :: '.' :: Uri.encodeChars entry.1.toList) text
  | none => []

/-- The entry of the action, given the action that a reader assumes. -/
def actionChars (action assumed : Option String) : List Char :=
  match action with
  | some action => if some action = assumed then [] else entryChars "action".toList action
  | none => if assumed.isSome then entryChars "action".toList "" else []

/-- The entry of the package, given the package that a reader assumes. -/
def packageChars (package assumed : Option String) : List Char :=
  if package = assumed then [] else optionalEntry "package".toList package

/-- The entry of the flags; the set without flags has none. -/
def flagChars (flags : IntentFlags) : List Char :=
  if flags.isEmpty then []
  else "launchFlags=0x".toList ++ Nat.toDigits 16 flags.toNat ++ [';']

/-- The entry of a component: its short form with package and class escaped apart. -/
def componentChars (component : Component) : List Char :=
  let (package, className) := Text.cut '/' component.short.toList
  "component=".toList ++ Uri.encodeChars package ++ '/' :: Uri.encodeChars (className.getD []) ++ [';']

def fieldChars (intent : Intent) (scheme assumedAction assumedPackage : Option String) : List Char :=
  optionalEntry "scheme".toList scheme ++
    actionChars intent.action assumedAction ++
    intent.categories.names.flatMap (entryChars "category".toList) ++
    optionalEntry "type".toList intent.mimeType ++
    optionalEntry "identifier".toList intent.identifier ++
    flagChars intent.flags ++
    packageChars intent.package assumedPackage ++
    (intent.component.map componentChars).getD [] ++
    optionalEntry "sourceBounds".toList (intent.bounds.map Bounds.text) ++
    intent.extras.entries.flatMap extraChars

/-- What opens the entries of the selector. -/
def selectorStart : List Char := "SEL;".toList

/-- The entries of an intent, followed by those of its selector. -/
def entriesChars (intent : Intent) (scheme assumedAction assumedPackage : Option String) : List Char :=
  intent.fieldChars scheme assumedAction assumedPackage ++
    match intent.selector with
    | none => []
    | some selector => selectorStart ++ selector.fieldChars selector.scheme none none

/-- The fragment of some entries. Where there is neither an entry nor data, an empty fragment is
needed for the text to be read as an intent. -/
def fragmentChars (data entries : List Char) : List Char :=
  if entries.isEmpty && !data.isEmpty && data != intentPrefix then []
  else fragmentStart ++ entries ++ fragmentEnd

/-- The data as it stands in front of the fragment. -/
def dataChars (intent : Intent) : List Char := (intent.data.map Uri.chars).getD []

/-- The text of an intent as its data and a fragment. -/
def plainChars (intent : Intent) : List Char :=
  intent.dataChars ++
    fragmentChars intent.dataChars (intent.entriesChars none (some Action.view) none)

/-- The data without its scheme, after the scheme of a link. -/
def schemelessChars (intent : Intent) : List Char :=
  intentPrefix ++ ((intent.data.map fun data => data.body.chars ++ Uri.marked ['#'] data.fragment).getD [])

/-- The text of an intent under the scheme `intent:`. -/
def intentSchemeChars (intent : Intent) : List Char :=
  intent.schemelessChars ++
    fragmentChars intent.schemelessChars
      (intent.entriesChars intent.scheme (some Action.view) none)

/-- The data as segments after the package: the scheme, and the authority with path and query. -/
def segmentChars : Option Uri → List Char
  | none => []
  | some data =>
      match data.scheme with
      | none => []
      | some scheme =>
          '/' :: scheme.toList ++
            match data.authority with
            | none => []
            | some authority =>
                '/' :: authority.toList ++ data.path.toList ++ Uri.marked ['?'] data.query

/-- The text of an intent under the scheme `android-app:`. -/
def appSchemeChars (intent : Intent) (package : String) : List Char :=
  let head := appPrefix ++ "//".toList ++ package.toList ++ segmentChars intent.data
  let assumed := if intent.data.isSome then Action.view else Action.main
  head ++ fragmentChars head (intent.entriesChars none (some assumed) (some package))

/-- The text of an intent in the form that some flags choose. The form of `android-app:` needs a
package. -/
def toLink (intent : Intent) (flags : LinkFlags) : Except Conflict String :=
  if flags.contains LinkFlags.appScheme then
    match intent.package with
    | none => .error .linkWithoutPackage
    | some package => .ok (String.ofList (intent.appSchemeChars package))
  else if flags.contains LinkFlags.intentScheme then .ok (String.ofList intent.intentSchemeChars)
  else .ok (String.ofList intent.plainChars)

end IntentRouting.Intent
