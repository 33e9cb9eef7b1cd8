import IntentRouting.Intent.Link.Writer

/-!
# Reading an intent from a link

A link is read in the form that its text shows: under the scheme `android-app:`, or as data in front
of the last number sign if `#Intent;` stands there, or else as the URI of something to be viewed.
Entries are applied in their order, so a later one replaces an earlier one; after `SEL` they
describe the selector. Reading drops the flags that would hand out access to URIs, of the intent and
of its selector, unless the caller accepts them.
-/

namespace IntentRouting.Intent

/-- What the entries read so far describe. -/
structure Parsed where
  intent : Intent
  selector : Option Intent
  scheme : Option String

/-- Changes the intent that entries currently describe. -/
def Parsed.update (parsed : Parsed) (change : Intent → Intent) : Parsed :=
  match parsed.selector with
  | some selector => { parsed with selector := some (change selector) }
  | none => { parsed with intent := change parsed.intent }

def flagBounds : Integer.Bounds := .unsigned 32

/-- Reads flags from a hexadecimal number after `0x` or from a decimal one. -/
def readFlags? (characters : List Char) : Option IntentFlags :=
  let number :=
    match characters with
    | '0' :: 'x' :: digits => Integer.read 16 flagBounds digits
    | '0' :: 'X' :: digits => Integer.read 16 flagBounds digits
    | digits => Integer.read 10 longBounds digits
  match number with
  | .ok n => if flagBounds.Contains n then some ⟨BitVec.ofNat 32 n.toNat⟩ else none
  | .error _ => none

/-- Reads the value of an extra of a simple type; none if the text does not write such a value. -/
def readTagged? (tag : Char) (text : String) : Option (Option Value) :=
  let number (bounds : Integer.Bounds) (value : Int → Value) : Option (Option Value) :=
    some ((Integer.parse? bounds text).map value)
  match tag with
  | 'S' => some (some (.string text))
  | 'B' => some (if text = "true" then some (.bool true)
      else if text = "false" then some (.bool false) else none)
  | 'b' => number byteBounds fun n => .byte (Int8.ofInt n)
  | 'c' => some (match text.toList with
      | [c] => some (.char c)
      | _ => none)
  | 'd' => some ((Binary.parse? .double text).map .double)
  | 'f' => some ((Binary.parse? .single text).map .float)
  | 'i' => number intBounds fun n => .int (Int32.ofInt n)
  | 'l' => number longBounds fun n => .long (Int64.ofInt n)
  | 's' => number shortBounds fun n => .short (Int16.ofInt n)
  | _ => none

/-- Applies an entry whose key begins with the tag of a type. -/
def Parsed.applyExtra (parsed : Parsed) (tag : Char) (key : List Char) (value : String) :
    Except Malformed Parsed :=
  match Uri.decode (String.ofList key) with
  | .error cause => .error cause
  | .ok key =>
      match readTagged? tag value with
      | none => .error (.extraTag tag)
      | some none => .error (.extraValue tag value)
      | some (some extra) => .ok (parsed.update (·.putExtra key extra))

/-- Applies an entry whose key names no field. -/
def Parsed.applyOther (parsed : Parsed) (key : List Char) (value : String) :
    Except Malformed Parsed :=
  match key with
  | tag :: '.' :: first :: rest =>
      if tag.toNat < 128 then parsed.applyExtra tag (first :: rest) value
      else .error (.fragmentKey (String.ofList key))
  | _ => .error (.fragmentKey (String.ofList key))

/-- Applies the entry of the scheme: it is part of the data, and all of it in a selector. -/
def Parsed.applyScheme (parsed : Parsed) (value : String) : Except Malformed Parsed :=
  match parsed.selector with
  | none => .ok { parsed with scheme := some value }
  | some selector =>
      (Uri.parse (value ++ ":")).map fun data =>
        { parsed with selector := some { selector with data := some data } }

def Parsed.apply (parsed : Parsed) (key : List Char) (value : String) : Except Malformed Parsed :=
  if key = "action".toList then
    .ok (parsed.update fun intent =>
      { intent with action := if value.isEmpty then none else some value })
  else if key = "category".toList then .ok (parsed.update (·.addCategory value))
  else if key = "type".toList then
    .ok (parsed.update fun intent => { intent with mimeType := some value })
  else if key = "identifier".toList then
    .ok (parsed.update fun intent => { intent with identifier := some value })
  else if key = "launchFlags".toList then
    match readFlags? value.toList with
    | some flags => .ok (parsed.update fun intent => { intent with flags })
    | none => .error (.launchFlags value)
  else if key = "package".toList then
    .ok (parsed.update fun intent => { intent with package := some value })
  else if key = "component".toList then
    (Component.parse value).map fun component =>
      parsed.update fun intent => { intent with component := some component }
  else if key = "sourceBounds".toList then
    (Bounds.parse value).map fun bounds =>
      parsed.update fun intent => { intent with bounds := some bounds }
  else if key = "scheme".toList then parsed.applyScheme value
  else parsed.applyOther key value

def Parsed.applyText (parsed : Parsed) (entry : List Char) : Except Malformed Parsed :=
  match Text.cut? '=' entry with
  | none => .error (.fragmentEntry (String.ofList entry))
  | some (key, value) =>
      match Uri.decode (String.ofList value) with
      | .error cause => .error cause
      | .ok value => parsed.apply key value

/-- Applies entries up to the end marker, after which nothing may follow. -/
def Parsed.applyAll (parsed : Parsed) : List (List Char) → Except Malformed Parsed
  | [] => .error .unterminatedFragment
  | entry :: entries =>
      if entry = fragmentEnd then
        if entries.all List.isEmpty then .ok parsed else .error .textAfterFragment
      else if entry = "SEL".toList then
        Parsed.applyAll { parsed with selector := some .empty } entries
      else
        match parsed.applyText entry with
        | .error cause => .error cause
        | .ok parsed => Parsed.applyAll parsed entries

/-- Reads the entries after `#Intent;`, which complete an intent. -/
def readFragment (entries : List Char) (base : Intent) : Except Malformed Parsed :=
  Parsed.applyAll ⟨base, none, none⟩ (Text.split ';' entries)

/-- An intent without the flags that hand out access to URIs, unless the caller accepts them. -/
def restricted (flags : LinkFlags) (intent : Intent) : Intent :=
  if flags.contains LinkFlags.allowUnsafe then intent
  else intent.removeFlags IntentFlags.grantMask

/-- The intent that entries describe. A selector is dropped beside a package. -/
def Parsed.finish (parsed : Parsed) (flags : LinkFlags) : Intent :=
  let intent := restricted flags parsed.intent
  match parsed.selector with
  | none => intent
  | some selector =>
      if intent.package.isSome then intent
      else { intent with selector := some (restricted flags selector) }

/-- Splits a link at its last number sign, if entries begin there. -/
def cutFragment? (characters : List Char) : Option (List Char × List Char) :=
  match Text.cutLast? '#' characters with
  | none => none
  | some (data, rest) => (Text.strip? fragmentStart ('#' :: rest)).map (data, ·)

/-- The text of the data of a link, given the scheme that its entries name. -/
def dataText? (data : List Char) (scheme : Option String) : Option (List Char) :=
  match Text.strip? intentPrefix data with
  | some [] => none
  | some rest =>
      match scheme with
      | some scheme => some (scheme.toList ++ ':' :: rest)
      | none => some rest
  | none => if data.isEmpty then none else some data

/-- Reads the data of a link; there may be none. -/
def readData? : Option (List Char) → Except Malformed (Option Uri)
  | none => .ok none
  | some characters => (Uri.parse (String.ofList characters)).map some

/-- Reads a link that is not one to an application. -/
def ofPlainLink (text : String) (flags : LinkFlags) : Except Malformed Intent :=
  match cutFragment? text.toList with
  | none => (Uri.parse text).map fun data => { ofAction Action.view with data := some data }
  | some (data, entries) =>
      match readFragment entries (ofAction Action.view) with
      | .error cause => .error cause
      | .ok parsed =>
          match readData? (dataText? data parsed.scheme) with
          | .error cause => .error cause
          | .ok none => .ok (parsed.finish flags)
          | .ok (some data) => .ok { parsed.finish flags with data := some data }

/-- The text of the data that segments after a package write. -/
def segmentText? (path : List Char) (query : Option String) : Option (List Char) :=
  let (scheme, rest) := Text.cut '/' (path.dropWhile (· = '/'))
  if scheme.isEmpty then none
  else
    let (host, rest) := Text.cut '/' (rest.getD [])
    if host.isEmpty then some (scheme ++ [':'])
    else some (scheme ++ "://".toList ++ host ++
      ((rest.map ('/' :: ·)).getD []) ++ Uri.marked ['?'] query)

def ofAppLink (text : String) (flags : LinkFlags) : Except Malformed Intent :=
  let (head, entries) :=
    match Text.cutLastText? fragmentStart text.toList with
    | some (head, entries) => (head, some entries)
    | none => (text.toList, none)
  match Uri.parse (String.ofList head) with
  | .error cause => .error cause
  | .ok app =>
      match app.authority.filter (· != "") with
      | none => .error (.linkWithoutPackage text)
      | some package =>
          match readData? (segmentText? app.path.toList app.query) with
          | .error cause => .error cause
          | .ok data =>
              let base := ofAction (if data.isSome then Action.view else Action.main)
              let read : Except Malformed Intent :=
                match entries with
                | none => .ok base
                | some entries => (readFragment entries base).map (·.finish flags)
              match read with
              | .error cause => .error cause
              | .ok intent =>
                  let intent := { intent with data }
                  .ok (if intent.package.isNone && intent.selector.isNone then
                    { intent with package := some package } else intent)

def ofLink (text : String) (flags : LinkFlags) : Except Malformed Intent :=
  if text.isEmpty then .error .emptyLink
  else if (Text.strip? appPrefix text.toList).isSome then ofAppLink text flags
  else ofPlainLink text flags

end IntentRouting.Intent
