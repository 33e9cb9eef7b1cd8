import IntentRouting.Text.Blank
import IntentRouting.Uri.Percent

/-!
# Resource identifiers

A URI is an optional scheme, a body and an optional fragment. The body is hierarchical, with an
optional authority, a path and an optional query, unless there is a scheme and the body does not
begin with a slash: then it is one text without further structure. Only the parts are kept. The text
of a URI is composed of them, and reading takes a text apart so that composing gives it back; parts
that do not satisfy `Uri.Body.IsReadable` are never the result of reading.
-/

namespace IntentRouting

/-- What stands between the scheme and the fragment of a URI. -/
inductive Uri.Body where
  /-- One text without structure, as after `mailto:`. -/
  | specific (text : String)
  | hierarchical (authority : Option String) (path : String) (query : Option String)
deriving DecidableEq, Repr

/-- A resource identifier. -/
structure Uri where
  scheme : Option String
  body : Uri.Body
  fragment : Option String
deriving DecidableEq, Repr

namespace Uri

/-- The scheme of resources that providers serve. -/
def contentScheme : String := "content"

def fileScheme : String := "file"

/-- Characters after a mark, or nothing if they are absent. -/
def marked (mark : List Char) : Option String → List Char
  | none => []
  | some text => mark ++ text.toList

def Body.chars : Body → List Char
  | .specific text => text.toList
  | .hierarchical authority path query =>
      marked ['/', '/'] authority ++ path.toList ++ marked ['?'] query

def schemeChars : Option String → List Char
  | none => []
  | some scheme => scheme.toList ++ [':']

def chars (uri : Uri) : List Char :=
  schemeChars uri.scheme ++ uri.body.chars ++ marked ['#'] uri.fragment

def text (uri : Uri) : String := String.ofList uri.chars

instance : ToString Uri := ⟨text⟩

/-- What stands between the scheme and the fragment. -/
def specificPart (uri : Uri) : String := String.ofList uri.body.chars

/-- A letter, followed by letters, digits, plus signs, hyphens and points. -/
def isScheme : List Char → Bool
  | [] => false
  | first :: rest =>
      Text.isAsciiLetter first &&
        rest.all fun c => Text.isAsciiAlphanumeric c || c = '+' || c = '-' || c = '.'

/-- A character that may not stand in a URI. -/
def isForbidden (c : Char) : Bool := Text.isBlank c || Text.isControl c

/-- A character that ends the search for the colon of a scheme. -/
def endsScheme (c : Char) : Bool := c = ':' || c = '/' || c = '?'

/-- The characters before the colon that ends a scheme, and those after it. -/
def cutScheme? (characters : List Char) : Option (List Char × List Char) :=
  match characters.dropWhile fun c => !endsScheme c with
  | ':' :: rest => some (characters.takeWhile fun c => !endsScheme c, rest)
  | _ => none

/-- Takes the authority and the path apart. -/
def readHierarchy (characters : List Char) (query : Option String) : Body :=
  match characters with
  | '/' :: '/' :: rest =>
      .hierarchical (some (String.ofList (rest.takeWhile (· != '/'))))
        (String.ofList (rest.dropWhile (· != '/'))) query
  | path => .hierarchical none (String.ofList path) query

/-- Takes a body apart. A body after a scheme is hierarchical if it begins with a slash. -/
def readBody (afterScheme : Bool) (characters : List Char) : Body :=
  if afterScheme && characters.head? != some '/' then .specific (String.ofList characters)
  else
    let (head, query) := Text.cut '?' characters
    readHierarchy head (query.map String.ofList)

def parse (text : String) : Except Malformed Uri :=
  let characters := text.toList
  if characters.isEmpty then .error .emptyUri
  else if characters.any isForbidden then .error (.blankInUri text)
  else
    let (head, fragment) := Text.cut '#' characters
    let fragment := fragment.map String.ofList
    match cutScheme? head with
    | some (scheme, rest) =>
        if isScheme scheme then
          .ok ⟨some (String.ofList scheme), readBody true rest, fragment⟩
        else .error (.scheme text)
    | none => .ok ⟨none, readBody false head, fragment⟩

/-- The URI that a text writes, if it writes one. -/
def parse? (text : String) : Option Uri := (parse text).toOption

/-- Reads the URI of a scheme, an authority and a path, which gets a slash at its front if it needs
one. -/
def hierarchical (scheme authority path : String) : Except Malformed Uri :=
  let path := if path.isEmpty || path.toList.head? = some '/' then path else "/" ++ path
  parse (scheme ++ "://" ++ authority ++ path)

/-- Reads the URI of an authority and a path under the scheme of content. -/
def content (authority path : String) : Except Malformed Uri :=
  hierarchical contentScheme authority path

def authority (uri : Uri) : Option String :=
  match uri.body with
  | .specific _ => none
  | .hierarchical authority _ _ => authority

/-- The path with its escapes; a URI without structure has an empty one. -/
def path (uri : Uri) : String :=
  match uri.body with
  | .specific _ => ""
  | .hierarchical _ path _ => path

def query (uri : Uri) : Option String :=
  match uri.body with
  | .specific _ => none
  | .hierarchical _ _ query => query

/-- Whether a URI has an authority and a path. -/
def isHierarchical (uri : Uri) : Bool :=
  match uri.body with
  | .specific _ => false
  | .hierarchical .. => true

/-- A URI without a scheme. -/
def isRelative (uri : Uri) : Bool := uri.scheme.isNone

/-- A URI of the scheme of content. -/
def isContent (uri : Uri) : Bool := uri.scheme = some contentScheme

/-- A URI with its scheme in lower case. -/
def normalizeScheme (uri : Uri) : Uri :=
  { uri with scheme := uri.scheme.map (Text.onChars (·.map Text.asciiLower)) }

/-- The URI of the scheme and the authority alone. -/
def authorityRoot? (uri : Uri) : Option Uri :=
  match uri.scheme, uri.authority with
  | some scheme, some authority => parse? (scheme ++ "://" ++ authority)
  | _, _ => none

def compare (left right : Uri) : Ordering := Ord.compare left.text right.text

instance : Ord Uri := ⟨compare⟩

/-- The condition on the parts of a hierarchical body. A path that follows an authority is empty or
begins with a slash; one without an authority does not begin with two. -/
def Body.IsReadable (afterScheme : Bool) : Body → Prop
  | .specific text => afterScheme = true ∧ text.toList.head? ≠ some '/' ∧ '#' ∉ text.toList
  | .hierarchical authority path query =>
      (∀ authority' ∈ authority, '/' ∉ authority'.toList ∧ '?' ∉ authority'.toList ∧
        '#' ∉ authority'.toList ∧ (path.toList = [] ∨ path.toList.head? = some '/')) ∧
      (authority = none → ¬ ['/', '/'] <+: path.toList) ∧
      (authority = none → afterScheme = true → path.toList.head? = some '/') ∧
      '?' ∉ path.toList ∧ '#' ∉ path.toList ∧
      (∀ query' ∈ query, '#' ∉ query'.toList)

end Uri

end IntentRouting
