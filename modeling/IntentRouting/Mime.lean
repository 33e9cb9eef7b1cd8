import IntentRouting.Malformed
import IntentRouting.Text.Blank
import IntentRouting.Text.Split

/-!
# MIME types

A type is two tokens with a slash between them. Normalizing drops the parameters and the blanks
around the type and lowers the letters A to Z. Two types match if they are equal up to wildcards: a
subtype of `*` stands for every subtype, and `*/*` or `*` alone for every type. Wildcards count on
both sides.
-/

namespace IntentRouting.Mime

/-- The type that stands for all types. -/
def any : String := "*/*"

def itemBase : String := "vnd.android.cursor.item"

/-- The base type of a list of rows of a provider. -/
def directoryBase : String := "vnd.android.cursor.dir"

/-- A type in lower case, without parameters and without blanks around it. -/
def normalize (type : String) : String :=
  Text.onChars (fun characters =>
    (Text.trim (Text.cut ';' characters).1).map Text.asciiLower) type

def isTokenChar (c : Char) : Bool :=
  Text.isAsciiAlphanumeric c || ['*', '.', '+', '-', '_', '!', '#', '$', '&', '^'].contains c

/-- At least one character, all of them allowed in a token. -/
def isToken (characters : List Char) : Bool := !characters.isEmpty && characters.all isTokenChar

def parts? (type : String) : Option (String × String) :=
  (Text.cut? '/' type.toList).map fun (base, subtype) => (String.ofList base, String.ofList subtype)

/-- Two tokens with a slash between them. -/
def isValid (type : String) : Bool :=
  match Text.cut? '/' type.toList with
  | some (base, subtype) => isToken base && isToken subtype
  | none => false

/-- Refuses everything that is not two tokens with a slash between them. -/
def validate (type : String) : Except Malformed Unit :=
  if isValid type then .ok () else .error (.mimeType type)

/-- A type that stands for others. -/
def isWildcard (type : String) : Bool :=
  type = "*" || ['*', '/'].isPrefixOf type.toList.reverse

/-- A type that stands for all types. -/
def isAny (type : String) : Bool := type = any || type = "*"

/-- Whether a type asked for and a type found stand for a common type. -/
def accepts (wanted found : String) : Bool :=
  wanted = found || isAny wanted || isAny found ||
    match parts? wanted, parts? found with
    | some (wantedBase, wantedSubtype), some (foundBase, foundSubtype) =>
        wantedBase = foundBase && (wantedSubtype = "*" || foundSubtype = "*")
    | _, _ => false

def item (subtype : String) : String := itemBase ++ "/" ++ subtype

def directory (subtype : String) : String := directoryBase ++ "/" ++ subtype

end IntentRouting.Mime
