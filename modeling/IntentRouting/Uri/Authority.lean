import IntentRouting.Uri.Basic

/-!
# Host and port

An authority is optional user information up to its last at sign, a host, and an optional port after
a colon. A host in brackets may contain colons of its own and ends at its first closing bracket.
-/

namespace IntentRouting.Uri

/-- The host and the port, without the user information. -/
def hostAndPort (authority : List Char) : List Char :=
  match Text.cutLast? '@' authority with
  | some (_, rest) => rest
  | none => authority

/-- The characters of the host, brackets included. -/
def hostChars (hostPort : List Char) : List Char :=
  match hostPort with
  | '[' :: _ =>
      match Text.cut ']' hostPort with
      | (before, some _) => before ++ [']']
      | (whole, none) => whole
  | _ => (Text.cut ':' hostPort).1

/-- The characters of the port, if a colon follows the host. -/
def portChars? (hostPort : List Char) : Option (List Char) :=
  match hostPort with
  | '[' :: _ =>
      match Text.cut ']' hostPort with
      | (_, some (':' :: port)) => some port
      | _ => none
  | _ => (Text.cut ':' hostPort).2

/-- The host of a URI; an empty one does not count. -/
def host (uri : Uri) : Option String :=
  match uri.authority with
  | none => none
  | some authority =>
      let host := hostChars (hostAndPort authority.toList)
      if host.isEmpty then none else some (String.ofList host)

/-- A port is a number of 16 bits. -/
def portBounds : Integer.Bounds := .unsigned 16

def readPort? (characters : List Char) : Option Nat :=
  (Integer.read 10 portBounds characters).toOption.map Int.toNat

/-- The port of a URI, if there is one and it is a number. -/
def port (uri : Uri) : Option Nat :=
  match uri.authority with
  | none => none
  | some authority => (portChars? (hostAndPort authority.toList)).bind readPort?

end IntentRouting.Uri
