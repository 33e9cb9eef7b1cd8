import IntentRouting.Content.Stream
import IntentRouting.Mime

/-!
# Providers

A provider owns the data behind an authority. Its operations are functions of its state; those that
may change it return the state after them. A provider need not define all of them: by default it
opens no files, offers no streams of its own, has no canonical URIs, and inserts rows one after the
other. Nothing in here knows about callers: who may use a provider is decided before one of its
operations runs.
-/

namespace IntentRouting

/-- How a file is opened. -/
inductive FileMode where
  | read
  | write
  | writeAppend
  | writeTruncate
  | readWrite
  | readWriteTruncate
deriving DecidableEq, Repr

namespace FileMode

def text : FileMode → String
  | read => "r"
  | write => "w"
  | writeAppend => "wa"
  | writeTruncate => "wt"
  | readWrite => "rw"
  | readWriteTruncate => "rwt"

/-- The access that a mode needs. -/
def access : FileMode → Modes
  | read => Modes.read
  | write | writeAppend | writeTruncate => Modes.write
  | readWrite | readWriteTruncate => Modes.readWrite

def parse (text : String) : Except Malformed FileMode :=
  if text = "r" then .ok .read
  else if text = "w" then .ok .write
  else if text = "wa" then .ok .writeAppend
  else if text = "wt" then .ok .writeTruncate
  else if text = "rw" then .ok .readWrite
  else if text = "rwt" then .ok .readWriteTruncate
  else .error (.fileMode text)

end FileMode

/-- The error of a provider that has no files. -/
def noFile (uri : Uri) (mode : FileMode) : Error :=
  .unsupported s!"no files found at {uri} (mode {mode.text})"

/-- Inserts rows one after the other and counts those that got a URI, up to the first error. -/
def insertEach {ρ : Type} (insert : ρ → Bundle → Except Error (Option Uri) × ρ) (state : ρ) :
    List Bundle → Except Error Nat × ρ
  | [] => (.ok 0, state)
  | row :: rows =>
      match insert state row with
      | (.error error, state) => (.error error, state)
      | (.ok inserted, state) =>
          let (count, state) := insertEach insert state rows
          (count.map (· + if inserted.isSome then 1 else 0), state)

/-- The operations of a provider on its state. -/
class ContentProvider (ρ : Type) where
  /-- Runs once before the provider is used. -/
  create : ρ → Except Error Unit × ρ
  /-- The type of the data of a URI. -/
  typeOf : ρ → Uri → Option String
  /-- The rows of a URI. -/
  query : ρ → Uri → Option (List String) → Bundle → Except Error RowStream × ρ
  /-- Inserts a row. -/
  insert : ρ → Uri → Bundle → Bundle → Except Error (Option Uri) × ρ
  /-- Changes rows and counts them. -/
  update : ρ → Uri → Bundle → Bundle → Except Error Nat × ρ
  /-- Deletes rows and counts them. -/
  delete : ρ → Uri → Bundle → Except Error Nat × ρ
  /-- Inserts rows and counts them. -/
  bulkInsert : ρ → Uri → List Bundle → Except Error Nat × ρ :=
    fun state uri rows => insertEach (fun state row => insert state uri row .empty) state rows
  /-- Opens a file. -/
  openFile : ρ → Uri → FileMode → Except Error AssetStream × ρ :=
    fun state uri mode => (.error (noFile uri mode), state)
  /-- The types in which a URI can be opened as a stream, as far as they match one. -/
  streamTypes : ρ → Uri → String → List String := fun _ _ _ => []
  /-- Opens a stream of a type. By default it is the file, if its type matches. -/
  openTyped : ρ → Uri → String → Bundle → Except Error AssetStream × ρ :=
    fun state uri wanted _ =>
      if wanted = Mime.any then openFile state uri .read
      else
        match typeOf state uri with
        | some found =>
            if Mime.accepts wanted found then
              let (opened, state) := openFile state uri .read
              (opened.map fun stream => { stream with mimeType := some found }, state)
            else (.error (.notFound (.typedAsset uri wanted)), state)
        | none => (.error (.notFound (.typedAsset uri wanted)), state)
  /-- The lasting form of a URI. -/
  canonicalize : ρ → Uri → Option Uri := fun _ _ => none
  /-- The current form of a lasting URI. -/
  uncanonicalize : ρ → Uri → Uri := fun _ uri => uri
  /-- Brings the data of a URI up to date, if that is possible. -/
  refresh : ρ → Uri → Bundle → Bool × ρ := fun state _ _ => (false, state)
  /-- An operation of the provider's own. -/
  call : ρ → String → Option String → Bundle → Except Error (Option Bundle) × ρ :=
    fun state _ _ _ => (.ok none, state)

end IntentRouting
