import IntentRouting.Content.QueryArgs
import IntentRouting.Error

/-!
# Streams of rows and bytes

What a provider answers with is read piece by piece, and the caller may give up between two pieces:
a read after that fails. A stream of rows has then ended; one of bytes has not lost anything.
-/

namespace IntentRouting

abbrev Row := List Value

/-- The rows that are still to be read; for some of them there may be an error instead. -/
structure RowStream where
  columns : List String
  extras : Bundle
  rows : List (Except Error Row)
  finished : Bool

namespace RowStream

def ofRows (columns : List String) (rows : List Row) : RowStream :=
  ⟨columns, .empty, rows.map .ok, false⟩

/-- The place of the first column of a name. -/
def columnIndex? (stream : RowStream) (name : String) : Option Nat :=
  stream.columns.findIdx? (· = name)

/-- The arguments that the provider respected. -/
def honored? (stream : RowStream) : Option (List String) := stream.extras.strings? QueryArgs.honoredKey

def totalCount? (stream : RowStream) : Option Int32 := stream.extras.int? QueryArgs.totalCountKey

/-- Reads one row, given whether the caller has given up. -/
def next (stream : RowStream) (cancelled : Bool) : Option (Except Error Row) × RowStream :=
  if stream.finished then (none, stream)
  else if cancelled then (some (.error .cancelled), { stream with finished := true })
  else
    match stream.rows with
    | [] => (none, { stream with finished := true })
    | row :: rows => (some row, { stream with rows })

/-- Reads rows, at most some number of them, given before which reads the caller has given up and
how many reads there were before. -/
def readRows (stream : RowStream) (givenUp : Nat → Bool) (before : Nat) :
    Nat → List (Except Error Row) × RowStream
  | 0 => ([], stream)
  | count + 1 =>
      match stream.next (givenUp before) with
      | (none, stream) => ([], stream)
      | (some row, stream) =>
          let (rows, stream) := readRows stream givenUp (before + 1) count
          (row :: rows, stream)

/-- Reads everything up to the end, given before which reads the caller has given up. Besides the
rows there is at most one error and one read that finds the end. -/
def readToEnd (stream : RowStream) (givenUp : Nat → Bool) : List (Except Error Row) × RowStream :=
  stream.readRows givenUp 0 (stream.rows.length + 2)

/-- Reads rows up to the end or the first error. -/
def collectRows : List (Except Error Row) → Except Error (List Row)
  | [] => .ok []
  | .error error :: _ => .error error
  | .ok row :: rows => (collectRows rows).map (row :: ·)

/-- Reads all rows, given whether the caller has given up before. -/
def collect (stream : RowStream) (cancelled : Bool) : Except Error (List Row) :=
  if stream.finished then .ok []
  else if cancelled then .error .cancelled
  else collectRows stream.rows

end RowStream

/-- The bytes that are still to be read, and the error at their end, if there is one. -/
structure AssetStream where
  mimeType : Option String
  bytes : List UInt8
  fault : Option Error
  chunkSize : Nat

namespace AssetStream

/-- The size of a chunk, unless another one is asked for. -/
def defaultChunkSize : Nat := 8192

def ofBytes (bytes : List UInt8) : AssetStream := ⟨none, bytes, none, defaultChunkSize⟩

/-- A stream read in chunks of some size, but of one byte at least. -/
def withChunkSize (stream : AssetStream) (size : Nat) : AssetStream :=
  { stream with chunkSize := max size 1 }

/-- Reads a chunk, which is as long as possible, given whether the caller has given up. -/
def readChunk (stream : AssetStream) (cancelled : Bool) :
    Except Error (Option (List UInt8)) × AssetStream :=
  if cancelled then (.error .cancelled, stream)
  else if stream.bytes.isEmpty then
    match stream.fault with
    | some error => (.error error, stream)
    | none => (.ok none, stream)
  else
    (.ok (some (stream.bytes.take stream.chunkSize)),
      { stream with bytes := stream.bytes.drop stream.chunkSize })

/-- Reads chunks, at most some number of them, and puts them together. -/
def readChunks (stream : AssetStream) (cancelled : Bool) :
    Nat → Except Error (List UInt8) × AssetStream
  | 0 => (.ok [], stream)
  | count + 1 =>
      match stream.readChunk cancelled with
      | (.error error, stream) => (.error error, stream)
      | (.ok none, stream) => (.ok [], stream)
      | (.ok (some chunk), stream) =>
          let (rest, stream) := readChunks stream cancelled count
          (rest.map (chunk ++ ·), stream)

/-- Reads everything that is left. No chunk is empty, so there are fewer chunks than one more than
there are bytes. -/
def readToEnd (stream : AssetStream) (cancelled : Bool) : Except Error (List UInt8) × AssetStream :=
  stream.readChunks cancelled (stream.bytes.length + 1)

/-- Reads chunks, at most some number of them, given before which reads the caller has given up and
how many reads there were before, and says how it ended. -/
def readPieces (stream : AssetStream) (givenUp : Nat → Bool) (before : Nat) :
    Nat → List (List UInt8) × Except Error Unit
  | 0 => ([], .ok ())
  | count + 1 =>
      match stream.readChunk (givenUp before) with
      | (.error error, _) => ([], .error error)
      | (.ok none, _) => ([], .ok ())
      | (.ok (some chunk), stream) =>
          let (chunks, ending) := readPieces stream givenUp (before + 1) count
          (chunk :: chunks, ending)

/-- Reads chunk by chunk up to the end, given before which reads the caller has given up. -/
def pieces (stream : AssetStream) (givenUp : Nat → Bool) : List (List UInt8) × Except Error Unit :=
  stream.readPieces givenUp 0 (stream.bytes.length + 1)

end AssetStream

end IntentRouting
