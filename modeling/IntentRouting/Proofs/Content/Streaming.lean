import IntentRouting.Content.Stream

/-!
# What a stream delivers

A caller reads a stream piece by piece and gives up before some read, or never. Whether it has given up
is then a matter of how many reads there were before (`givesUpAt`), and every read after that moment sees
it.

A stream of rows delivers a part of its rows from the front and then stops: once because the caller has
given up, or because there are no more (`RowStream.delivers_in_order`). A stream of bytes delivers chunks
that are never empty, so reading to the end comes to an end, and nothing is lost between two ways of
reading (`AssetStream.delivers_all_bytes`). Loops of reads deliver what the reads deliver one by one,
also if the caller gives up on the way (`RowStream.readToEnd_eq`, `AssetStream.readPieces_eq`).
-/

namespace IntentRouting

/-- Whether the caller has given up before a read, given before which one it did. -/
def givesUpAt (moment : Option Nat) (read : Nat) : Bool := moment.any (· ≤ read)

theorem givesUpAt_eq_false_iff {moment : Option Nat} {read : Nat} :
    givesUpAt moment read = false ↔ ∀ first ∈ moment, read < first := by
  cases moment <;> simp [givesUpAt]

theorem not_late_of_givesUpAt {moment : Option Nat} {read : Nat} (given : givesUpAt moment read = true)
    (more : Nat) : ¬ ∀ first ∈ moment, read + more < first := by
  intro late
  have unnoticed : givesUpAt moment read = false := givesUpAt_eq_false_iff.2 fun first member =>
    Nat.lt_of_le_of_lt (Nat.le_add_right read more) (late first member)
  rw [given] at unnoticed
  cases unnoticed

theorem givesUpAt_of_le {moment : Option Nat} {first read : Nat} (given : first ∈ moment)
    (later : first ≤ read) : givesUpAt moment read = true := by
  cases given
  simpa [givesUpAt] using later

namespace RowStream

variable {stream after : RowStream} {columns : List String} {extras : Bundle}
  {rows : List (Except Error Row)} {cancelled : Bool} {givenUp : Nat → Bool} {moment : Option Nat}
  {before : Nat}

section Reads

/-- A stream after some number of reads, given before which reads the caller has given up. -/
def afterReads (stream : RowStream) (givenUp : Nat → Bool) : Nat → RowStream
  | 0 => stream
  | count + 1 => ((stream.afterReads givenUp count).next (givenUp count)).2

/-- What a read answers, given how many reads there were before. -/
def answer (stream : RowStream) (givenUp : Nat → Bool) (before : Nat) : Option (Except Error Row) :=
  ((stream.afterReads givenUp before).next (givenUp before)).1

theorem next_of_finished (finished : stream.finished = true) : stream.next cancelled = (none, stream) := by
  rw [next, if_pos finished]

theorem next_of_cancelled (unfinished : stream.finished = false) :
    stream.next true = (some (.error .cancelled), { stream with finished := true }) := by
  simp [next, unfinished]

/-- The stream of some rows after some number of reads, each of which has taken a row or found the end. -/
def leftAfter (columns : List String) (extras : Bundle) (rows : List (Except Error Row)) (reads : Nat) :
    RowStream :=
  ⟨columns, extras, rows.drop reads, decide (rows.length < reads)⟩

/-- A read of a patient caller answers with the row in its place. -/
theorem next_leftAfter (reads : Nat) : (leftAfter columns extras rows reads).next false =
    (rows[reads]?, leftAfter columns extras rows (reads + 1)) := by
  rcases Nat.lt_trichotomy rows.length reads with ended | atEnd | more
  · have before : rows.length ≤ reads := Nat.le_of_lt ended
    rw [next_of_finished (by simpa [leftAfter] using ended), List.getElem?_eq_none before]
    simp [leftAfter, ended, Nat.lt_succ_of_lt ended, List.drop_eq_nil_of_le before,
      List.drop_eq_nil_of_le (Nat.le_succ_of_le before)]
  · simp [leftAfter, next, ← atEnd]
  · have unfinished : ¬ rows.length < reads := Nat.not_lt_of_lt more
    have goesOn : ¬ rows.length < reads + 1 := Nat.not_lt.2 more
    rw [List.getElem?_eq_getElem more, leftAfter, next, List.drop_eq_getElem_cons more]
    simp [leftAfter, unfinished, goesOn]

theorem afterReads_eq_leftAfter (patient : ∀ read < before, givenUp read = false) :
    (RowStream.mk columns extras rows false).afterReads givenUp before =
      leftAfter columns extras rows before := by
  induction before with
  | zero => simp [afterReads, leftAfter]
  | succ before ih =>
      have earlier := ih fun read less => patient read (Nat.lt_succ_of_lt less)
      rw [afterReads, earlier, patient before (Nat.lt_succ_self before), next_leftAfter]

theorem answer_eq_getElem? (patient : ∀ read ≤ before, givenUp read = false) :
    (RowStream.mk columns extras rows false).answer givenUp before = rows[before]? := by
  rw [answer, afterReads_eq_leftAfter fun read less => patient read (Nat.le_of_lt less),
    patient before (Nat.le_refl before), next_leftAfter]

theorem answer_of_finished {earlier : Nat}
    (finished : (stream.afterReads givenUp earlier).finished = true) (later : earlier ≤ before) :
    stream.answer givenUp before = none := by
  have stays : (stream.afterReads givenUp before).finished = true := by
    induction later with
    | refl => exact finished
    | step _ ih =>
        rw [afterReads, next_of_finished ih]
        exact ih
  rw [answer, next_of_finished stays]

/-- The first read after the caller has given up says so, unless the end has been found before. After
that the stream has ended. -/
theorem answer_at_moment (given : before ∈ moment) :
    (RowStream.mk columns extras rows false).answer (givesUpAt moment) before =
        (if rows.length < before then none else some (.error .cancelled)) ∧
      ((RowStream.mk columns extras rows false).afterReads (givesUpAt moment) (before + 1)).finished =
        true := by
  have patient : ∀ read < before, givesUpAt moment read = false := by
    cases given
    simp [givesUpAt]
  rw [answer, afterReads, afterReads_eq_leftAfter patient, givesUpAt_of_le given (Nat.le_refl before)]
  by_cases ended : rows.length < before
  · have finished : (leftAfter columns extras rows before).finished = true := decide_eq_true ended
    rw [next_of_finished finished, if_pos ended]
    exact ⟨rfl, finished⟩
  · rw [next_of_cancelled (decide_eq_false ended), if_neg ended]
    exact ⟨rfl, rfl⟩

end Reads

section Draining

/-- How many reads a stream answers at most. -/
def remaining (stream : RowStream) : Nat := if stream.finished then 0 else stream.rows.length + 1

theorem remaining_lt_of_next {row : Except Error Row} (read : stream.next cancelled = (some row, after)) :
    after.remaining < stream.remaining := by
  rw [next] at read
  split at read
  · cases read
  rename_i unfinished
  split at read
  · cases read
    simp [remaining, unfinished]
  · split at read
    · cases read
    · rename_i taken
      cases read
      simp [remaining, unfinished, taken]

theorem finished_of_next (ended : stream.next cancelled = (none, after)) : after.finished = true := by
  rw [next] at ended
  split at ended
  · rename_i finished
    cases ended
    exact finished
  · split at ended
    · cases ended
    · split at ended <;> cases ended
      rfl

/-- Reading some rows in a row is reading them one by one until a read finds the end. -/
theorem readRows_eq {count : Nat} (enough : (stream.afterReads givenUp before).remaining < count) :
    let reading := (stream.afterReads givenUp before).readRows givenUp before count
    (∀ read, reading.1[read]? = stream.answer givenUp (before + read)) ∧
      reading.2 = stream.afterReads givenUp (before + reading.1.length + 1) := by
  induction count generalizing before with
  | zero => cases enough
  | succ count ih =>
      rcases step : (stream.afterReads givenUp before).next (givenUp before) with ⟨found, after⟩
      have answered : stream.answer givenUp before = found := congrArg Prod.fst step
      have later : stream.afterReads givenUp (before + 1) = after := congrArg Prod.snd step
      rw [readRows, step]
      cases found with
      | none =>
          refine ⟨fun read => ?_, later.symm⟩
          have finished := finished_of_next step
          cases read with
          | zero => exact answered.symm
          | succ read => exact (answer_of_finished (later ▸ finished) (by omega)).symm
      | some row =>
          have shorter := remaining_lt_of_next step
          rcases @ih (before + 1) (by rw [later]; omega) with ⟨answers, left⟩
          rw [later] at answers left
          refine ⟨fun read => ?_, ?_⟩
          · cases read with
            | zero => exact answered.symm
            | succ read =>
                have place : before + (read + 1) = before + 1 + read := by omega
                rw [place]
                exact answers read
          · rw [left, List.length_cons]
            congr 1
            omega

/-- Reading to the end answers what the reads answer one by one, the caller giving up before some of
them, and misses none. -/
theorem readToEnd_eq (stream : RowStream) (givenUp : Nat → Bool) :
    (∀ read, (stream.readToEnd givenUp).1[read]? = stream.answer givenUp read) ∧
      (stream.readToEnd givenUp).2 =
        stream.afterReads givenUp ((stream.readToEnd givenUp).1.length + 1) := by
  have enough : (stream.afterReads givenUp 0).remaining < stream.rows.length + 2 := by
    rw [afterReads, remaining]
    split <;> omega
  have reading := readRows_eq enough
  simp only [Nat.zero_add] at reading
  exact reading

/-- Reads rows up to the end or the first error, given before which reads the caller has given up and how
many reads there were before. -/
def drain (stream : RowStream) (givenUp : Nat → Bool) (before : Nat) : Except Error (List Row) :=
  match read : stream.next (givenUp before) with
  | (none, _) => .ok []
  | (some (.error error), _) => .error error
  | (some (.ok row), after) => (after.drain givenUp (before + 1)).map (row :: ·)
termination_by stream.remaining
decreasing_by exact remaining_lt_of_next read

theorem drain_of_none (read : stream.next (givenUp before) = (none, after)) :
    stream.drain givenUp before = .ok [] := by
  rw [drain]
  split <;> simp_all

theorem drain_of_error {error : Error}
    (read : stream.next (givenUp before) = (some (.error error), after)) :
    stream.drain givenUp before = .error error := by
  rw [drain]
  split <;> simp_all

theorem drain_of_ok {row : Row} (read : stream.next (givenUp before) = (some (.ok row), after)) :
    stream.drain givenUp before = (after.drain givenUp (before + 1)).map (row :: ·) := by
  rw [drain]
  split <;> simp_all

theorem drain_of_givenUp (unfinished : stream.finished = false) (impatient : givenUp before = true) :
    stream.drain givenUp before = .error .cancelled := by
  have cancelled := next_of_cancelled unfinished
  rw [← impatient] at cancelled
  exact drain_of_error cancelled

/-- The next row of a caller that has not given up decides how draining goes on. -/
theorem drain_cons (row : Except Error Row) (patient : givenUp before = false) :
    (RowStream.mk columns extras (row :: rows) false).drain givenUp before = row.bind fun row =>
      ((RowStream.mk columns extras rows false).drain givenUp (before + 1)).map (row :: ·) := by
  have taken : (RowStream.mk columns extras (row :: rows) false).next (givenUp before) =
      (some row, ⟨columns, extras, rows, false⟩) := by
    rw [patient]
    rfl
  cases row with
  | error error => exact drain_of_error taken
  | ok row => exact drain_of_ok taken

theorem drain_nil (patient : givenUp before = false) :
    (RowStream.mk columns extras [] false).drain givenUp before = .ok [] := by
  have ended : (RowStream.mk columns extras [] false).next (givenUp before) =
      (none, ⟨columns, extras, [], true⟩) := by
    rw [patient]
    rfl
  exact drain_of_none ended

/-- What is drained of a stream is what is collected of it, if the caller has given up before or never
does. -/
theorem drain_const (stream : RowStream) (cancelled : Bool) (before : Nat) :
    stream.drain (fun _ => cancelled) before = stream.collect cancelled := by
  rcases stream with ⟨columns, extras, rows, _ | _⟩
  · cases cancelled with
    | true => exact drain_of_givenUp rfl rfl
    | false =>
        induction rows generalizing before with
        | nil => exact drain_nil rfl
        | cons row rows ih =>
            rw [drain_cons row rfl, ih]
            cases row <;> rfl
  · exact drain_of_none (next_of_finished rfl)

theorem drain_eq_ok_iff_of_givenUp {all : List Row} (given : givesUpAt moment before = true) :
    (RowStream.mk columns extras rows false).drain (givesUpAt moment) before = .ok all ↔
      rows = all.map .ok ∧ ∀ first ∈ moment, before + rows.length < first := by
  have early := not_late_of_givesUpAt given rows.length
  simp only [drain_of_givenUp _ given, early, and_false, reduceCtorEq]

/-- All rows are there in the end exactly if none of them is an error and the caller does not give up before
the read that finds the end. -/
theorem drain_eq_ok_iff {all : List Row} :
    (RowStream.mk columns extras rows false).drain (givesUpAt moment) before = .ok all ↔
      rows = all.map .ok ∧ ∀ first ∈ moment, before + rows.length < first := by
  induction rows generalizing before all with
  | nil =>
      cases given : givesUpAt moment before with
      | true => exact drain_eq_ok_iff_of_givenUp given
      | false =>
          have late := givesUpAt_eq_false_iff.1 given
          rw [drain_nil given]
          simpa [eq_comm] using fun _ => late
  | cons row rows ih =>
      cases given : givesUpAt moment before with
      | true => exact drain_eq_ok_iff_of_givenUp given
      | false =>
          rw [drain_cons row given]
          cases row with
          | error error => cases all <;> simp [Except.bind]
          | ok row =>
              have mapped (rest : Except Error (List Row)) :
                  rest.map (row :: ·) = .ok all ↔ ∃ more, rest = .ok more ∧ row :: more = all := by
                cases rest <;> simp [Except.map]
              have length : before + (rows.length + 1) = before + 1 + rows.length := by
                omega
              rw [Except.bind, mapped, List.length_cons, length]
              constructor
              · rintro ⟨more, drained, rfl⟩
                rcases ih.1 drained with ⟨rfl, late⟩
                exact ⟨rfl, late⟩
              · rintro ⟨same, late⟩
                cases all with
                | nil => cases same
                | cons first more =>
                    rw [List.map_cons, List.cons.injEq, Except.ok.injEq] at same
                    exact ⟨more, ih.2 ⟨same.2, late⟩, congrArg (· :: more) same.1⟩

end Draining

/-- Until the caller gives up, the reads answer with the rows in their order, and with nothing after the
last one. The first read after that answers that it was cancelled, unless an earlier one has found the end,
and no later read answers with anything. So all rows are collected exactly if none of them is an error and
the end is found before the caller gives up. -/
theorem delivers_in_order (columns : List String) (extras : Bundle) (rows : List (Except Error Row))
    (moment : Option Nat) :
    let stream : RowStream := ⟨columns, extras, rows, false⟩
    let answer := stream.answer (givesUpAt moment)
    (∀ read, (∀ first ∈ moment, read < first) → answer read = rows[read]?) ∧
    (∀ first ∈ moment,
      ((∀ read < first, answer read ≠ none) → answer first = some (.error .cancelled)) ∧
      ((∃ read < first, answer read = none) → answer first = none) ∧
      ∀ read, first < read → answer read = none) ∧
    (∀ all, stream.drain (givesUpAt moment) 0 = .ok all ↔
      rows = all.map .ok ∧ ∀ first ∈ moment, rows.length < first) ∧
    ∀ cancelled, stream.drain (fun _ => cancelled) 0 = stream.collect cancelled := by
  intro stream answer
  have inOrder (read : Nat) (early : ∀ first ∈ moment, read < first) : answer read = rows[read]? := by
    apply answer_eq_getElem?
    intro earlier less
    exact givesUpAt_eq_false_iff.2 fun first given => Nat.lt_of_le_of_lt less (early first given)
  refine ⟨inOrder, ?_, fun all => ?_, fun cancelled => drain_const stream cancelled 0⟩
  · intro first given
    obtain ⟨atMoment, finished⟩ :
        answer first = (if rows.length < first then none else some (.error .cancelled)) ∧
          (stream.afterReads (givesUpAt moment) (first + 1)).finished = true :=
      answer_at_moment given
    have before (read : Nat) (less : read < first) : answer read = rows[read]? := by
      apply inOrder read
      cases given
      simpa using less
    refine ⟨fun unended => ?_, fun ⟨read, less, ended⟩ => ?_, fun read later => ?_⟩
    · have reached : ¬ rows.length < first := by
        intro less
        apply unended rows.length less
        rw [before rows.length less, List.getElem?_eq_none (Nat.le_refl _)]
      exact atMoment.trans (if_neg reached)
    · rw [before read less, List.getElem?_eq_none_iff] at ended
      exact atMoment.trans (if_pos (Nat.lt_of_le_of_lt ended less))
    · exact answer_of_finished finished later
  · have drained : stream.drain (givesUpAt moment) 0 = .ok all ↔
        rows = all.map .ok ∧ ∀ first ∈ moment, 0 + rows.length < first := drain_eq_ok_iff
    simpa using drained

end RowStream

namespace AssetStream

variable {stream after final : AssetStream} {cancelled : Bool} {chunk bytes : List UInt8}
  {result : Except Error (List UInt8)} {mimeType : Option String} {size : Nat}

section Chunks

/-- The chunks that some number of reads in a row return, and the stream after them. -/
def readTimes (stream : AssetStream) : Nat → List (List UInt8) × AssetStream
  | 0 => ([], stream)
  | count + 1 =>
      match stream.readChunk false with
      | (.ok (some chunk), after) => (chunk :: (after.readTimes count).1, (after.readTimes count).2)
      | (_, after) => after.readTimes count

theorem readChunk_nil : (AssetStream.mk mimeType [] none size).readChunk false =
    (.ok none, ⟨mimeType, [], none, size⟩) := rfl

theorem readChunk_of_ne_nil (someByte : bytes ≠ []) :
    (AssetStream.mk mimeType bytes none size).readChunk false =
      (.ok (some (bytes.take size)), ⟨mimeType, bytes.drop size, none, size⟩) := by
  simp [readChunk, someByte]

/-- A chunk is taken from the front of the bytes, and there is at least one byte in it. -/
theorem of_readChunk (read : stream.readChunk cancelled = (.ok (some chunk), after)) :
    stream.bytes ≠ [] ∧ chunk = stream.bytes.take stream.chunkSize ∧
      after = { stream with bytes := stream.bytes.drop stream.chunkSize } := by
  rw [readChunk] at read
  split at read
  · cases read
  split at read
  · split at read <;> cases read
  · rename_i someByte
    cases read
    exact ⟨by simpa using someByte, rfl, rfl⟩

theorem length_lt_of_readChunk (positive : 0 < stream.chunkSize)
    (read : stream.readChunk cancelled = (.ok (some chunk), after)) :
    after.bytes.length < stream.bytes.length := by
  rcases of_readChunk read with ⟨someByte, _, rfl⟩
  have length := List.length_pos_iff.2 someByte
  simp only [List.length_drop]
  omega

theorem readTimes_nil (count : Nat) : (AssetStream.mk mimeType [] none size).readTimes count =
    ([], ⟨mimeType, [], none, size⟩) := by
  induction count with
  | zero => rfl
  | succ count ih =>
      rw [readTimes, readChunk_nil]
      exact ih

/-- The chunks that some reads return, with what they leave behind them. -/
structure Delivered (bytes : List UInt8) (size reads : Nat) (chunks : List (List UInt8))
    (left : List UInt8) : Prop where
  whole : chunks.flatten ++ left = bytes
  sizes : ∀ chunk ∈ chunks, 1 ≤ chunk.length ∧ chunk.length ≤ size
  /-- As long as something is left, every read returns a chunk. -/
  each : left ≠ [] → chunks.length = reads

theorem exists_delivered (positive : 0 < size) (bytes : List UInt8) (count : Nat) :
    ∃ chunks left, (AssetStream.mk mimeType bytes none size).readTimes count =
        (chunks, ⟨mimeType, left, none, size⟩) ∧ Delivered bytes size count chunks left := by
  induction count generalizing bytes with
  | zero => exact ⟨[], bytes, rfl, rfl, by simp, fun _ => rfl⟩
  | succ count ih =>
      by_cases nothing : bytes = []
      · cases nothing
        exact ⟨[], [], readTimes_nil (count + 1), rfl, by simp, by simp⟩
      · rcases ih (bytes.drop size) with ⟨chunks, left, read, delivered⟩
        have length := List.length_pos_iff.2 nothing
        refine ⟨bytes.take size :: chunks, left, ?_, ?_, ?_, ?_⟩
        · rw [readTimes, readChunk_of_ne_nil nothing]
          simp only [read]
        · rw [List.flatten_cons, List.append_assoc, delivered.whole, List.take_append_drop]
        · rw [List.forall_mem_cons, List.length_take]
          exact ⟨by omega, delivered.sizes⟩
        · intro someLeft
          rw [List.length_cons, delivered.each someLeft]

end Chunks

section End

/-- Reading chunk after chunk until there are no more of them or a read fails, however many reads it takes.
-/
inductive ReadsOut (cancelled : Bool) : AssetStream → Except Error (List UInt8) → AssetStream → Prop
  | failed {stream after : AssetStream} {error : Error}
      (read : stream.readChunk cancelled = (.error error, after)) :
      ReadsOut cancelled stream (.error error) after
  | ended {stream after : AssetStream} (read : stream.readChunk cancelled = (.ok none, after)) :
      ReadsOut cancelled stream (.ok []) after
  | goesOn {stream after final : AssetStream} {chunk : List UInt8} {rest : Except Error (List UInt8)}
      (read : stream.readChunk cancelled = (.ok (some chunk), after))
      (more : ReadsOut cancelled after rest final) :
      ReadsOut cancelled stream (rest.map (chunk ++ ·)) final

theorem ReadsOut.readChunks_eq (out : ReadsOut cancelled stream result final)
    (positive : 0 < stream.chunkSize) {count : Nat} (enough : stream.bytes.length < count) :
    stream.readChunks cancelled count = (result, final) := by
  induction out generalizing count with
  | failed read =>
      cases count with
      | zero => cases enough
      | succ count => rw [readChunks, read]
  | ended read =>
      cases count with
      | zero => cases enough
      | succ count => rw [readChunks, read]
  | goesOn read more ih =>
      cases count with
      | zero => cases enough
      | succ count =>
          have shorter := length_lt_of_readChunk positive read
          have sameSize := congrArg chunkSize (of_readChunk read).2.2
          have rest := ih (sameSize ▸ positive) (Nat.lt_of_lt_of_le shorter (Nat.le_of_lt_succ enough))
          rw [readChunks, read]
          simp only [rest]

/-- Reading to the end takes no more reads than it is given. -/
theorem ReadsOut.readToEnd_eq (out : ReadsOut cancelled stream result final)
    (positive : 0 < stream.chunkSize) : stream.readToEnd cancelled = (result, final) :=
  out.readChunks_eq positive (Nat.lt_succ_self _)

/-- Every stream without a fault is read to its end. -/
theorem readsOut_bytes (positive : 0 < size) (bytes : List UInt8) :
    ReadsOut false ⟨mimeType, bytes, none, size⟩ (.ok bytes) ⟨mimeType, [], none, size⟩ := by
  induction length : bytes.length using Nat.strongRecOn generalizing bytes with
  | _ n ih =>
      by_cases nothing : bytes = []
      · cases nothing
        exact .ended readChunk_nil
      · have read : (AssetStream.mk mimeType bytes none size).readChunk false =
            (.ok (some (bytes.take size)), ⟨mimeType, bytes.drop size, none, size⟩) :=
          readChunk_of_ne_nil nothing
        have shorter : (bytes.drop size).length < bytes.length := length_lt_of_readChunk positive read
        have out := ReadsOut.goesOn read (ih _ (length ▸ shorter) _ rfl)
        rw [Except.map, List.take_append_drop] at out
        exact out

/-- Only a caller that has not given up gets a chunk. -/
theorem not_cancelled_of_readChunk (read : stream.readChunk cancelled = (.ok (some chunk), after)) :
    cancelled = false := by
  cases cancelled with
  | false => rfl
  | true => cases read

/-- The pieces of a stream are the chunks of as many reads in a row, and the read after them returns
none: it finds the end, or it says why there is nothing to be had. -/
theorem readPieces_eq {givenUp : Nat → Bool} {before count : Nat} (positive : 0 < stream.chunkSize)
    (enough : stream.bytes.length < count) :
    let reading := stream.readPieces givenUp before count
    let reads := stream.readTimes reading.1.length
    reads.1 = reading.1 ∧
      (reads.2.readChunk (givenUp (before + reading.1.length))).1 = reading.2.map fun _ => none := by
  induction count generalizing stream before with
  | zero => cases enough
  | succ count ih =>
      rw [readPieces]
      rcases read : stream.readChunk (givenUp before) with ⟨error | _ | chunk, after⟩
      · exact ⟨rfl, congrArg Prod.fst read⟩
      · exact ⟨rfl, congrArg Prod.fst read⟩
      · have shorter := length_lt_of_readChunk positive read
        have sameSize := congrArg chunkSize (of_readChunk read).2.2
        rcases @ih after (before + 1) (sameSize ▸ positive)
          (Nat.lt_of_lt_of_le shorter (Nat.le_of_lt_succ enough)) with ⟨chunks, ending⟩
        rw [not_cancelled_of_readChunk read] at read
        simp only [List.length_cons, readTimes, read]
        refine ⟨congrArg (chunk :: ·) chunks, ?_⟩
        rw [← ending]
        congr 3
        omega

/-- A caller that reads piece by piece has a part of the bytes from the front. It has all of them,
unless it has given up, and then that is what the last read says. -/
theorem delivered_pieces (positive : 0 < size) (bytes : List UInt8) (givenUp : Nat → Bool) :
    let reading := (AssetStream.mk mimeType bytes none size).pieces givenUp
    ∃ left, Delivered bytes size reading.1.length reading.1 left ∧
      (givenUp reading.1.length = true → reading.2 = .error .cancelled) ∧
      (givenUp reading.1.length = false → reading.2 = .ok () ∧ left = []) := by
  intro reading
  obtain ⟨chunks, ending⟩ :
      ((AssetStream.mk mimeType bytes none size).readTimes reading.1.length).1 = reading.1 ∧
        (((AssetStream.mk mimeType bytes none size).readTimes reading.1.length).2.readChunk
          (givenUp (0 + reading.1.length))).1 = reading.2.map fun _ => none :=
    readPieces_eq positive (Nat.lt_succ_self _)
  rcases exists_delivered positive bytes reading.1.length with ⟨chunks', left, read, delivered⟩
  rw [read] at chunks ending
  obtain rfl : chunks' = reading.1 := chunks
  rw [Nat.zero_add] at ending
  refine ⟨left, delivered, fun given => ?_, fun patient => ?_⟩
  · rw [given] at ending
    generalize reading.2 = result at ending ⊢
    cases result <;> cases ending
    rfl
  · rw [patient] at ending
    generalize reading.2 = result at ending ⊢
    by_cases nothing : left = []
    · cases nothing
      cases result <;> cases ending
      exact ⟨rfl, rfl⟩
    · rw [readChunk_of_ne_nil nothing] at ending
      cases result <;> cases ending

/-- After any number of reads, the chunks that they returned are a part of the bytes from the front, none of
them empty or longer than what was asked for, or than one byte. Reading to the end then comes to an end with
exactly the other bytes, and after it there is no chunk. Once the caller has given up, every way of reading
says so and leaves the stream as it is. -/
theorem delivers_all_bytes (bytes : List UInt8) (size reads : Nat) :
    let stream := (ofBytes bytes).withChunkSize size
    (∃ chunks left after final, stream.readTimes reads = (chunks, after) ∧
      Delivered bytes (max 1 size) reads chunks left ∧
      ReadsOut false after (.ok left) final ∧ after.readToEnd false = (.ok left, final) ∧
      final.readChunk false = (.ok none, final)) ∧
    ∀ stream : AssetStream, stream.readChunk true = (.error .cancelled, stream) ∧
      stream.readToEnd true = (.error .cancelled, stream) := by
  have positive : 0 < max 1 size := by
    omega
  have sized : (ofBytes bytes).withChunkSize size = ⟨none, bytes, none, max 1 size⟩ := by
    rw [Nat.max_comm]
    rfl
  refine ⟨?_, fun _ => ⟨rfl, rfl⟩⟩
  rw [sized]
  obtain ⟨chunks, left, read, delivered⟩ :
      ∃ chunks left, (AssetStream.mk none bytes none (max 1 size)).readTimes reads =
          (chunks, ⟨none, left, none, max 1 size⟩) ∧
        Delivered bytes (max 1 size) reads chunks left :=
    exists_delivered positive bytes reads
  have out : ReadsOut false ⟨none, left, none, max 1 size⟩ (.ok left) ⟨none, [], none, max 1 size⟩ :=
    readsOut_bytes positive left
  exact ⟨chunks, left, _, _, read, delivered, out, out.readToEnd_eq positive, rfl⟩

/-- Two chunks of two bytes leave one byte. -/
example : ((ofBytes [1, 2, 3, 4, 5]).withChunkSize 2).readTimes 2 =
    ([[1, 2], [3, 4]], ⟨none, [5], none, 2⟩) := by
  rfl

end End

end AssetStream

end IntentRouting
