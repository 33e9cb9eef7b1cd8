import IntentRouting.Content.Operation
import IntentRouting.Permission.History
import IntentRouting.Proofs.Uri.Hierarchy

/-!
# Complete mediation

No operation of a gateway reaches a provider unless the caller is admitted: it has not given up, the
URI is one of content, a provider is installed for it, and the caller has the access that the
operation needs. For most operations this is access to the URI; a call of the provider's own needs
to read the root of what the provider serves. Who is not admitted gets an error that would be the
same over any other providers in the place of those that are installed (`RefusesRegardless`), so
nothing about them can be learned from it, and nothing is changed.
-/

namespace IntentRouting

theorem FileMode.text_of_parse {letters : String} {mode : FileMode}
    (parsed : FileMode.parse letters = .ok mode) : mode.text = letters := by
  rw [FileMode.parse] at parsed
  grind [FileMode.text]

namespace Gateway

section Operations

variable {ρ α : Type} [ContentProvider ρ]

/-- The URI and the modes in which a caller has to be able to use it for an operation. -/
inductive Operation.Needs : {α : Type} → Operation α → Uri → Modes → Prop
  | query {uri : Uri} {projection : Option (List String)} {args : Bundle} {cancelled : Bool} :
      (Operation.query uri projection args cancelled).Needs uri Modes.read
  | streamTypes {uri : Uri} {wanted : String} :
      (Operation.streamTypes uri wanted).Needs uri Modes.read
  | readFile {uri : Uri} {cancelled : Bool} :
      (Operation.openFile uri "r" cancelled).Needs uri Modes.read
  | writeFile {uri : Uri} {letters : String} {cancelled : Bool}
      (writes : letters = "w" ∨ letters = "wa" ∨ letters = "wt") :
      (Operation.openFile uri letters cancelled).Needs uri Modes.write
  | readWriteFile {uri : Uri} {letters : String} {cancelled : Bool}
      (both : letters = "rw" ∨ letters = "rwt") :
      (Operation.openFile uri letters cancelled).Needs uri Modes.readWrite
  | openTyped {uri : Uri} {wanted : String} {options : Bundle} {cancelled : Bool} :
      (Operation.openTyped uri wanted options cancelled).Needs uri Modes.read
  | canonicalize {uri : Uri} : (Operation.canonicalize uri).Needs uri Modes.read
  | uncanonicalize {uri : Uri} : (Operation.uncanonicalize uri).Needs uri Modes.read
  | refresh {uri : Uri} {args : Bundle} {cancelled : Bool} :
      (Operation.refresh uri args cancelled).Needs uri Modes.read
  | insert {uri : Uri} {values extras : Bundle} :
      (Operation.insert uri values extras).Needs uri Modes.write
  | bulkInsert {uri : Uri} {rows : List Bundle} :
      (Operation.bulkInsert uri rows).Needs uri Modes.write
  | update {uri : Uri} {values args : Bundle} :
      (Operation.update uri values args).Needs uri Modes.write
  | delete {uri : Uri} {args : Bundle} : (Operation.delete uri args).Needs uri Modes.write
  | call {uri : Uri} {scheme authority method : String} {arg : Option String} {extras : Bundle}
      (schemed : uri.scheme = some scheme) (named : uri.authority = some authority) :
      (Operation.call uri method arg extras).Needs (Uri.root scheme authority) Modes.read

/-- What an admitted operation asks of the provider. -/
def Operation.serve : Operation α → ρ → Except Error α × ρ
  | .query uri projection args _, state => ContentProvider.query state uri projection args
  | .streamTypes uri wanted, state => (.ok (ContentProvider.streamTypes state uri wanted), state)
  | .openFile uri letters _, state =>
      match FileMode.parse letters with
      | .error cause => (.error (.malformed cause), state)
      | .ok mode => ContentProvider.openFile state uri mode
  | .openTyped uri wanted options _, state => ContentProvider.openTyped state uri wanted options
  | .canonicalize uri, state => (.ok (ContentProvider.canonicalize state uri), state)
  | .uncanonicalize uri, state => (.ok (ContentProvider.uncanonicalize state uri), state)
  | .refresh uri args _, state =>
      let (answer, state) := ContentProvider.refresh state uri args
      (.ok answer, state)
  | .insert uri values extras, state => ContentProvider.insert state uri values extras
  | .bulkInsert uri rows, state => ContentProvider.bulkInsert state uri rows
  | .update uri values args, state => ContentProvider.update state uri values args
  | .delete uri args, state => ContentProvider.delete state uri args
  | .call _ method arg extras, state => ContentProvider.call state method arg extras

/-- Whether an operation cannot change the provider. -/
def Operation.isInspection : Operation α → Bool
  | .streamTypes _ _ | .canonicalize _ | .uncanonicalize _ => true
  | _ => false

/-- The gateway after a provider has served an operation. -/
def afterServing (gateway : Gateway ρ) (operation : Operation α) (installed : InstalledProvider ρ) :
    Gateway ρ :=
  if operation.isInspection then gateway
  else gateway.keep installed (operation.serve installed.state).2

end Operations

section Access

variable {ρ σ : Type} {gateway : Gateway ρ} {caller : Identity} {uri : Uri} {modes : Modes}
  {error : Error} {installed : InstalledProvider ρ}

theorem acquire_eq_ok_iff : gateway.acquire caller uri modes = .ok installed ↔
    uri.isContent = true ∧ gateway.providers.get? (uri.authority.getD "") = some installed ∧
      gateway.authority.check caller uri modes = true := by
  rw [acquire, providerOf]
  grind

theorem acquire_denied (content : uri.isContent = true)
    (found : gateway.providers.get? (uri.authority.getD "") = some installed)
    (denied : gateway.authority.check caller uri modes = false) :
    gateway.acquire caller uri modes =
      .error (.permissionDenied (.accessRequired caller modes uri)) := by
  simp [acquire, providerOf, content, found, denied]

/-- Why access is refused does not depend on what the providers are. -/
theorem acquire_error_congr {other : Gateway σ}
    (sameAuthority : other.authority = gateway.authority)
    (sameInfo : ∀ name, other.info? name = gateway.info? name)
    (refused : gateway.acquire caller uri modes = .error error) :
    other.acquire caller uri modes = .error error := by
  have same := sameInfo (uri.authority.getD "")
  simp only [info?] at same
  simp only [acquire, providerOf, sameAuthority] at refused ⊢
  cases content : uri.isContent with
  | false => simpa [content] using refused
  | true =>
      cases found : gateway.providers.get? (uri.authority.getD "") with
      | none =>
          have absent : other.providers.get? (uri.authority.getD "") = none := by
            simpa [found] using same
          simpa [content, found, absent] using refused
      | some installed =>
          rw [found, Option.map_some, Option.map_eq_some_iff] at same
          rcases same with ⟨otherInstalled, otherFound, _⟩
          simp only [content, found, otherFound, Bool.not_true, Bool.false_eq_true, if_false]
            at refused ⊢
          split at refused
          · cases refused
          · rename_i denied
            cases refused
            rw [if_neg denied]

end Access

section Mediation

variable {ρ α : Type} {gateway : Gateway ρ} {caller : Identity} {target : Uri}
  {modes : Modes} {operation : Operation α} {error : Error}

/-- What is needed is access to what the same provider serves. -/
theorem Operation.Needs.sameProvider (needs : operation.Needs target modes) :
    target.isContent = operation.uri.isContent ∧ target.authority = operation.uri.authority := by
  cases needs with
  | call schemed named =>
      rw [Operation.uri, named, Uri.isContent, Uri.isContent, schemed]
      exact ⟨rfl, rfl⟩
  | _ => exact ⟨rfl, rfl⟩

/-- An operation that nobody has given up asks for what it needs before it reaches the provider. -/
theorem perform_of_needs [ContentProvider ρ] (gateway : Gateway ρ) (read : operation.uri.IsRead)
    (awaited : operation.isCancelled = false) (needs : operation.Needs target modes) :
    gateway.perform caller operation =
      match gateway.acquire caller target modes with
      | .error error => (.error error, gateway)
      | .ok installed =>
          ((operation.serve installed.state).1, gateway.afterServing operation installed) := by
  cases needs with
  | query | readFile | openTyped | refresh =>
      simp only [Operation.isCancelled] at awaited
      rw [awaited]
      rfl
  | streamTypes | canonicalize | uncanonicalize =>
      simp only [perform, Gateway.streamTypes, Gateway.canonicalize, Gateway.uncanonicalize]
      cases gateway.acquire caller target Modes.read with
      | error error => rfl
      | ok installed => rfl
  | writeFile writes =>
      simp only [Operation.isCancelled] at awaited
      rw [awaited]
      rcases writes with rfl | rfl | rfl
      all_goals rfl
  | readWriteFile both =>
      simp only [Operation.isCancelled] at awaited
      rw [awaited]
      rcases both with rfl | rfl
      all_goals rfl
  | insert | bulkInsert | update | delete => rfl
  | call schemed named =>
      have root := read.authorityRoot? schemed named
      simp only [perform, Gateway.call, Operation.uri] at root ⊢
      rw [root]
      rfl

/-- An operation that was given up, or for which no access is enough, is refused everywhere. -/
theorem exists_perform_of_unneeded (caller : Identity) (operation : Operation α)
    (unneeded : operation.isCancelled = true ∨ ∀ target modes, ¬operation.Needs target modes) :
    ∃ error, ∀ {σ : Type} [ContentProvider σ] (other : Gateway σ),
      other.perform caller operation = (.error error, other) := by
  cases operation with
  | query | openTyped | refresh =>
      refine ⟨.cancelled, fun other => ?_⟩
      rcases unneeded with cancelled | unneeded
      · simp only [Operation.isCancelled] at cancelled
        rw [cancelled]
        rfl
      · exact absurd (by constructor) (unneeded _ Modes.read)
  | openFile uri letters cancelled =>
      cases parsed : FileMode.parse letters with
      | error cause =>
          refine ⟨.malformed cause, fun other => ?_⟩
          simp only [perform, Gateway.openFile, parsed]
      | ok mode =>
          have needed : ∃ modes, (Operation.openFile uri letters cancelled).Needs uri modes := by
            rw [← FileMode.text_of_parse parsed]
            cases mode with
            | read => exact ⟨_, .readFile⟩
            | write | writeAppend | writeTruncate => exact ⟨_, .writeFile (by decide)⟩
            | readWrite | readWriteTruncate => exact ⟨_, .readWriteFile (by decide)⟩
          rcases unneeded with given | unneeded
          · simp only [Operation.isCancelled] at given
            refine ⟨.cancelled, fun other => ?_⟩
            simp only [perform, Gateway.openFile, parsed, given]
            rfl
          · rcases needed with ⟨modes, needs⟩
            exact absurd needs (unneeded uri modes)
  | streamTypes | canonicalize | uncanonicalize | insert | bulkInsert | update | delete =>
      rcases unneeded with cancelled | unneeded
      · cases cancelled
      · exact absurd (by constructor) (unneeded _ _)
  | call uri method arg extras =>
      rcases unneeded with cancelled | unneeded
      · cases cancelled
      have rootless : uri.authorityRoot? = none := by
        rw [Uri.authorityRoot?]
        split
        · exact absurd (.call ‹_› ‹_›) (unneeded _ Modes.read)
        · rfl
      refine ⟨.malformed (.withoutAuthority uri.text), fun other => ?_⟩
      simp only [perform, Gateway.call, rootless]

/-- Whether a caller is admitted to a provider with an operation. -/
structure Admits (gateway : Gateway ρ) (caller : Identity) (operation : Operation α)
    (installed : InstalledProvider ρ) : Prop where
  awaited : operation.isCancelled = false
  content : operation.uri.isContent = true
  found : gateway.providers.get? (operation.uri.authority.getD "") = some installed
  checked : ∃ target modes, operation.Needs target modes ∧
    gateway.authority.check caller target modes = true

/-- Whether an operation is refused with an error, and changes nothing, whatever providers stand in
the place of those that are installed. -/
def RefusesRegardless (gateway : Gateway ρ) (caller : Identity) (operation : Operation α)
    (error : Error) : Prop :=
  ∀ {σ : Type} [ContentProvider σ] (other : Gateway σ), other.authority = gateway.authority →
    (∀ name, other.info? name = gateway.info? name) →
      other.perform caller operation = (.error error, other)

theorem refusesRegardless_of_acquire_error (read : operation.uri.IsRead)
    (awaited : operation.isCancelled = false) (needs : operation.Needs target modes)
    (refused : gateway.acquire caller target modes = .error error) :
    gateway.RefusesRegardless caller operation error := by
  intro σ _ other sameAuthority sameInfo
  rw [other.perform_of_needs read awaited needs, acquire_error_congr sameAuthority sameInfo refused]

/-- A provider is reached by those operations to which the caller is admitted, and by no others. -/
theorem perform_mediated [ContentProvider ρ] (gateway : Gateway ρ) (caller : Identity)
    (operation : Operation α) (read : operation.uri.IsRead) :
    (∀ installed, gateway.Admits caller operation installed →
      gateway.perform caller operation =
        ((operation.serve installed.state).1, gateway.afterServing operation installed)) ∧
    ((∀ installed, ¬gateway.Admits caller operation installed) →
      ∃ error, gateway.RefusesRegardless caller operation error) ∧
    ∀ installed target modes, operation.isCancelled = false → operation.uri.isContent = true →
      gateway.providers.get? (operation.uri.authority.getD "") = some installed →
        operation.Needs target modes → gateway.authority.check caller target modes = false →
          gateway.RefusesRegardless caller operation
            (.permissionDenied (.accessRequired caller modes target)) := by
  refine ⟨?_, ?_, ?_⟩
  · rintro installed ⟨awaited, content, found, target, modes, needs, checked⟩
    rcases needs.sameProvider with ⟨sameContent, sameAuthority⟩
    rw [← sameContent] at content
    rw [← sameAuthority] at found
    rw [perform_of_needs gateway read awaited needs, acquire_eq_ok_iff.2 ⟨content, found, checked⟩]
  · intro excluded
    by_cases needed : operation.isCancelled = false ∧ ∃ target modes, operation.Needs target modes
    · rcases needed with ⟨awaited, target, modes, needs⟩
      cases acquired : gateway.acquire caller target modes with
      | error error =>
          exact ⟨error, refusesRegardless_of_acquire_error read awaited needs acquired⟩
      | ok installed =>
          rcases needs.sameProvider with ⟨sameContent, sameAuthority⟩
          rcases acquire_eq_ok_iff.1 acquired with ⟨content, found, checked⟩
          rw [sameContent] at content
          rw [sameAuthority] at found
          exact absurd ⟨awaited, content, found, target, modes, needs, checked⟩
            (excluded installed)
    · have unneeded : operation.isCancelled = true ∨
          ∀ target modes, ¬operation.Needs target modes := by
        simpa [or_iff_not_imp_left] using needed
      rcases exists_perform_of_unneeded caller operation unneeded with ⟨error, refused⟩
      exact ⟨error, fun other _ _ => refused other⟩
  · intro installed target modes awaited content found needs denied
    rcases needs.sameProvider with ⟨sameContent, sameAuthority⟩
    rw [← sameContent] at content
    rw [← sameAuthority] at found
    exact refusesRegardless_of_acquire_error read awaited needs
      (acquire_denied content found denied)

end Mediation

end Gateway

namespace Notes

open Gateway

/-- A provider with one text. -/
structure Notebook where
  text : String

instance : ContentProvider Notebook where
  create notebook := (.ok (), notebook)
  typeOf _ _ := none
  query notebook _ _ _ := (.ok (.ofRows ["text"] [[.string notebook.text]]), notebook)
  insert notebook _ _ _ := (.ok none, notebook)
  update notebook _ _ _ := (.ok 0, notebook)
  delete _ _ _ := (.ok 1, ⟨""⟩)

/-- The notebook in use after the viewer was granted to read the note. -/
def desk : Gateway Notebook :=
  ⟨(start 512).run [.register provider, sharing (GrantFlags.ofModes Modes.read)],
    NameMap.empty.insert "notes" ⟨provider, ⟨"buy milk"⟩⟩⟩

/-- The viewer gets the text of the note, but cannot delete it. -/
theorem viewer_reads_and_cannot_delete :
    note.IsRead ∧
      desk.perform viewer (.query note none .empty false) =
        (.ok (.ofRows ["text"] [[.string "buy milk"]]),
          desk.keep ⟨provider, ⟨"buy milk"⟩⟩ ⟨"buy milk"⟩) ∧
      desk.RefusesRegardless viewer (.delete note .empty)
        (.permissionDenied (.accessRequired viewer Modes.write note)) := by
  have read : note.IsRead := ⟨"content://notes/1", rfl⟩
  have found : desk.providers.get? (note.authority.getD "") = some ⟨provider, ⟨"buy milk"⟩⟩ := rfl
  have checked : desk.authority.check viewer note Modes.read = true := by decide +kernel
  have denied : desk.authority.check viewer note Modes.write = false := by decide +kernel
  have queried := (perform_mediated desk viewer (.query note none .empty false) read).1
  have refused := (perform_mediated desk viewer (.delete note .empty) read).2.2
  exact ⟨read, queried _ ⟨rfl, rfl, found, note, Modes.read, .query, checked⟩,
    refused _ note Modes.write rfl rfl found .delete denied⟩

end Notes

end IntentRouting
