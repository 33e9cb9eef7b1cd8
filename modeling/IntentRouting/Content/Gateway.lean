import IntentRouting.Content.Provider
import IntentRouting.Permission.Authority

/-!
# The gateway

Every use of a provider goes through the gateway, which names the caller. It finds the provider of
the URI, asks the authority whether the caller has the access that the operation needs, and only
then runs the operation. A caller that has given up is refused before that.
-/

namespace IntentRouting

/-- A provider in use. -/
structure InstalledProvider (ρ : Type) where
  info : ProviderInfo
  state : ρ

/-- The providers in use, and the authority on access to them. -/
structure Gateway (ρ : Type) where
  authority : Authority
  providers : NameMap (InstalledProvider ρ)

namespace Gateway

variable {ρ : Type} [ContentProvider ρ]

def new (authority : Authority) : Gateway ρ := ⟨authority, .empty⟩

/-- Takes a provider into use, once it is created. -/
def install (gateway : Gateway ρ) (info : ProviderInfo) (state : ρ) :
    Except Error Unit × Gateway ρ :=
  if gateway.providers.contains info.authority then
    (.error (.conflict (.authorityTaken info.authority)), gateway)
  else
    match ContentProvider.create state with
    | (.error error, _) => (.error error, gateway)
    | (.ok (), state) =>
        (.ok (), ⟨gateway.authority.register info,
          gateway.providers.insert info.authority ⟨info, state⟩⟩)

/-- Takes a provider out of use; the grants on its resources stay. -/
def remove (gateway : Gateway ρ) (name : String) : Option ProviderInfo × Gateway ρ :=
  match gateway.providers.get? name with
  | none => (none, gateway)
  | some installed =>
      (some installed.info,
        ⟨gateway.authority.unregister name, gateway.providers.erase name⟩)

def info? (gateway : Gateway ρ) (name : String) : Option ProviderInfo :=
  (gateway.providers.get? name).map (·.info)

/-- The authorities of the providers in use, in order. -/
def authorities (gateway : Gateway ρ) : List String := gateway.providers.names

def providerOf (gateway : Gateway ρ) (uri : Uri) : Except Error (InstalledProvider ρ) :=
  if !uri.isContent then .error (.malformed (.notContent uri.text))
  else
    let name := uri.authority.getD ""
    match gateway.providers.get? name with
    | some installed => .ok installed
    | none => .error (.notFound (.provider name))

/-- The provider of a URI, if a caller may use the URI in some modes. -/
def acquire (gateway : Gateway ρ) (caller : Identity) (uri : Uri) (modes : Modes) :
    Except Error (InstalledProvider ρ) :=
  match gateway.providerOf uri with
  | .error error => .error error
  | .ok installed =>
      if gateway.authority.check caller uri modes then .ok installed
      else .error (.permissionDenied (.accessRequired caller modes uri))

/-- Keeps the state of a provider after an operation. -/
def keep (gateway : Gateway ρ) (installed : InstalledProvider ρ) (state : ρ) : Gateway ρ :=
  { gateway with
    providers := gateway.providers.insert installed.info.authority { installed with state } }

/-- Runs an operation of the provider of a URI, if a caller may use the URI in some modes. -/
def run {α : Type} (gateway : Gateway ρ) (caller : Identity) (uri : Uri) (modes : Modes)
    (operation : ρ → Except Error α × ρ) : Except Error α × Gateway ρ :=
  match gateway.acquire caller uri modes with
  | .error error => (.error error, gateway)
  | .ok installed =>
      let (answer, state) := operation installed.state
      (answer, gateway.keep installed state)

/-- Runs an operation, unless the caller has given up. -/
def runUnlessCancelled {α : Type} (gateway : Gateway ρ) (cancelled : Bool) (caller : Identity)
    (uri : Uri) (modes : Modes) (operation : ρ → Except Error α × ρ) :
    Except Error α × Gateway ρ :=
  if cancelled then (.error .cancelled, gateway) else gateway.run caller uri modes operation

/-! ## Reading -/

def query (gateway : Gateway ρ) (caller : Identity) (uri : Uri) (projection : Option (List String))
    (args : Bundle) (cancelled : Bool) : Except Error RowStream × Gateway ρ :=
  gateway.runUnlessCancelled cancelled caller uri Modes.read
    fun state => ContentProvider.query state uri projection args

/-- The type of the data of a URI; everybody may ask for it. -/
def typeOf (gateway : Gateway ρ) (uri : Uri) : Option String :=
  match gateway.providerOf uri with
  | .error _ => none
  | .ok installed => ContentProvider.typeOf installed.state uri

/-- The types in which a URI can be opened as a stream. -/
def streamTypes (gateway : Gateway ρ) (caller : Identity) (uri : Uri) (wanted : String) :
    Except Error (List String) :=
  (gateway.acquire caller uri Modes.read).map fun installed =>
    ContentProvider.streamTypes installed.state uri wanted

def openFile (gateway : Gateway ρ) (caller : Identity) (uri : Uri) (letters : String)
    (cancelled : Bool) : Except Error AssetStream × Gateway ρ :=
  match FileMode.parse letters with
  | .error cause => (.error (.malformed cause), gateway)
  | .ok mode =>
      gateway.runUnlessCancelled cancelled caller uri mode.access
        fun state => ContentProvider.openFile state uri mode

def openTyped (gateway : Gateway ρ) (caller : Identity) (uri : Uri) (wanted : String)
    (options : Bundle) (cancelled : Bool) : Except Error AssetStream × Gateway ρ :=
  gateway.runUnlessCancelled cancelled caller uri Modes.read
    fun state => ContentProvider.openTyped state uri wanted options

def canonicalize (gateway : Gateway ρ) (caller : Identity) (uri : Uri) :
    Except Error (Option Uri) :=
  (gateway.acquire caller uri Modes.read).map fun installed =>
    ContentProvider.canonicalize installed.state uri

def uncanonicalize (gateway : Gateway ρ) (caller : Identity) (uri : Uri) : Except Error Uri :=
  (gateway.acquire caller uri Modes.read).map fun installed =>
    ContentProvider.uncanonicalize installed.state uri

def refresh (gateway : Gateway ρ) (caller : Identity) (uri : Uri) (args : Bundle)
    (cancelled : Bool) : Except Error Bool × Gateway ρ :=
  gateway.runUnlessCancelled cancelled caller uri Modes.read fun state =>
    let (answer, state) := ContentProvider.refresh state uri args
    (.ok answer, state)

/-! ## Writing -/

def insert (gateway : Gateway ρ) (caller : Identity) (uri : Uri) (values extras : Bundle) :
    Except Error (Option Uri) × Gateway ρ :=
  gateway.run caller uri Modes.write fun state => ContentProvider.insert state uri values extras

def bulkInsert (gateway : Gateway ρ) (caller : Identity) (uri : Uri) (rows : List Bundle) :
    Except Error Nat × Gateway ρ :=
  gateway.run caller uri Modes.write fun state => ContentProvider.bulkInsert state uri rows

def update (gateway : Gateway ρ) (caller : Identity) (uri : Uri) (values args : Bundle) :
    Except Error Nat × Gateway ρ :=
  gateway.run caller uri Modes.write fun state => ContentProvider.update state uri values args

def delete (gateway : Gateway ρ) (caller : Identity) (uri : Uri) (args : Bundle) :
    Except Error Nat × Gateway ρ :=
  gateway.run caller uri Modes.write fun state => ContentProvider.delete state uri args

/-- Runs an operation of the provider's own, for which the caller has to be able to read everything
that the provider serves. -/
def call (gateway : Gateway ρ) (caller : Identity) (uri : Uri) (method : String)
    (arg : Option String) (extras : Bundle) : Except Error (Option Bundle) × Gateway ρ :=
  match uri.authorityRoot? with
  | none => (.error (.malformed (.withoutAuthority uri.text)), gateway)
  | some root =>
      gateway.run caller root Modes.read
        fun state => ContentProvider.call state method arg extras

/-! ## Durable grants -/

/-- A gateway with the authority after a request. -/
def withAuthority (gateway : Gateway ρ) (authority : Authority) : Gateway ρ :=
  { gateway with authority }

def take (gateway : Gateway ρ) (now : Timestamp) (caller : Identity) (uri : Uri) (modes : Modes) :
    Authority.Outcome Unit :=
  gateway.authority.take now caller uri modes

/-- Makes durable access of a caller transient again. -/
def release (gateway : Gateway ρ) (caller : Identity) (uri : Uri) (modes : Modes) :
    Authority.Outcome Unit :=
  gateway.authority.release caller uri modes

def persistedBy (gateway : Gateway ρ) (caller : Identity) : List PersistedGrant :=
  gateway.authority.persistedBy caller.uid

/-- What others have made durable of what a caller granted. -/
def persistedFrom (gateway : Gateway ρ) (caller : Identity) : List PersistedGrant :=
  gateway.authority.persistedFrom caller.uid

end Gateway

end IntentRouting
