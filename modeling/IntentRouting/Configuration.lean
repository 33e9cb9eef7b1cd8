import IntentRouting.Error
import IntentRouting.Permission.Authority
import IntentRouting.Toml.Quoted
import IntentRouting.Toml.Reader

/-!
# The configuration

How intents are resolved, how the authority on access works, and what is logged. A configuration is
kept as a TOML document, in which everything may be left out that has a default, and unknown keys
are passed over. The number of shards depends on the machine unless it is configured.
-/

namespace IntentRouting

/-- How intents are resolved. -/
structure ResolverSettings where
  /-- Whether a filter has to declare the category of handlers that need not be named. -/
  defaultOnly : Bool
  logResolution : Bool
deriving DecidableEq, Repr

/-- How the authority on access works, and where it keeps its records. -/
structure AccessSettings where
  /-- The number of shards, unless it is left to the machine. -/
  shardCount : Option Nat
  prefixGrants : Bool
  maxPersisted : Nat
  /-- The store of persisted grants, unless it is where data is kept. -/
  storePath : Option String
deriving DecidableEq, Repr

/-- A configuration. -/
structure Configuration where
  version : Nat
  resolver : ResolverSettings
  access : AccessSettings
  /-- What is logged. -/
  logLevel : String
deriving DecidableEq, Repr

namespace ResolverSettings

/-- The settings that hold unless others are configured. -/
def default : ResolverSettings := ⟨true, false⟩

def ofToml? (value : Toml) : Option ResolverSettings := do
  match ← value.fields? ["default_only", "log_resolution"] with
  | [defaultOnly, logResolution] =>
      some ⟨← Toml.fieldOr default.defaultOnly Toml.bool? defaultOnly,
        ← Toml.fieldOr default.logResolution Toml.bool? logResolution⟩
  | _ => none

end ResolverSettings

namespace AccessSettings

/-- The settings that hold unless others are configured. -/
def default : AccessSettings := ⟨none, true, 128, none⟩

/-- The numbers of shards and grants that can be configured. -/
def countBounds : Integer.Bounds := .unsigned 64

def countOfToml? (value : Toml) : Option Nat := (value.integer? countBounds).map Int.toNat

def ofToml? (value : Toml) : Option AccessSettings := do
  match ← value.fields? ["shard_count", "prefix_grants_enabled", "max_persisted_per_grantee",
      "store_path"] with
  | [shardCount, prefixGrants, maxPersisted, storePath] =>
      some {
        shardCount := ← Toml.fieldOr default.shardCount (fun n => (countOfToml? n).map some) shardCount
        prefixGrants := ← Toml.fieldOr default.prefixGrants Toml.bool? prefixGrants
        maxPersisted := ← Toml.fieldOr default.maxPersisted countOfToml? maxPersisted
        storePath := ← Toml.fieldOr default.storePath (fun path => path.string?.map some) storePath }
  | _ => none

/-- The number of shards on a machine with some number of processors. -/
def shards (settings : AccessSettings) (processors : Nat) : Nat :=
  settings.shardCount.getD (processors * 4)

/-- The number of shards that there really are: at least one. -/
def effectiveShards (settings : AccessSettings) (processors : Nat) : Nat :=
  max (settings.shards processors) 1

/-- The settings of the authority on a machine with some number of processors. -/
def permissions (settings : AccessSettings) (processors : Nat) : PermissionSettings :=
  ⟨settings.effectiveShards processors, settings.prefixGrants, settings.maxPersisted⟩

end AccessSettings

namespace Configuration

/-- The configuration that holds unless another one is given. -/
def default : Configuration := ⟨1, .default, .default, "info"⟩

instance : Inhabited Configuration := ⟨default⟩

/-- The numbers of versions. -/
def versionBounds : Integer.Bounds := .unsigned 32

def logLevelOfToml? (value : Toml) : Option String := do
  match ← value.fields? ["level"] with
  | [level] => Toml.fieldOr default.logLevel Toml.string? level
  | _ => none

def ofToml? (value : Toml) : Option Configuration := do
  match ← value.fields? ["version", "resolver", "permissions", "logging"] with
  | [version, resolver, access, logging] =>
      some {
        version := ← Toml.fieldOr default.version
          (fun n => (n.integer? versionBounds).map Int.toNat) version
        resolver := ← Toml.fieldOr default.resolver ResolverSettings.ofToml? resolver
        access := ← Toml.fieldOr default.access AccessSettings.ofToml? access
        logLevel := ← Toml.fieldOr default.logLevel logLevelOfToml? logging }
  | _ => none

def parse (text : String) : Except Error Configuration :=
  match (Toml.read? text).bind ofToml? with
  | some configuration => .ok configuration
  | none => .error .configurationSyntax

/-- One line of a document: a key and its value. -/
def line (key value : String) : String := key ++ " = " ++ value ++ "\n"

def header (name : String) : String := "\n[" ++ name ++ "]\n"

/-- The text of a configuration on a machine with some number of processors. -/
def text (configuration : Configuration) (processors : Nat) : String :=
  let resolver := configuration.resolver
  let access := configuration.access
  line "version" (toString configuration.version) ++
    header "resolver" ++
    line "default_only" (toString resolver.defaultOnly) ++
    line "log_resolution" (toString resolver.logResolution) ++
    header "permissions" ++
    line "shard_count" (toString (access.shards processors)) ++
    line "prefix_grants_enabled" (toString access.prefixGrants) ++
    line "max_persisted_per_grantee" (toString access.maxPersisted) ++
    ((access.storePath.map fun path => line "store_path" (Toml.quoted path)).getD "") ++
    header "logging" ++
    line "level" (Toml.quoted configuration.logLevel)

/-! ## Places -/

/-- The name of the directories of the program. -/
def directoryName : String := "r-droid-router"

def joinPath (directory name : String) : String := directory ++ "/" ++ name

/-- The directory of the program beneath the directory of configurations or of data. -/
def directory (home : String) : String := joinPath home directoryName

/-- The file of the configuration, given the directory of configurations. -/
def file (home : String) : String := joinPath (directory home) "router.toml"

/-- The store of persisted grants, given the directory of data. -/
def storePath (configuration : Configuration) (home : String) : String :=
  configuration.access.storePath.getD (joinPath (directory home) "uri_grants.json")

end Configuration

end IntentRouting
