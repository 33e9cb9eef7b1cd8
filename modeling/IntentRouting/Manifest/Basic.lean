import IntentRouting.Permission.Identity
import IntentRouting.Registry

/-!
# Manifests

A manifest declares what an application consists of: components with filters, and providers. From it
come the handlers that are installed in the registry and what is known about the providers, and it
can be looked through for declarations that have no effect.
-/

namespace IntentRouting

namespace Manifest

/-- A named value that a manifest attaches to a declaration. -/
structure Metadata where
  name : String
  value : Option String
  resource : Option String
deriving DecidableEq, Repr

/-- The declaration of a component. -/
structure ComponentDeclaration where
  /-- The class, possibly in short. -/
  name : String
  kind : ComponentKind
  label : Option String
  /-- Whether others may use the component, if it is declared. -/
  exported : Option Bool
  enabled : Bool
  /-- The component that this one is another name for. -/
  target : Option String
  filters : List Filter
  metadata : List Metadata
deriving DecidableEq, Repr

/-- The declaration of a provider. -/
structure ProviderDeclaration where
  /-- The class, possibly in short. -/
  name : String
  /-- The authorities, with semicolons between them. -/
  authorities : String
  exported : Option Bool
  enabled : Bool
  grantsUris : Option Bool
  metadata : List Metadata
deriving DecidableEq, Repr

/-- The declaration of an application. -/
structure Application where
  name : Option String
  label : Option String
  components : List ComponentDeclaration
  providers : List ProviderDeclaration
  metadata : List Metadata
deriving DecidableEq, Repr

end Manifest

/-- What an application package declares. -/
structure Manifest where
  package : String
  versionCode : Option Nat
  versionName : Option String
  minSdk : Option Nat
  targetSdk : Option Nat
  application : Option Manifest.Application
deriving DecidableEq, Repr

namespace Manifest

namespace ComponentDeclaration

/-- The declaration of a class, with nothing else said about it. -/
def of (name : String) (kind : ComponentKind) : ComponentDeclaration :=
  { name, kind, label := none, exported := none, enabled := true, target := none, filters := [],
    metadata := [] }

/-- The declaration of the screen that a launcher shows. -/
def launcher (name : String) : ComponentDeclaration :=
  { of name .activity with exported := some true, filters := [.launcher] }

/-- Whether a component is another name for some component. -/
def isAlias (component : ComponentDeclaration) : Bool := component.target.isSome

/-- Whether a component is a screen that a launcher shows. -/
def isLauncher (component : ComponentDeclaration) : Bool :=
  component.kind = .activity && component.filters.any Filter.isLauncher

/-- Whether others may use a component: unless it is declared, they may if it has filters. -/
def isExported (component : ComponentDeclaration) : Bool :=
  component.exported.getD (!component.filters.isEmpty)

/-- The handler that a component of a package becomes. -/
def toHandler (component : ComponentDeclaration) (package : String) : Handler :=
  { component := .of package component.name
    kind := component.kind
    filters := component.filters
    enabled := component.enabled
    exported := component.isExported }

end ComponentDeclaration

namespace ProviderDeclaration

/-- The declaration of a class for some authorities, with nothing else said about it. -/
def of (name authorities : String) : ProviderDeclaration :=
  { name, authorities, exported := none, enabled := true, grantsUris := none, metadata := [] }

/-- The declaration of the provider that shares the files of a package. -/
def files (package : String) : ProviderDeclaration :=
  { of "androidx.core.content.FileProvider" (package ++ ".fileprovider") with
    exported := some false
    grantsUris := some true
    metadata := [⟨"android.support.FILE_PROVIDER_PATHS", none, some "@xml/file_paths"⟩] }

/-- The authorities one by one, without the blanks around them; empty ones do not count. -/
def authorityList (provider : ProviderDeclaration) : List String :=
  ((Text.split ';' provider.authorities.toList).map Text.trim).filter (!·.isEmpty)
    |>.map String.ofList

/-- What is known about a provider of a package, for each of its authorities. -/
def infos (provider : ProviderDeclaration) (package : String) (ownerUid : Nat) : List ProviderInfo :=
  provider.authorityList.map fun authority =>
    { authority
      package
      ownerUid
      className := some (Component.fullClassName package provider.name)
      exported := provider.exported.getD false
      grantsUris := provider.grantsUris.getD false }

end ProviderDeclaration

namespace Application

def empty : Application := ⟨none, none, [], [], []⟩

end Application

/-- The manifest of a package, with an application and nothing else. -/
def ofPackage (package : String) : Manifest := ⟨package, none, none, none, none, some .empty⟩

def components (manifest : Manifest) : List ComponentDeclaration :=
  (manifest.application.map (·.components)).getD []

def providers (manifest : Manifest) : List ProviderDeclaration :=
  (manifest.application.map (·.providers)).getD []

/-- The first component with a filter of a screen that a launcher shows. -/
def mainComponent? (manifest : Manifest) : Option ComponentDeclaration :=
  manifest.components.find? fun component => component.filters.any Filter.isLauncher

def handlers (manifest : Manifest) : List Handler :=
  manifest.components.map fun component => component.toHandler manifest.package

/-- What is known about the enabled providers of a manifest. -/
def providerInfos (manifest : Manifest) (ownerUid : Nat) : List ProviderInfo :=
  (manifest.providers.filter (·.enabled)).flatMap fun provider =>
    provider.infos manifest.package ownerUid

def install (manifest : Manifest) (registry : Registry) : Except Error (Registry × List IntentRouting.Event) :=
  registry.install manifest.package manifest.handlers

/-! ## Declarations without effect -/

/-- What is wrong with a manifest. -/
inductive Warning where
  | noPackage
  /-- A component has filters but does not say whether others may use it. -/
  | exportUndeclared (component : ComponentDeclaration)
  /-- A filter can never match. -/
  | filterFault (index : Nat) (component : ComponentDeclaration) (cause : Malformed)
  | noAuthorities (provider : ProviderDeclaration)
deriving DecidableEq

namespace Warning

/-- Whether a warning is about something that cannot work. -/
def isError : Warning → Bool
  | exportUndeclared _ => false
  | _ => true

def message : Warning → String
  | noPackage => "Package name is required"
  | exportUndeclared component =>
      s!"{component.kind.name} '{component.name}' has intent-filter but android:exported not specified"
  | filterFault index component cause =>
      s!"intent-filter {index} of '{component.name}' will never match: " ++
        (Error.malformed cause).message
  | noAuthorities provider => s!"provider '{provider.name}' declares no authorities"

end Warning

/-- The warnings about filters, the first of which has a given place. -/
def filterWarnings (component : ComponentDeclaration) : Nat → List Filter → List Warning
  | _, [] => []
  | index, filter :: filters =>
      (filter.fault?.map (Warning.filterFault index component)).toList ++
        filterWarnings component (index + 1) filters

def componentWarnings (component : ComponentDeclaration) : List Warning :=
  (if component.exported.isNone && !component.filters.isEmpty then [.exportUndeclared component]
    else []) ++
    filterWarnings component 0 component.filters

def warnings (manifest : Manifest) : List Warning :=
  (if manifest.package.isEmpty then [.noPackage] else []) ++
    manifest.components.flatMap componentWarnings ++
    (manifest.providers.filter fun provider => provider.authorityList.isEmpty).map .noAuthorities

end Manifest

end IntentRouting
