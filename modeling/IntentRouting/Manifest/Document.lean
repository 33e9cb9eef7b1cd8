import IntentRouting.Manifest.Basic

/-!
# Manifests as documents

The JSON form of a manifest. Lists and names have to be there; everything else may be null or left
out.
-/

namespace IntentRouting.Manifest

namespace Metadata

def toJson (metadata : Metadata) : Json :=
  .object [("name", .string metadata.name), ("value", .optionalString metadata.value),
    ("resource", .optionalString metadata.resource)]

def ofJson? (json : Json) : Option Metadata := do
  match ← json.slots? ["name", "value", "resource"] with
  | [name, value, resource] =>
      some ⟨← name.required Json.string?, ← value.optional Json.string?,
        ← resource.optional Json.string?⟩
  | _ => none

end Metadata

namespace ComponentDeclaration

/-- The document of the declaration of a component. -/
def toJson (component : ComponentDeclaration) : Json :=
  .object [("name", .string component.name), ("kind", .string component.kind.name),
    ("label", .optionalString component.label), ("exported", .ofOption .bool component.exported),
    ("enabled", .bool component.enabled), ("target_activity", .optionalString component.target),
    ("intent_filters", .list Filter.toJson component.filters),
    ("metadata", .list Metadata.toJson component.metadata)]

/-- Reads the document of the declaration of a component. -/
def ofJson? (json : Json) : Option ComponentDeclaration := do
  match ← json.slots? ["name", "kind", "label", "exported", "enabled", "target_activity",
      "intent_filters", "metadata"] with
  | [name, kind, label, exported, enabled, target, filters, metadata] =>
      some {
        name := ← name.required Json.string?
        kind := ← kind.required Handler.kindOfJson?
        label := ← label.optional Json.string?
        exported := ← exported.optional Json.bool?
        enabled := ← enabled.required Json.bool?
        target := ← target.optional Json.string?
        filters := ← filters.required (·.list? Filter.ofJson?)
        metadata := ← metadata.required (·.list? Metadata.ofJson?) }
  | _ => none

end ComponentDeclaration

namespace ProviderDeclaration

/-- The document of the declaration of a provider. -/
def toJson (provider : ProviderDeclaration) : Json :=
  .object [("name", .string provider.name), ("authorities", .string provider.authorities),
    ("exported", .ofOption .bool provider.exported), ("enabled", .bool provider.enabled),
    ("grant_uri_permissions", .ofOption .bool provider.grantsUris),
    ("metadata", .list Metadata.toJson provider.metadata)]

/-- Reads the document of the declaration of a provider. -/
def ofJson? (json : Json) : Option ProviderDeclaration := do
  match ← json.slots? ["name", "authorities", "exported", "enabled", "grant_uri_permissions",
      "metadata"] with
  | [name, authorities, exported, enabled, grantsUris, metadata] =>
      some {
        name := ← name.required Json.string?
        authorities := ← authorities.required Json.string?
        exported := ← exported.optional Json.bool?
        enabled := ← enabled.required Json.bool?
        grantsUris := ← grantsUris.optional Json.bool?
        metadata := ← metadata.required (·.list? Metadata.ofJson?) }
  | _ => none

end ProviderDeclaration

namespace Application

/-- The document of the declaration of an application. -/
def toJson (application : Application) : Json :=
  .object [("name", .optionalString application.name),
    ("label", .optionalString application.label),
    ("components", .list ComponentDeclaration.toJson application.components),
    ("providers", .list ProviderDeclaration.toJson application.providers),
    ("metadata", .list Metadata.toJson application.metadata)]

/-- Reads the document of the declaration of an application. -/
def ofJson? (json : Json) : Option Application := do
  match ← json.slots? ["name", "label", "components", "providers", "metadata"] with
  | [name, label, components, providers, metadata] =>
      some {
        name := ← name.optional Json.string?
        label := ← label.optional Json.string?
        components := ← components.required (·.list? ComponentDeclaration.ofJson?)
        providers := ← providers.required (·.list? ProviderDeclaration.ofJson?)
        metadata := ← metadata.required (·.list? Metadata.ofJson?) }
  | _ => none

end Application

def versionOfJson? (json : Json) : Option Nat := (json.int? (.unsigned 32)).map Int.toNat

def toJson (manifest : Manifest) : Json :=
  .object [("package", .string manifest.package),
    ("version_code", .ofOption .nat manifest.versionCode),
    ("version_name", .optionalString manifest.versionName),
    ("min_sdk", .ofOption .nat manifest.minSdk), ("target_sdk", .ofOption .nat manifest.targetSdk),
    ("application", .ofOption Application.toJson manifest.application)]

def ofJson? (json : Json) : Option Manifest := do
  match ← json.slots? ["package", "version_code", "version_name", "min_sdk", "target_sdk",
      "application"] with
  | [package, versionCode, versionName, minSdk, targetSdk, application] =>
      some {
        package := ← package.required Json.string?
        versionCode := ← versionCode.optional versionOfJson?
        versionName := ← versionName.optional Json.string?
        minSdk := ← minSdk.optional versionOfJson?
        targetSdk := ← targetSdk.optional versionOfJson?
        application := ← application.optional Application.ofJson? }
  | _ => none

end IntentRouting.Manifest
