import IntentRouting.Manifest.Basic
import IntentRouting.Manifest.FilterDraft
import IntentRouting.Xml.Event

/-!
# Reading manifests

A manifest is built up while its tags are read one after the other. What is being declared is kept
aside: a component, a provider and a filter at most, each of which is put into its place when its
element ends. Tags that stand where they have no meaning are passed over, except that an application
before the manifest is a fault.
-/

namespace IntentRouting.Manifest

/-- A manifest under construction. -/
structure Draft where
  manifest : Manifest
  /-- Whether the element of the manifest has begun. -/
  isBegun : Bool
  inApplication : Bool
  component : Option ComponentDeclaration
  provider : Option ProviderDeclaration
  filter : Option FilterDraft

/-- The value of an attribute of the platform. -/
def platformAttribute? (tag : Xml.Tag) (name : String) : Option String :=
  tag.attribute? ("android:" ++ name)

/-- A truth value; everything but `true` is false. -/
def truth? (tag : Xml.Tag) (name : String) : Option Bool :=
  (platformAttribute? tag name).map (· = "true")

/-- The numbers of versions. -/
def versionBounds : Integer.Bounds := .unsigned 32

/-- The number of a version, if the attribute writes one. -/
def version? (tag : Xml.Tag) (name : String) : Option Nat :=
  ((platformAttribute? tag name).bind (Integer.parse? versionBounds)).map Int.toNat

/-- Reads the beginning of the declaration of a component. -/
def readComponent (tag : Xml.Tag) (kind : ComponentKind) : ComponentDeclaration :=
  { ComponentDeclaration.of ((platformAttribute? tag "name").getD "") kind with
    label := platformAttribute? tag "label"
    exported := truth? tag "exported"
    enabled := (truth? tag "enabled").getD true
    target := platformAttribute? tag "targetActivity" }

/-- Reads the beginning of the declaration of a provider. -/
def readProvider (tag : Xml.Tag) : ProviderDeclaration :=
  { ProviderDeclaration.of ((platformAttribute? tag "name").getD "")
      ((platformAttribute? tag "authorities").getD "") with
    exported := truth? tag "exported"
    enabled := (truth? tag "enabled").getD true
    grantsUris := truth? tag "grantUriPermissions" }

def readMetadata? (tag : Xml.Tag) : Option Metadata :=
  (platformAttribute? tag "name").map fun name =>
    ⟨name, platformAttribute? tag "value", platformAttribute? tag "resource"⟩

/-- The beginning of a filter; a priority that is no number is none. -/
def readFilter (tag : Xml.Tag) : FilterDraft :=
  let priority := (platformAttribute? tag "priority").bind (Integer.parse? Filter.priorityBounds)
  .empty (Int32.ofInt (priority.getD 0)) ((truth? tag "autoVerify").getD false)

/-- A condition on the path, if the attribute is there. -/
def readPath (tag : Xml.Tag) (name : String) (kind : Pattern.Kind) : List PathRule :=
  ((platformAttribute? tag name).map (PathRule.mk kind)).toList

def readData (tag : Xml.Tag) : DataElement :=
  { scheme := platformAttribute? tag "scheme"
    host := platformAttribute? tag "host"
    port := platformAttribute? tag "port"
    paths := readPath tag "path" .literal ++ readPath tag "pathPrefix" .beginning ++
      readPath tag "pathSuffix" .ending ++ readPath tag "pathPattern" .glob
    mimeType := platformAttribute? tag "mimeType" }

/-- What an element declares. -/
inductive Element where
  | manifest
  | sdk
  | application
  | component (kind : ComponentKind)
  | provider
  | filter
  | action
  | category
  | data
  | metadata
  | other
deriving DecidableEq, Repr

def Element.ofName (name : String) : Element :=
  if name = "manifest" then .manifest
  else if name = "uses-sdk" then .sdk
  else if name = "application" then .application
  else if name = "activity" || name = "activity-alias" then .component .activity
  else if name = "service" then .component .service
  else if name = "receiver" then .component .receiver
  else if name = "provider" then .provider
  else if name = "intent-filter" then .filter
  else if name = "action" then .action
  else if name = "category" then .category
  else if name = "data" then .data
  else if name = "meta-data" then .metadata
  else .other

namespace Draft

def empty : Draft :=
  ⟨⟨"", none, none, none, none, none⟩, false, false, none, none, none⟩

/-- A draft with its application changed, if it has one. -/
def withApplication (draft : Draft) (change : Application → Application) : Draft :=
  { draft with
    manifest := { draft.manifest with application := draft.manifest.application.map change } }

/-- Attaches a named value to the component that is being declared, else to the provider, else to
the application. -/
def addMetadata (draft : Draft) (metadata : Metadata) : Draft :=
  match draft.component, draft.provider with
  | some component, _ =>
      { draft with
        component := some { component with metadata := component.metadata ++ [metadata] } }
  | none, some provider =>
      { draft with provider := some { provider with metadata := provider.metadata ++ [metadata] } }
  | none, none =>
      draft.withApplication fun application =>
        { application with metadata := application.metadata ++ [metadata] }

/-- A draft with the filter that is being declared changed by an optional value. -/
def withFilter {α : Type} (draft : Draft) (change : FilterDraft → α → FilterDraft)
    (value : Option α) : Draft :=
  match value with
  | none => draft
  | some value => { draft with filter := draft.filter.map fun filter => change filter value }

/-- The draft after the beginning of an element. -/
def opening (draft : Draft) (tag : Xml.Tag) : Except ManifestFault Draft :=
  match Element.ofName tag.name with
  | .manifest =>
      .ok { draft with
        isBegun := true
        manifest := { draft.manifest with
          package := (tag.attribute? "package").getD ""
          versionCode := version? tag "versionCode"
          versionName := platformAttribute? tag "versionName" } }
  | .sdk =>
      .ok { draft with
        manifest := { draft.manifest with
          minSdk := version? tag "minSdkVersion"
          targetSdk := version? tag "targetSdkVersion" } }
  | .application =>
      if !draft.isBegun then .error .applicationOutsideManifest
      else
        .ok { draft with
          inApplication := true
          manifest := { draft.manifest with
            application := some { Application.empty with
              name := platformAttribute? tag "name"
              label := platformAttribute? tag "label" } } }
  | .component kind =>
      .ok (if draft.inApplication then { draft with component := some (readComponent tag kind) }
        else draft)
  | .provider =>
      .ok (if draft.inApplication then { draft with provider := some (readProvider tag) }
        else draft)
  | .filter =>
      .ok (if draft.component.isSome then { draft with filter := some (readFilter tag) } else draft)
  | .action => .ok (draft.withFilter FilterDraft.addAction (platformAttribute? tag "name"))
  | .category => .ok (draft.withFilter FilterDraft.addCategory (platformAttribute? tag "name"))
  | .data => .ok (draft.withFilter FilterDraft.addData (some (readData tag)))
  | .metadata =>
      .ok (match readMetadata? tag with
        | none => draft
        | some metadata => draft.addMetadata metadata)
  | .other => .ok draft

/-- The draft after the end of an element. -/
def closing (draft : Draft) (name : String) : Draft :=
  match Element.ofName name with
  | .application => { draft with inApplication := false }
  | .component _ =>
      match draft.component with
      | none => draft
      | some component =>
          { draft with component := none }.withApplication fun application =>
            { application with components := application.components ++ [component] }
  | .provider =>
      match draft.provider with
      | none => draft
      | some provider =>
          { draft with provider := none }.withApplication fun application =>
            { application with providers := application.providers ++ [provider] }
  | .filter =>
      { draft with
        filter := none
        component := draft.component.map fun component =>
          { component with
            filters := component.filters ++ (draft.filter.map FilterDraft.toFilter).toList } }
  | _ => draft

/-- The draft after a tag. An element without content is one that ends where it begins. -/
def step (draft : Draft) : Xml.Event → Except ManifestFault Draft
  | .opening tag => draft.opening tag
  | .childless tag => (draft.opening tag).map (·.closing tag.name)
  | .closing name => .ok (draft.closing name)

def run (draft : Draft) : List Xml.Event → Except ManifestFault Draft
  | [] => .ok draft
  | event :: events =>
      match draft.step event with
      | .error fault => .error fault
      | .ok draft => draft.run events

end Draft

def parse (text : String) : Except ManifestFault Manifest :=
  let reading := Xml.Event.readAll text
  match Draft.empty.run reading.events with
  | .error fault => .error fault
  | .ok draft =>
      if reading.isFaulty then .error .markup
      else if draft.isBegun then .ok draft.manifest
      else .error .noManifest

end IntentRouting.Manifest
