import IntentRouting.Event
import IntentRouting.Filter.Document
import IntentRouting.Intent.Document
import IntentRouting.NameMap

/-!
# The registry of handlers

Handlers are installed by package: installing a package replaces all its handlers. A registry is a
value, so one that was taken earlier keeps its contents while others are made of it; the generation
tells them apart and grows with every change. Handlers are listed by package, and within one in the
order in which they were installed.
-/

namespace IntentRouting

/-- A component that handles intents, and the filters that say which. -/
structure Handler where
  component : Component
  kind : ComponentKind
  filters : List Filter
  enabled : Bool
  exported : Bool
deriving DecidableEq, Repr

namespace Handler

def package (handler : Handler) : String := handler.component.package

def toJson (handler : Handler) : Json :=
  .object [("component", handler.component.toJson), ("kind", .string handler.kind.name),
    ("filters", .list Filter.toJson handler.filters), ("enabled", .bool handler.enabled),
    ("exported", .bool handler.exported)]

def kindOfJson? (json : Json) : Option ComponentKind := json.alternative?.bind ComponentKind.ofName?

def ofJson? (json : Json) : Option Handler := do
  match ← json.slots? ["component", "kind", "filters", "enabled", "exported"] with
  | [component, kind, filters, enabled, exported] =>
      some {
        component := ← component.required Component.ofJson?
        kind := ← kind.required kindOfJson?
        filters := ← filters.withDefault [] (·.list? Filter.ofJson?)
        enabled := ← enabled.withDefault true Json.bool?
        exported := ← exported.withDefault true Json.bool? }
  | _ => none

end Handler

/-- The handlers that are installed. -/
structure Registry where
  generation : Nat
  packages : NameMap (List Handler)

namespace Registry

def empty : Registry := ⟨0, .empty⟩

instance : Inhabited Registry := ⟨empty⟩

def handlers (registry : Registry) : List Handler := registry.packages.values.flatten

def packageHandlers? (registry : Registry) (package : String) : Option (List Handler) :=
  registry.packages.get? package

def find? (registry : Registry) (component : Component) : Option Handler :=
  (registry.packages.get? component.package).bind fun handlers =>
    handlers.find? fun handler => handler.component = component

def handlerCount (registry : Registry) : Nat := registry.handlers.length

def isEmpty (registry : Registry) : Bool := registry.packages.isEmpty

/-- Installs the handlers of a package in place of those it had. All of them have to be its own. -/
def install (registry : Registry) (package : String) (handlers : List Handler) :
    Except Error (Registry × List Event) :=
  match handlers.find? fun handler => handler.component.package != package with
  | some stray => .error (.conflict (.strayHandler stray.component package))
  | none =>
      .ok (⟨registry.generation + 1, registry.packages.insert package handlers⟩,
        [.packageInstalled package handlers.length])

/-- Removes a package, and says whether it was there. The generation grows in either case. -/
def uninstall (registry : Registry) (package : String) : Bool × Registry × List Event :=
  let removed := registry.packages.contains package
  (removed, ⟨registry.generation + 1, registry.packages.erase package⟩,
    if removed then [.packageRemoved package] else [])

/-- Sets whether the first handler of a component is enabled. -/
def enableFirst (component : Component) (enabled : Bool) : List Handler → List Handler
  | [] => []
  | handler :: handlers =>
      if handler.component = component then { handler with enabled } :: handlers
      else handler :: enableFirst component enabled handlers

/-- Enables or disables a component. Nothing changes if it is in that state already. -/
def setEnabled (registry : Registry) (component : Component) (enabled : Bool) :
    Except Error (Registry × List Event) :=
  match registry.packages.get? component.package with
  | none => .error (.notFound (.component component))
  | some handlers =>
      match handlers.find? fun handler => handler.component = component with
      | none => .error (.notFound (.component component))
      | some handler =>
          if handler.enabled = enabled then .ok (registry, [])
          else
            .ok (⟨registry.generation + 1,
                registry.packages.insert component.package
                  (enableFirst component enabled handlers)⟩,
              [.componentEnabledChanged component enabled])

end Registry

end IntentRouting
