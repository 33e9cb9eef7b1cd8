import IntentRouting.Filter.Match
import IntentRouting.Intent.Edit
import IntentRouting.Registry

/-!
# Resolving intents

Which handlers take an intent, and which one of them is meant. An intent that names a component is
taken by that component alone. Otherwise each enabled handler offers the best of its filters that
match, and the offers are ranked by priority, then by how specific the match is, then by component.
One offer at the top priority decides; among several a preference may decide that was set for
intents which filters cannot tell apart, and else the choice is ambiguous.
-/

namespace IntentRouting

/-- A handler that takes an intent. -/
structure Candidate where
  component : Component
  kind : ComponentKind
  priority : Int32
  quality : MatchQuality
  /-- The place of the filter among those of the handler; a component that is named needs none. -/
  filterIndex : Option Nat
deriving DecidableEq, Repr

namespace Candidate

/-- The candidate of an intent that names a component. -/
def explicit (component : Component) (kind : ComponentKind) : Candidate :=
  ⟨component, kind, 0, .empty, none⟩

/-- Whether a candidate has a higher priority than another, or the same and a more specific match.
-/
def isBetter (candidate other : Candidate) : Bool :=
  other.priority < candidate.priority ||
    (candidate.priority = other.priority && other.quality.rank < candidate.quality.rank)

/-- Whether a candidate stands before another, or in the same place. -/
def precedes (left right : Candidate) : Bool :=
  left.isBetter right ||
    (!right.isBetter left && (left.component.compare right.component).isLE)

end Candidate

/-- The preferred component for each set of intents that filters cannot tell apart. -/
structure Preferences where
  entries : List (Intent.FilterIdentity × Component)

namespace Preferences

def empty : Preferences := ⟨[]⟩

instance : Inhabited Preferences := ⟨empty⟩

/-- The component that is preferred for an intent. -/
def get? (preferences : Preferences) (intent : Intent) : Option Component :=
  preferences.entries.lookup intent.filterIdentity

def clear (preferences : Preferences) (intent : Intent) : Preferences :=
  ⟨preferences.entries.filter fun entry => entry.1 != intent.filterIdentity⟩

def set (preferences : Preferences) (intent : Intent) (component : Component) : Preferences :=
  ⟨(intent.filterIdentity, component) :: (preferences.clear intent).entries⟩

/-- Forgets the components of a package, and counts them. -/
def forgetPackage (preferences : Preferences) (package : String) : Nat × Preferences :=
  (preferences.entries.countP fun entry => entry.2.package = package,
    ⟨preferences.entries.filter fun entry => entry.2.package != package⟩)

end Preferences

namespace Resolver

/-- The types of the data that providers serve, as far as they are known. -/
abbrev Types := Uri → Option String

/-- The type that an intent is matched with. A type that is set has to be valid. -/
def effectiveType (types : Types) (intent : Intent) : Except Error (Option String) :=
  match intent.mimeType with
  | none => .ok (intent.resolveType types)
  | some mimeType =>
      match Mime.validate mimeType with
      | .error cause => .error (.malformed cause)
      | .ok () => .ok (intent.resolveType types)

/-- The offer that a filter of a handler makes for an intent. -/
def offer? (handler : Handler) (view : Intent) (mimeType : Option String) (defaultOnly : Bool)
    (filter : Filter) (index : Nat) : Option Candidate :=
  if !filter.isValid then none
  else if defaultOnly && !filter.hasCategory Category.default then none
  else
    match filter.matchIntent view mimeType with
    | .error _ => none
    | .ok quality =>
        some ⟨handler.component, handler.kind, filter.priority, quality, some index⟩

/-- The better of two offers, and the earlier one of two that are equally good. -/
def better (best : Option Candidate) (offer : Candidate) : Candidate :=
  match best with
  | none => offer
  | some best => if offer.isBetter best then offer else best

/-- The best offer of the filters of a handler, the first of which has a given place, after the best
offer of those before. -/
def bestOffer (handler : Handler) (view : Intent) (mimeType : Option String) (defaultOnly : Bool)
    (best : Option Candidate) : List Filter → Nat → Option Candidate
  | [], _ => best
  | filter :: filters, index =>
      let best :=
        match offer? handler view mimeType defaultOnly filter index with
        | none => best
        | some offer => some (better best offer)
      bestOffer handler view mimeType defaultOnly best filters (index + 1)

/-- Whether a handler is asked at all. -/
def isAsked (kind : Option ComponentKind) (package : Option String) (handler : Handler) : Bool :=
  handler.enabled && kind.all (· = handler.kind) && package.all (· = handler.package)

/-- The offers of all handlers for an intent, in the order of the registry. -/
def offers (registry : Registry) (view : Intent) (mimeType : Option String) (defaultOnly : Bool)
    (kind : Option ComponentKind) (package : Option String) : List Candidate :=
  (registry.handlers.filter (isAsked kind package)).filterMap fun handler =>
    bestOffer handler view mimeType defaultOnly none handler.filters 0

/-- All handlers that take an intent, the best first. -/
def query (types : Types) (registry : Registry) (intent : Intent) (defaultOnly : Bool)
    (kind : Option ComponentKind) : Except Error (List Candidate) :=
  match intent.component with
  | some component =>
      let known := (registry.find? component).map (·.kind)
      .ok [.explicit component ((known <|> kind).getD .activity)]
  | none =>
      let view := intent.matchingView
      match effectiveType types view with
      | .error error => .error error
      | .ok mimeType =>
          let package := intent.package <|> view.package
          .ok ((offers registry view mimeType defaultOnly kind package).mergeSort
            Candidate.precedes)

/-- How an intent that nobody takes is described. -/
def describe (intent : Intent) : String :=
  let view := intent.matchingView
  let categories :=
    if view.categories.isEmpty then []
    else ["cat=[" ++ Text.joinText "," view.categories.names ++ "]"]
  let parts :=
    (view.action.map ("act=" ++ ·)).toList ++ categories ++
      (view.data.map fun data => "dat=" ++ data.text).toList ++
      (view.mimeType.map ("typ=" ++ ·)).toList ++ (intent.package.map ("pkg=" ++ ·)).toList
  "\x7b " ++ Text.joinText " " parts ++ " \x7d"

/-- The candidates that share the priority of the first. -/
def tied : List Candidate → List Candidate
  | [] => []
  | first :: rest => first :: rest.takeWhile fun candidate => candidate.priority = first.priority

/-- The one candidate that is meant, given the candidates that tie. -/
def decide (preferences : Preferences) (intent : Intent) :
    List Candidate → Except Error Candidate
  | [] => .error (.noMatchingHandler (describe intent))
  | [candidate] => .ok candidate
  | candidates =>
      let preferred := (preferences.get? intent).bind fun component =>
        candidates.find? fun candidate => candidate.component = component
      match preferred with
      | some candidate => .ok candidate
      | none => .error (.ambiguousMatch (candidates.map (·.component.short)))

def resolve (types : Types) (preferences : Preferences) (registry : Registry) (intent : Intent)
    (defaultOnly : Bool) : Except Error Candidate :=
  match query types registry intent defaultOnly none with
  | .error error => .error error
  | .ok candidates => decide preferences intent (tied candidates)

end Resolver

end IntentRouting
