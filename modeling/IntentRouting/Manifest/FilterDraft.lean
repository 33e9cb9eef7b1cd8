import IntentRouting.Filter.Basic

/-!
# Filters under construction

The elements about data inside one filter are not rules of their own. Their schemes, authorities,
paths and types are collected, and the rules of the filter are all combinations of them: without a
scheme only types count, and paths count only beside an authority.
-/

namespace IntentRouting.Manifest

/-- A condition on the path. -/
structure PathRule where
  kind : Pattern.Kind
  text : String
deriving DecidableEq, Repr

/-- The parts collected for a filter. -/
structure FilterDraft where
  actions : List String
  categories : List String
  priority : Int32
  autoVerify : Bool
  schemes : List String
  /-- Hosts, each with the port that stood beside it. -/
  authorities : List (String × Option String)
  paths : List PathRule
  types : List String
deriving DecidableEq, Repr

/-- What one element about data says. -/
structure DataElement where
  scheme : Option String
  host : Option String
  port : Option String
  paths : List PathRule
  mimeType : Option String
deriving DecidableEq, Repr

/-- A list with a value at its end, unless the list has it. -/
def addNew {α : Type} [DecidableEq α] (values : List α) (value : α) : List α :=
  if value ∈ values then values else values ++ [value]

/-- A list with an optional value at its end, unless the list has it. -/
def addOptional {α : Type} [DecidableEq α] (values : List α) (value : Option α) : List α :=
  match value with
  | none => values
  | some value => addNew values value

/-- The values of a list as choices, or the choice of none if there are no values. -/
def choices {α : Type} (values : List α) : List (Option α) :=
  if values.isEmpty then [none] else values.map some

namespace FilterDraft

def empty (priority : Int32) (autoVerify : Bool) : FilterDraft :=
  { actions := [], categories := [], priority, autoVerify, schemes := [], authorities := [],
    paths := [], types := [] }

/-- A draft with what an element about data says. A port counts only beside a host. -/
def addData (draft : FilterDraft) (element : DataElement) : FilterDraft :=
  { draft with
    schemes := addOptional draft.schemes element.scheme
    authorities := addOptional draft.authorities (element.host.map (·, element.port))
    paths := draft.paths ++ element.paths
    types := addOptional draft.types element.mimeType }

def addAction (draft : FilterDraft) (action : String) : FilterDraft :=
  { draft with actions := draft.actions ++ [action] }

def addCategory (draft : FilterDraft) (category : String) : FilterDraft :=
  { draft with categories := draft.categories ++ [category] }

def withPath (rule : DataRule) : Option PathRule → DataRule
  | none => rule
  | some ⟨.literal, text⟩ => { rule with path := some text }
  | some ⟨.beginning, text⟩ => { rule with pathBeginning := some text }
  | some ⟨.ending, text⟩ => { rule with pathEnding := some text }
  | some ⟨.glob, text⟩ => { rule with pathGlob := some text }

/-- The rule of one combination. -/
def combine (scheme : String) (authority : Option (String × Option String))
    (path : Option PathRule) (mimeType : Option String) : DataRule :=
  withPath
    { DataRule.empty with
      scheme := some scheme
      host := authority.map (·.1)
      port := authority.bind (·.2)
      mimeType }
    path

/-- The conditions on the path beside an authority. -/
def pathChoices (draft : FilterDraft) (authority : Option (String × Option String)) :
    List (Option PathRule) :=
  if authority.isSome then choices draft.paths else [none]

def rules (draft : FilterDraft) : List DataRule :=
  if draft.schemes.isEmpty then draft.types.map DataRule.ofType
  else
    draft.schemes.flatMap fun scheme =>
      (choices draft.authorities).flatMap fun authority =>
        (draft.pathChoices authority).flatMap fun path =>
          (choices draft.types).map fun mimeType => combine scheme authority path mimeType

def toFilter (draft : FilterDraft) : Filter :=
  ⟨draft.actions, draft.categories, draft.rules, draft.priority, draft.autoVerify⟩

end FilterDraft

end IntentRouting.Manifest
