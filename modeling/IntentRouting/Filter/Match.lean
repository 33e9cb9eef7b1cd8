import IntentRouting.Filter.Basic
import IntentRouting.Uri.Authority

/-!
# Matching intents

A filter is tried in three tests: the action, the categories, and the data with its type. A match
says how specific the best of its rules is; a mismatch says which test failed, and for the data why
the first rule did.
-/

namespace IntentRouting

/-- How specific a match is, the least specific first. -/
inductive MatchQuality where
  /-- Neither the filter nor the intent is about data. -/
  | empty
  | scheme
  | host
  | port
  | path
  | type
deriving DecidableEq, Repr

namespace MatchQuality

/-- The place of a quality in the order. -/
def rank : MatchQuality → Nat
  | empty => 0
  | scheme => 1
  | host => 2
  | port => 3
  | path => 4
  | type => 5

def name : MatchQuality → String
  | empty => "empty"
  | scheme => "scheme"
  | host => "host"
  | port => "port"
  | path => "path"
  | type => "type"

def title : MatchQuality → String
  | empty => "Empty"
  | scheme => "Scheme"
  | host => "Host"
  | port => "Port"
  | path => "Path"
  | type => "Type"

def max (left right : MatchQuality) : MatchQuality := if left.rank ≤ right.rank then right else left

end MatchQuality

/-- Which test an intent fails. -/
inductive Mismatch where
  | action
  /-- The first category of the intent that the filter does not declare. -/
  | category (name : String)
  | data
  | type
deriving DecidableEq, Repr

namespace DataRule

/-- Whether the host of a rule stands for a host. -/
def acceptsHost (wanted found : String) : Bool :=
  match wanted.toList with
  | '*' :: ending => ending.isSuffixOf found.toList
  | _ => found = wanted

def matchHost (rule : DataRule) (data : Uri) : Except Mismatch MatchQuality :=
  match rule.host with
  | none => .ok .scheme
  | some wanted =>
      match data.host with
      | none => .error .data
      | some found =>
          if !acceptsHost wanted found then .error .data
          else
            match rule.port with
            | none => .ok .host
            | some port =>
                if data.port = (Integer.parse? Uri.portBounds port).map Int.toNat then .ok .port
                else .error .data

/-- The test of the path, after a match of the other parts. -/
def matchPath (rule : DataRule) (data : Uri) (quality : MatchQuality) :
    Except Mismatch MatchQuality :=
  if !rule.hasPath then .ok quality
  else if rule.patterns.any (·.accepts data.path) then .ok .path
  else .error .data

/-- The test of the data. A rule without a scheme takes no data, relative data and local data. -/
def matchUri (rule : DataRule) (data : Option Uri) : Except Mismatch MatchQuality :=
  match rule.scheme with
  | some scheme =>
      match data with
      | none => .error .data
      | some data =>
          if data.scheme != some scheme then .error .data
          else
            match rule.matchHost data with
            | .error mismatch => .error mismatch
            | .ok quality => rule.matchPath data quality
  | none =>
      match data.bind Uri.scheme with
      | none => .ok .empty
      | some scheme =>
          if scheme = Uri.contentScheme || scheme = Uri.fileScheme then .ok .empty
          else .error .data

/-- The test of the type, after a match of the data. -/
def matchType (rule : DataRule) (mimeType : Option String) (quality : MatchQuality) :
    Except Mismatch MatchQuality :=
  match rule.mimeType, mimeType with
  | some wanted, some found => if Mime.accepts wanted found then .ok .type else .error .type
  | none, none => .ok quality
  | _, _ => .error .type

def matchData (rule : DataRule) (mimeType : Option String) (data : Option Uri) :
    Except Mismatch MatchQuality :=
  match rule.matchUri data with
  | .error mismatch => .error mismatch
  | .ok quality => rule.matchType mimeType quality

end DataRule

namespace Filter

def matchAction (filter : Filter) (action : Option String) : Bool :=
  filter.actions.isEmpty ||
    match action with
    | some action => filter.hasAction action
    | none => false

/-- The first category that a filter does not declare. -/
def missingCategory? (filter : Filter) (wanted : List String) : Option String :=
  wanted.find? fun category => !filter.hasCategory category

/-- The best quality among the results of rules. -/
def bestQuality (results : List (Except Mismatch MatchQuality)) : Option MatchQuality :=
  results.foldl
    (fun best result =>
      match result with
      | .ok quality => some ((best.map fun other => other.max quality).getD quality)
      | .error _ => best)
    none

/-- The reason of the first result, if it is a mismatch. -/
def firstMismatch : List (Except Mismatch MatchQuality) → Mismatch
  | .error mismatch :: _ => mismatch
  | _ => .data

/-- The test of the type and the data. A filter without rules takes only intents without both. -/
def matchData (filter : Filter) (mimeType : Option String) (data : Option Uri) :
    Except Mismatch MatchQuality :=
  if filter.rules.isEmpty then
    match mimeType, data with
    | none, none => .ok .empty
    | _, some _ => .error .data
    | some _, none => .error .type
  else if mimeType.isNone && data.isNone then .error .data
  else
    let results := filter.rules.map fun rule => rule.matchData mimeType data
    match bestQuality results with
    | some quality => .ok quality
    | none => .error (firstMismatch results)

/-- The three tests of an intent whose type is known. -/
def matchIntent (filter : Filter) (intent : Intent) (mimeType : Option String) :
    Except Mismatch MatchQuality :=
  if !filter.matchAction intent.action then .error .action
  else
    match filter.missingCategory? intent.categories.names with
    | some category => .error (.category category)
    | none => filter.matchData mimeType intent.data

end Filter

end IntentRouting
