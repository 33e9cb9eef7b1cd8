import IntentRouting.Intent.Basic
import IntentRouting.Mime
import IntentRouting.Pattern
import IntentRouting.Uri.Authority

/-!
# Filters

A filter says which intents a handler takes: by action, by category, and by rules about the data and
its type. A rule that could never be evaluated in a consistent way makes its filter invalid.
-/

namespace IntentRouting

/-- A rule about the data and the type of an intent. -/
structure DataRule where
  scheme : Option String
  /-- A host that begins with an asterisk stands for all hosts that end with the rest of it. -/
  host : Option String
  port : Option String
  path : Option String
  pathBeginning : Option String
  pathEnding : Option String
  pathGlob : Option String
  mimeType : Option String
deriving DecidableEq, Repr

/-- Which intents a handler takes. -/
structure Filter where
  /-- The actions it takes; without any it takes all. -/
  actions : List String
  categories : List String
  rules : List DataRule
  priority : Int32
  autoVerify : Bool
deriving DecidableEq, Repr

namespace DataRule

def empty : DataRule := ⟨none, none, none, none, none, none, none, none⟩

def url (scheme host : String) : DataRule := { empty with scheme := some scheme, host := some host }

/-- The rule for a host under the scheme `https`. -/
def https (host : String) : DataRule := url "https" host

/-- The rule for a host under the scheme `https` and the paths with a given beginning. -/
def httpsBeneath (host pathBeginning : String) : DataRule :=
  { https host with pathBeginning := some pathBeginning }

/-- The rule for a host under the scheme `https` and the paths that a glob accepts. -/
def httpsMatching (host pathGlob : String) : DataRule := { https host with pathGlob := some pathGlob }

/-- The rule for a type under a scheme and a host. -/
def urlOfType (scheme host mimeType : String) : DataRule :=
  { url scheme host with mimeType := some mimeType }

def ofType (mimeType : String) : DataRule := { empty with mimeType := some mimeType }

/-- The rule for a type of content under any authority. -/
def content (mimeType : String) : DataRule :=
  { empty with scheme := some Uri.contentScheme, host := some "*", mimeType := some mimeType }

/-- The patterns of which one has to match the path. -/
def patterns (rule : DataRule) : List Pattern :=
  (rule.path.map fun text => ⟨text, .literal⟩).toList ++
    (rule.pathBeginning.map fun text => ⟨text, .beginning⟩).toList ++
    (rule.pathEnding.map fun text => ⟨text, .ending⟩).toList ++
    (rule.pathGlob.map fun text => ⟨text, .glob⟩).toList

/-- Whether a rule has a condition on the path. -/
def hasPath (rule : DataRule) : Bool := !rule.patterns.isEmpty

/-- What makes a rule impossible to evaluate, if anything. -/
def fault? (rule : DataRule) : Option Malformed :=
  (rule.mimeType.bind fun mimeType =>
      if Mime.isValid mimeType then none else some (.mimeType mimeType)) <|>
    (if rule.scheme.isNone && rule.mimeType.isNone then some .dataWithoutSchemeAndType else none) <|>
    (if rule.scheme.isNone && (rule.host.isSome || rule.hasPath) then some .dataHostWithoutScheme
      else none) <|>
    (if rule.port.isSome && rule.host.isNone then some .dataPortWithoutHost else none) <|>
    (rule.port.bind fun port =>
      if (Integer.parse? Uri.portBounds port).isSome then none else some (.dataPort port)) <|>
    (if rule.patterns.any Pattern.endsInsideEscape then some .danglingEscape else none)

def validate (rule : DataRule) : Except Malformed Unit :=
  match rule.fault? with
  | some cause => .error cause
  | none => .ok ()

theorem validate_eq_ok_iff {rule : DataRule} : rule.validate = .ok () ↔ rule.fault? = none := by
  cases fault : rule.fault? <;> simp [validate, fault]

end DataRule

namespace Filter

def empty : Filter := ⟨[], [], [], 0, false⟩

instance : Inhabited Filter := ⟨empty⟩

def ofAction (action : String) : Filter := { empty with actions := [action] }

/-- The filter of the screen that a launcher shows. -/
def launcher : Filter :=
  { empty with actions := [Action.main], categories := [Category.launcher] }

def deepLink (scheme host : String) : Filter :=
  { empty with
    actions := [Action.view]
    categories := [Category.default, Category.browsable]
    rules := [.url scheme host] }

/-- The filter of links to a host that belongs to the application. -/
def appLink (host : String) (pathBeginning : Option String) : Filter :=
  { empty with
    actions := [Action.view]
    categories := [Category.default, Category.browsable]
    rules := [{ DataRule.https host with pathBeginning }]
    autoVerify := true }

def ofType (action mimeType : String) : Filter :=
  { empty with
    actions := [action]
    categories := [Category.default]
    rules := [.ofType mimeType] }

def addAction (filter : Filter) (action : String) : Filter :=
  { filter with actions := filter.actions ++ [action] }

def addCategory (filter : Filter) (category : String) : Filter :=
  { filter with categories := filter.categories ++ [category] }

def addRule (filter : Filter) (rule : DataRule) : Filter :=
  { filter with rules := filter.rules ++ [rule] }

def hasAction (filter : Filter) (action : String) : Bool := filter.actions.contains action

def hasCategory (filter : Filter) (category : String) : Bool := filter.categories.contains category

/-- Whether a filter is that of a screen that a launcher shows. -/
def isLauncher (filter : Filter) : Bool :=
  filter.hasAction Action.main && filter.hasCategory Category.launcher

/-- Whether a filter takes links from a browser. -/
def isDeepLink (filter : Filter) : Bool :=
  filter.hasAction Action.view && filter.hasCategory Category.browsable

/-- What makes a filter impossible to evaluate, if anything. -/
def fault? (filter : Filter) : Option Malformed := filter.rules.findSome? DataRule.fault?

/-- Refuses a filter that cannot be evaluated. -/
def validate (filter : Filter) : Except Malformed Unit :=
  match filter.fault? with
  | some cause => .error cause
  | none => .ok ()

/-- Whether a filter can be evaluated. -/
def isValid (filter : Filter) : Bool := filter.fault?.isNone

end Filter

end IntentRouting
