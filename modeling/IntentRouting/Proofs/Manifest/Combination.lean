import IntentRouting.Manifest.FilterDraft
import IntentRouting.Proofs.Filter.Acceptance
import Mathlib.Tactic.MkIffOfInductiveProp

/-!
# What elements about data mean together

The elements about data inside one filter are written out as rules, one for each combination of
their parts, and an intent is tried on the rules one by one. What they mean is simpler than that
(`DataParts.Accepts`): schemes, authorities, paths and types are four lists, each of which asks for
one match in it if it counts at all. Both are the same.
-/

namespace IntentRouting

/-- A filter matches data and a type, however well, if one of its rules takes them. -/
theorem Filter.exists_matchData_eq_ok_iff {filter : Filter} {mimeType : Option String}
    {data : Option Uri} : (∃ quality, filter.matchData mimeType data = .ok quality) ↔
      if filter.rules = [] then mimeType = none ∧ data = none
      else (mimeType ≠ none ∨ data ≠ none) ∧ ∃ rule ∈ filter.rules, rule.Takes mimeType data := by
  simp only [matchData_eq_ok_iff, TakesData]
  split
  · simp
  · constructor
    · rintro ⟨quality, asked, ⟨rule, member, takes, _⟩, _⟩
      exact ⟨asked, rule, member, takes⟩
    · rintro ⟨asked, rule, member, takes⟩
      have best := isBest_bestQuality (filter.rules.map (·.matchData mimeType data))
      have found := DataRule.quality_mem_results_iff.2 ⟨rule, member, takes, rfl⟩
      generalize bestQuality (filter.rules.map (·.matchData mimeType data)) = quality at best
      cases quality with
      | none => exact absurd found (best _)
      | some quality =>
          refine ⟨quality, asked, DataRule.quality_mem_results_iff.1 best.1, ?_⟩
          intro other member takes
          exact best.2 _ (DataRule.quality_mem_results_iff.2 ⟨other, member, takes, rfl⟩)

namespace Manifest

/-- The filter that has the given parts. -/
def declaredFilter (priority : Int32) (autoVerify : Bool) (actions categories : List String)
    (elements : List DataElement) : Filter :=
  (elements.foldl FilterDraft.addData
    { FilterDraft.empty priority autoVerify with actions, categories }).toFilter

/-- What a filter says about data. -/
structure DataParts where
  schemes : List String
  authorities : List (String × Option String)
  paths : List PathRule
  types : List String

/-- A port that is not a number stands for no port. -/
def AcceptsAuthority (authority : String × Option String) (uri : Uri) : Prop :=
  (∃ host ∈ uri.host, DataRule.acceptsHost authority.1 host = true) ∧
    ∀ port ∈ authority.2, uri.port = (Integer.parse? Uri.portBounds port).map Int.toNat

def PathRule.pattern (rule : PathRule) : Pattern := ⟨rule.text, rule.kind⟩

namespace DataParts

/-- The parts that some elements declare. -/
def ofElements (elements : List DataElement) : DataParts :=
  { schemes := elements.filterMap (·.scheme)
    authorities := elements.filterMap fun element => element.host.map (·, element.port)
    paths := elements.flatMap (·.paths)
    types := elements.filterMap (·.mimeType) }

/-- Authorities count if there are any, and then paths do. -/
@[mk_iff]
structure AcceptsUri (parts : DataParts) (uri : Uri) : Prop where
  scheme : ∃ scheme ∈ parts.schemes, uri.scheme = some scheme
  authority : parts.authorities ≠ [] →
    ∃ authority ∈ parts.authorities, AcceptsAuthority authority uri
  path : parts.authorities ≠ [] → parts.paths ≠ [] →
    ∃ rule ∈ parts.paths, rule.pattern.accepts uri.path = true

/-- Either types are declared and one of them matches, or there is no type. -/
def AcceptsType (parts : DataParts) (mimeType : Option String) : Prop :=
  if parts.types = [] then mimeType = none
  else ∃ wanted ∈ parts.types, ∃ found ∈ mimeType, Mime.accepts wanted found = true

/-- Data that no scheme is asked of: none, relative data and local data. -/
def IsLocal (data : Option Uri) : Prop :=
  ∀ scheme ∈ data.bind Uri.scheme, scheme = Uri.contentScheme ∨ scheme = Uri.fileScheme

/-- What the parts mean for a type and data. -/
def Accepts (parts : DataParts) (mimeType : Option String) (data : Option Uri) : Prop :=
  if parts.schemes ≠ [] then (∃ uri ∈ data, parts.AcceptsUri uri) ∧ parts.AcceptsType mimeType
  else if parts.types ≠ [] then parts.AcceptsType mimeType ∧ IsLocal data
  else mimeType = none ∧ data = none

end DataParts

section Collecting

theorem mem_addNew {α : Type} [DecidableEq α] {values : List α} {value other : α} :
    other ∈ addNew values value ↔ other ∈ values ∨ other = value := by
  rw [addNew]
  split
  · rename_i member
    constructor
    · exact .inl
    · rintro (old | rfl)
      · exact old
      · exact member
  · rw [List.mem_append, List.mem_singleton]

theorem mem_foldl_addNew {α : Type} [DecidableEq α] {values added : List α} {value : α} :
    value ∈ added.foldl addNew values ↔ value ∈ values ∨ value ∈ added := by
  induction added generalizing values with
  | nil => simp
  | cons first added ih => rw [List.foldl_cons, ih, mem_addNew, List.mem_cons, or_assoc]

theorem eq_nil_congr {α : Type} {left right : List α}
    (same : ∀ value, value ∈ left ↔ value ∈ right) : left = [] ↔ right = [] := by
  simp only [List.eq_nil_iff_forall_not_mem, same]

/-- The same parts, at whatever place and however often. -/
structure DataParts.Agree (left right : DataParts) : Prop where
  schemes : ∀ scheme, scheme ∈ left.schemes ↔ scheme ∈ right.schemes
  authorities : ∀ authority, authority ∈ left.authorities ↔ authority ∈ right.authorities
  paths : ∀ path, path ∈ left.paths ↔ path ∈ right.paths
  types : ∀ type, type ∈ left.types ↔ type ∈ right.types

/-- What parts mean depends on neither their order nor their number. -/
theorem DataParts.Agree.accepts_iff {left right : DataParts} (agree : left.Agree right)
    (mimeType : Option String) (data : Option Uri) :
    left.Accepts mimeType data ↔ right.Accepts mimeType data := by
  have uris : ∀ uri, left.AcceptsUri uri ↔ right.AcceptsUri uri := by
    simp only [acceptsUri_iff, agree.schemes, agree.authorities, agree.paths,
      eq_nil_congr agree.authorities, eq_nil_congr agree.paths, ne_eq, implies_true]
  simp only [Accepts, AcceptsType, uris, agree.types, eq_nil_congr agree.schemes,
    eq_nil_congr agree.types, ne_eq]

end Collecting

namespace FilterDraft

variable {draft : FilterDraft} {elements : List DataElement} {mimeType : Option String}
  {data : Option Uri} {uri : Uri}

/-- The parts collected so far. -/
def parts (draft : FilterDraft) : DataParts :=
  ⟨draft.schemes, draft.authorities, draft.paths, draft.types⟩

/-- Elements about data add their parts, and each scheme, authority and type once. -/
theorem foldl_addData : elements.foldl addData draft =
    { draft with
      schemes := (DataParts.ofElements elements).schemes.foldl addNew draft.schemes
      authorities := (DataParts.ofElements elements).authorities.foldl addNew draft.authorities
      paths := draft.paths ++ (DataParts.ofElements elements).paths
      types := (DataParts.ofElements elements).types.foldl addNew draft.types } := by
  induction elements generalizing draft with
  | nil => simp [DataParts.ofElements]
  | cons element elements ih =>
      rw [List.foldl_cons, ih]
      cases scheme : element.scheme <;> cases host : element.host <;>
        cases mimeType : element.mimeType <;>
        simp [addData, addOptional, DataParts.ofElements, scheme, host, mimeType]

/-- What is collected from nothing are the parts of the elements. -/
theorem agree_foldl_addData (priority : Int32) (autoVerify : Bool)
    (actions categories : List String) :
    (elements.foldl addData
      { empty priority autoVerify with actions, categories }).parts.Agree
        (.ofElements elements) := by
  rw [foldl_addData]
  constructor <;> simp [parts, empty, mem_foldl_addNew]

section Rules

variable {scheme : String} {authority : Option (String × Option String)} {path : Option PathRule}
  {wanted : Option String}

theorem exists_mem_choices {α : Type} {values : List α} {property : Option α → Prop} :
    (∃ choice ∈ choices values, property choice) ↔
      if values = [] then property none else ∃ value ∈ values, property (some value) := by
  cases values <;> simp [choices]

theorem patterns_combine :
    (combine scheme authority path wanted).patterns = (path.map PathRule.pattern).toList := by
  rcases path with _ | ⟨kind, text⟩
  · rfl
  · cases kind <;> rfl

theorem takesHost_combine_iff : (combine scheme authority path wanted).TakesHost uri ↔
    ∀ declared ∈ authority, AcceptsAuthority declared uri := by
  have fields : (combine scheme authority path wanted).host = authority.map (·.1) ∧
      (combine scheme authority path wanted).port = authority.bind (·.2) := by
    rcases path with _ | ⟨kind, text⟩
    · exact ⟨rfl, rfl⟩
    · cases kind <;> exact ⟨rfl, rfl⟩
  cases authority <;> simp [DataRule.TakesHost, AcceptsAuthority, fields]

theorem takesPath_combine_iff : (combine scheme authority path wanted).TakesPath uri ↔
    ∀ rule ∈ path, rule.pattern.accepts uri.path = true := by
  cases path <;> simp [DataRule.TakesPath, DataRule.hasPath, patterns_combine]

/-- What the rule of one combination takes. -/
theorem takes_combine_iff : (combine scheme authority path wanted).Takes mimeType data ↔
    (∃ uri ∈ data, uri.scheme = some scheme ∧
      (∀ declared ∈ authority, AcceptsAuthority declared uri) ∧
        ∀ rule ∈ path, rule.pattern.accepts uri.path = true) ∧
      Option.Rel (fun wanted found => Mime.accepts wanted found = true) wanted mimeType := by
  have fields : (combine scheme authority path wanted).scheme = some scheme ∧
      (combine scheme authority path wanted).mimeType = wanted := by
    rcases path with _ | ⟨kind, text⟩
    · exact ⟨rfl, rfl⟩
    · cases kind <;> exact ⟨rfl, rfl⟩
  simp only [DataRule.Takes, DataRule.TakesUri, fields, takesHost_combine_iff,
    takesPath_combine_iff]

theorem takes_ofType_iff {wanted : String} : (DataRule.ofType wanted).Takes mimeType data ↔
    (∃ found ∈ mimeType, Mime.accepts wanted found = true) ∧ DataParts.IsLocal data := by
  cases mimeType <;>
    simp [DataRule.Takes, DataRule.TakesUri, DataRule.ofType, DataRule.empty, DataParts.IsLocal,
      and_comm]

theorem exists_mem_pathChoices :
    (∃ path ∈ draft.pathChoices authority, ∀ rule ∈ path,
      rule.pattern.accepts uri.path = true) ↔
      (authority ≠ none → draft.paths ≠ [] →
        ∃ rule ∈ draft.paths, rule.pattern.accepts uri.path = true) := by
  cases authority with
  | none => simp [pathChoices]
  | some declared => by_cases noPath : draft.paths = [] <;> simp [pathChoices, choices, noPath]

/-- Data is taken by some combination exactly if each list that counts has a match. -/
theorem exists_combination_iff :
    (∃ scheme ∈ draft.schemes, ∃ authority ∈ choices draft.authorities,
      ∃ path ∈ draft.pathChoices authority, uri.scheme = some scheme ∧
        (∀ declared ∈ authority, AcceptsAuthority declared uri) ∧
          ∀ rule ∈ path, rule.pattern.accepts uri.path = true) ↔ draft.parts.AcceptsUri uri := by
  have apart : (∃ scheme ∈ draft.schemes, ∃ authority ∈ choices draft.authorities,
      ∃ path ∈ draft.pathChoices authority, uri.scheme = some scheme ∧
        (∀ declared ∈ authority, AcceptsAuthority declared uri) ∧
          ∀ rule ∈ path, rule.pattern.accepts uri.path = true) ↔
      (∃ scheme ∈ draft.schemes, uri.scheme = some scheme) ∧
        ∃ authority ∈ choices draft.authorities,
          (∀ declared ∈ authority, AcceptsAuthority declared uri) ∧
            ∃ path ∈ draft.pathChoices authority, ∀ rule ∈ path,
              rule.pattern.accepts uri.path = true := by
    constructor
    · rintro ⟨scheme, member, authority, choice, path, choice', same, accepts, accepts'⟩
      exact ⟨⟨scheme, member, same⟩, authority, choice, accepts, path, choice', accepts'⟩
    · rintro ⟨⟨scheme, member, same⟩, authority, choice, accepts, path, choice', accepts'⟩
      exact ⟨scheme, member, authority, choice, path, choice', same, accepts, accepts'⟩
  rw [apart, DataParts.acceptsUri_iff]
  apply and_congr_right
  intro _
  simp only [exists_mem_pathChoices, exists_mem_choices]
  split
  · rename_i noAuthority
    simp [parts, noAuthority]
  · rename_i declared
    -- beside an authority the condition on the path is the same, whichever authority it is
    constructor
    · rintro ⟨authority, member, accepts, path⟩
      exact ⟨fun _ => ⟨authority, member, accepts authority rfl⟩, fun _ => path (by simp)⟩
    · rintro ⟨authority, path⟩
      rcases authority declared with ⟨authority, member, accepts⟩
      exact ⟨authority, member, by simpa using accepts, fun _ => path declared⟩

theorem mem_rules_iff {rule : DataRule} (declared : draft.schemes ≠ []) :
    rule ∈ draft.rules ↔ ∃ scheme ∈ draft.schemes, ∃ authority ∈ choices draft.authorities,
      ∃ path ∈ draft.pathChoices authority, ∃ wanted ∈ choices draft.types,
        combine scheme authority path wanted = rule := by
  simp [rules, declared]

theorem exists_rule_takes_iff (declared : draft.schemes ≠ []) :
    (∃ rule ∈ draft.rules, rule.Takes mimeType data) ↔
      (∃ uri ∈ data, draft.parts.AcceptsUri uri) ∧ draft.parts.AcceptsType mimeType := by
  have types : (∃ wanted ∈ choices draft.types,
      Option.Rel (fun wanted found => Mime.accepts wanted found = true) wanted mimeType) ↔
      draft.parts.AcceptsType mimeType := by
    rw [exists_mem_choices, DataParts.AcceptsType, parts]
    cases mimeType <;> simp
  simp only [mem_rules_iff declared, ← exists_combination_iff, ← types]
  constructor
  · rintro ⟨_, ⟨scheme, member, authority, choice, path, choice', wanted, choice'', rfl⟩, takes⟩
    rcases takes_combine_iff.1 takes with ⟨⟨uri, inData, accepts⟩, accepted⟩
    exact ⟨⟨uri, inData, scheme, member, authority, choice, path, choice', accepts⟩, wanted,
      choice'', accepted⟩
  · rintro ⟨⟨uri, inData, scheme, member, authority, choice, path, choice', accepts⟩, wanted,
      choice'', accepted⟩
    exact ⟨_, ⟨scheme, member, authority, choice, path, choice', wanted, choice'', rfl⟩,
      takes_combine_iff.2 ⟨⟨uri, inData, accepts⟩, accepted⟩⟩

theorem choices_ne_nil {α : Type} (values : List α) : choices values ≠ [] := by
  cases values <;> simp [choices]

theorem rules_ne_nil (declared : draft.schemes ≠ []) : draft.rules ≠ [] := by
  rcases List.exists_mem_of_ne_nil _ declared with ⟨scheme, member⟩
  rcases List.exists_mem_of_ne_nil _ (choices_ne_nil draft.authorities) with
    ⟨authority, choice⟩
  rcases List.exists_mem_of_ne_nil _ (choices_ne_nil draft.types) with
    ⟨wanted, choice'⟩
  have path : draft.pathChoices authority ≠ [] := by
    rw [pathChoices]
    split
    · exact choices_ne_nil _
    · simp
  rcases List.exists_mem_of_ne_nil _ path with ⟨path, choice''⟩
  exact List.ne_nil_of_mem ((mem_rules_iff declared).2
    ⟨scheme, member, authority, choice, path, choice'', wanted, choice', rfl⟩)

end Rules

/-- A draft without schemes makes one rule for each type, one with schemes all combinations. -/
theorem exists_matchData_toFilter_iff :
    (∃ quality, draft.toFilter.matchData mimeType data = .ok quality) ↔
      draft.parts.Accepts mimeType data := by
  rw [Filter.exists_matchData_eq_ok_iff, DataParts.Accepts]
  by_cases declared : draft.parts.schemes = []
  · have written : draft.toFilter.rules = draft.parts.types.map DataRule.ofType :=
      if_pos (List.isEmpty_iff.2 declared)
    rw [if_neg (not_not_intro declared), written]
    by_cases noType : draft.parts.types = []
    · rw [if_neg (not_not_intro noType), if_pos (List.map_eq_nil_iff.2 noType)]
    · rw [if_pos noType, if_neg (mt List.map_eq_nil_iff.1 noType), DataParts.AcceptsType,
        if_neg noType]
      simp only [List.mem_map, exists_exists_and_eq_and, takes_ofType_iff]
      constructor
      · rintro ⟨_, wanted, member, accepted, isLocal⟩
        exact ⟨⟨wanted, member, accepted⟩, isLocal⟩
      · rintro ⟨⟨wanted, member, found, isFound, accepted⟩, isLocal⟩
        refine ⟨.inl ?_, wanted, member, ⟨found, isFound, accepted⟩, isLocal⟩
        rintro rfl
        cases isFound
  · have written : draft.toFilter.rules ≠ [] := rules_ne_nil declared
    have taken : (∃ rule ∈ draft.rules, rule.Takes mimeType data) ↔ _ :=
      exists_rule_takes_iff declared
    rw [if_pos declared, if_neg written]
    refine (and_iff_right_of_imp ?_).trans taken
    intro takes
    rcases taken.1 takes with ⟨⟨uri, inData, _⟩, _⟩
    right
    rintro rfl
    cases inData

end FilterDraft

/-- A filter takes a type and data exactly if its elements about data do together. -/
theorem exists_matchData_declaredFilter_iff (priority : Int32) (autoVerify : Bool)
    (actions categories : List String) (elements : List DataElement) (mimeType : Option String)
    (data : Option Uri) :
    (∃ quality, (declaredFilter priority autoVerify actions categories elements).matchData
      mimeType data = .ok quality) ↔ (DataParts.ofElements elements).Accepts mimeType data :=
  FilterDraft.exists_matchData_toFilter_iff.trans
    ((FilterDraft.agree_foldl_addData priority autoVerify actions categories).accepts_iff
      mimeType data)

end Manifest

end IntentRouting
