import IntentRouting.Filter.Match
import Mathlib.Data.List.Induction

/-!
# What a filter takes

Matching stops at the first test that fails and carries the quality of the match along. Here both
are taken apart: a rule takes data and a type if conditions on each part of them hold, in whatever
order, and how specific such a match is depends on the rule alone (`DataRule.quality`), so a filter
matches as well as the most specific of its rules that take the intent.

`Filter.matchIntent_eq_ok_iff` says that matching succeeds, with some quality, exactly when the
filter takes the intent with that quality. What is said about resolving intents is said in these
terms, and no proof about it opens a test.
-/

namespace IntentRouting

namespace DataRule

/-- The condition of a rule on the host, and with it on the port. -/
def TakesHost (rule : DataRule) (data : Uri) : Prop :=
  ∀ wanted ∈ rule.host, (∃ found ∈ data.host, acceptsHost wanted found = true) ∧
    ∀ port ∈ rule.port, data.port = (Integer.parse? Uri.portBounds port).map Int.toNat

def TakesPath (rule : DataRule) (data : Uri) : Prop :=
  rule.hasPath = true → ∃ pattern ∈ rule.patterns, pattern.accepts data.path = true

/-- A rule without a scheme takes no data, relative data and local data. -/
def TakesUri (rule : DataRule) (data : Option Uri) : Prop :=
  match rule.scheme with
  | some scheme =>
      ∃ uri ∈ data, uri.scheme = some scheme ∧ rule.TakesHost uri ∧ rule.TakesPath uri
  | none =>
      ∀ scheme ∈ data.bind Uri.scheme, scheme = Uri.contentScheme ∨ scheme = Uri.fileScheme

/-- Either the rule and what it takes have a type, or neither has. -/
def Takes (rule : DataRule) (mimeType : Option String) (data : Option Uri) : Prop :=
  rule.TakesUri data ∧
    Option.Rel (fun wanted found => Mime.accepts wanted found = true) rule.mimeType mimeType

/-- How specific a rule is about the data: the last part of it that the rule has a condition on. -/
def specificity (rule : DataRule) : MatchQuality :=
  if rule.scheme = none then .empty
  else if rule.hasPath then .path
  else if rule.host = none then .scheme
  else if rule.port = none then .host
  else .port

/-- How good a match of a rule is. -/
def quality (rule : DataRule) : MatchQuality :=
  if rule.mimeType = none then rule.specificity else .type

variable {rule : DataRule} {uri : Uri} {data : Option Uri} {mimeType : Option String}
  {quality before : MatchQuality}

theorem matchHost_eq_ok_iff : rule.matchHost uri = .ok quality ↔ rule.TakesHost uri ∧
    (if rule.host = none then .scheme
      else if rule.port = none then .host else .port) = quality := by
  cases host : rule.host with
  | none => simp [matchHost, TakesHost, host]
  | some wanted =>
      cases found : uri.host with
      | none => simp [matchHost, TakesHost, host, found]
      | some found' =>
          cases port : rule.port with
          | none =>
              by_cases accepted : acceptsHost wanted found' = true <;>
                simp [matchHost, TakesHost, host, found, port, accepted]
          | some port' =>
              by_cases accepted : acceptsHost wanted found' = true <;>
                by_cases same : uri.port = (Integer.parse? Uri.portBounds port').map Int.toNat <;>
                simp [matchHost, TakesHost, host, found, port, accepted, same]

theorem matchPath_eq_ok_iff : rule.matchPath uri before = .ok quality ↔ rule.TakesPath uri ∧
    (if rule.hasPath = true then .path else before) = quality := by
  by_cases hasPath : rule.hasPath = true
  · by_cases accepted : rule.patterns.any (·.accepts uri.path) = true
    · have takes := List.any_eq_true.1 accepted
      simp [matchPath, TakesPath, hasPath, accepted, takes]
    · have refuses := mt List.any_eq_true.2 accepted
      simp [matchPath, TakesPath, hasPath, accepted, refuses]
  · simp [matchPath, TakesPath, hasPath]

theorem matchUri_eq_ok_iff :
    rule.matchUri data = .ok quality ↔ rule.TakesUri data ∧ rule.specificity = quality := by
  cases scheme : rule.scheme with
  | none =>
      cases found : data.bind Uri.scheme with
      | none => simp [matchUri, TakesUri, specificity, scheme, found]
      | some found' =>
          by_cases isLocal : found' = Uri.contentScheme ∨ found' = Uri.fileScheme <;>
            simp [matchUri, TakesUri, specificity, scheme, found, isLocal]
  | some wanted =>
      cases data with
      | none => simp [matchUri, TakesUri, scheme]
      | some uri =>
          by_cases same : uri.scheme = some wanted
          · cases host : rule.matchHost uri with
            | error mismatch =>
                have refuses : ¬ rule.TakesHost uri := by
                  intro takes
                  simp [matchHost_eq_ok_iff.2 ⟨takes, rfl⟩] at host
                simp [matchUri, TakesUri, scheme, same, host, refuses]
            | ok before =>
                rcases matchHost_eq_ok_iff.1 host with ⟨takes, rfl⟩
                simp [matchUri, TakesUri, specificity, scheme, same, host, takes,
                  matchPath_eq_ok_iff]
          · simp [matchUri, TakesUri, scheme, same]

/-- A rule matches exactly the data and the types that it takes, always with the same quality. -/
theorem matchData_eq_ok_iff : rule.matchData mimeType data = .ok quality ↔
    rule.Takes mimeType data ∧ rule.quality = quality := by
  cases uri : rule.matchUri data with
  | error mismatch =>
      have refuses : ¬ rule.TakesUri data := by
        intro takes
        simp [matchUri_eq_ok_iff.2 ⟨takes, rfl⟩] at uri
      simp [matchData, Takes, uri, refuses]
  | ok before =>
      rcases matchUri_eq_ok_iff.1 uri with ⟨takes, rfl⟩
      cases wanted : rule.mimeType with
      | none =>
          cases mimeType <;>
            simp [matchData, matchType, Takes, DataRule.quality, uri, wanted, takes]
      | some wanted' =>
          cases mimeType with
          | none => simp [matchData, matchType, Takes, uri, wanted]
          | some found =>
              by_cases accepted : Mime.accepts wanted' found = true <;>
                simp [matchData, matchType, Takes, DataRule.quality, uri, wanted, takes, accepted]

theorem quality_mem_results_iff {rules : List DataRule} :
    .ok quality ∈ rules.map (·.matchData mimeType data) ↔
      ∃ rule ∈ rules, rule.Takes mimeType data ∧ rule.quality = quality := by
  simp only [List.mem_map, matchData_eq_ok_iff]

end DataRule

namespace MatchQuality

theorem rank_injective {left right : MatchQuality} (same : left.rank = right.rank) :
    left = right := by
  cases left <;> cases right <;> simp_all [rank]

end MatchQuality

/-! ## Filters -/

namespace Filter

/-- A filter takes data and a type as well as the most specific of its rules that take them. A
filter without rules takes only intents without both. -/
def TakesData (filter : Filter) (mimeType : Option String) (data : Option Uri)
    (quality : MatchQuality) : Prop :=
  if filter.rules = [] then mimeType = none ∧ data = none ∧ quality = .empty
  else
    (mimeType ≠ none ∨ data ≠ none) ∧
      (∃ rule ∈ filter.rules, rule.Takes mimeType data ∧ rule.quality = quality) ∧
        ∀ rule ∈ filter.rules, rule.Takes mimeType data → rule.quality.rank ≤ quality.rank

/-- A filter takes an intent of some type, with some quality. -/
structure Takes (filter : Filter) (intent : Intent) (mimeType : Option String)
    (quality : MatchQuality) : Prop where
  action : filter.actions = [] ∨ ∃ action ∈ intent.action, action ∈ filter.actions
  categories : ∀ category ∈ intent.categories, category ∈ filter.categories
  data : filter.TakesData mimeType intent.data quality

/-- The best of some results: the greatest quality, if one of them is a match. -/
def IsBest (results : List (Except Mismatch MatchQuality)) : Option MatchQuality → Prop
  | none => ∀ quality, .ok quality ∉ results
  | some quality => .ok quality ∈ results ∧ ∀ other, .ok other ∈ results → other.rank ≤ quality.rank

section BestQuality

variable {results : List (Except Mismatch MatchQuality)} {quality : MatchQuality}

theorem bestQuality_concat_error (mismatch : Mismatch) :
    bestQuality (results ++ [.error mismatch]) = bestQuality results :=
  List.foldl_append

theorem bestQuality_concat_ok : bestQuality (results ++ [.ok quality]) =
    some (((bestQuality results).map fun other => other.max quality).getD quality) :=
  List.foldl_append

theorem IsBest.concat_error (mismatch : Mismatch) {best : Option MatchQuality}
    (isBest : IsBest results best) : IsBest (results ++ [.error mismatch]) best := by
  cases best <;> simpa [IsBest] using isBest

theorem IsBest.concat_ok {best : Option MatchQuality} (isBest : IsBest results best) :
    IsBest (results ++ [.ok quality])
      (some ((best.map fun other => other.max quality).getD quality)) := by
  cases best with
  | none =>
      simp only [IsBest] at isBest
      simp [IsBest, isBest]
  | some other =>
      rcases isBest with ⟨member, greatest⟩
      simp only [Option.map_some, Option.getD_some, MatchQuality.max, IsBest, List.mem_append,
        List.mem_singleton, Except.ok.injEq]
      split
      · rename_i below
        refine ⟨.inr rfl, ?_⟩
        rintro another (earlier | rfl)
        · exact Nat.le_trans (greatest another earlier) below
        · exact Nat.le_refl _
      · rename_i above
        refine ⟨.inl member, ?_⟩
        rintro another (earlier | rfl)
        · exact greatest another earlier
        · omega

theorem isBest_bestQuality (results : List (Except Mismatch MatchQuality)) :
    IsBest results (bestQuality results) := by
  induction results using List.reverseRecOn with
  | nil => simp [bestQuality, IsBest]
  | append_singleton results result ih =>
      cases result with
      | error mismatch =>
          rw [bestQuality_concat_error]
          exact ih.concat_error mismatch
      | ok quality =>
          rw [bestQuality_concat_ok]
          exact ih.concat_ok

theorem bestQuality_eq_some_iff :
    bestQuality results = some quality ↔ IsBest results (some quality) := by
  have best := isBest_bestQuality results
  constructor
  · intro found
    rwa [found] at best
  · rintro ⟨member, greatest⟩
    cases found : bestQuality results with
    | none =>
        rw [found] at best
        exact absurd member (best quality)
    | some other =>
        rw [found] at best
        congr 1
        apply MatchQuality.rank_injective
        apply Nat.le_antisymm
        · exact greatest other best.1
        · exact best.2 quality member

end BestQuality

variable {filter : Filter} {intent : Intent} {mimeType : Option String} {data : Option Uri}
  {quality : MatchQuality}

theorem matchData_eq_ok_iff :
    filter.matchData mimeType data = .ok quality ↔ filter.TakesData mimeType data quality := by
  by_cases bare : filter.rules = []
  · cases mimeType <;> cases data <;> simp [matchData, TakesData, bare, eq_comm]
  · -- the rules are not tried on an intent without data and type
    by_cases asked : mimeType = none ∧ data = none
    · simp [matchData, TakesData, bare, asked]
    · have asked' : mimeType ≠ none ∨ data ≠ none := by
        rwa [Decidable.not_and_iff_or_not] at asked
      have best : filter.TakesData mimeType data quality ↔
          bestQuality (filter.rules.map (·.matchData mimeType data)) = some quality := by
        simp only [TakesData, if_neg bare, bestQuality_eq_some_iff, IsBest,
          DataRule.quality_mem_results_iff, asked', true_and]
        apply and_congr_right
        intro _
        constructor
        · rintro greatest other ⟨rule, member, takes, rfl⟩
          exact greatest rule member takes
        · intro greatest rule member takes
          exact greatest rule.quality ⟨rule, member, takes, rfl⟩
      have skipped : (mimeType.isNone && data.isNone) = false := by
        cases mimeType <;> cases data <;> simp_all
      rw [best]
      cases found : bestQuality (filter.rules.map (·.matchData mimeType data)) <;>
        simp [matchData, bare, skipped, found]

/-- A filter matches exactly the intents that it takes. -/
theorem matchIntent_eq_ok_iff :
    filter.matchIntent intent mimeType = .ok quality ↔ filter.Takes intent mimeType quality := by
  have action : filter.matchAction intent.action = true ↔
      filter.actions = [] ∨ ∃ action ∈ intent.action, action ∈ filter.actions := by
    cases found : intent.action <;> simp [matchAction, hasAction]
  have categories : filter.missingCategory? intent.categories.names = none ↔
      ∀ category ∈ intent.categories, category ∈ filter.categories := by
    simp [missingCategory?, hasCategory, Membership.mem]
  constructor
  · intro found
    simp only [matchIntent] at found
    split at found
    · cases found
    · rename_i taken
      split at found
      · cases found
      · rename_i none
        exact ⟨action.1 (by simpa using taken), categories.1 none, matchData_eq_ok_iff.1 found⟩
  · rintro ⟨taken, declared, data⟩
    simp [matchIntent, action.2 taken, categories.2 declared, matchData_eq_ok_iff.2 data]

end Filter

end IntentRouting
