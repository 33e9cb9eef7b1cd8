import IntentRouting.Proofs.Resolver.Ranking

/-!
# The handler that is meant

An intent that several handlers take is resolved among those of the highest priority, whatever the
quality of their matches. A preference decides between them. Preferences are set, cleared and
forgotten in any order, and what is preferred for an intent is read off that history: the component
that was set last for an intent which filters cannot tell apart, unless a later change took it back
(`Prefers`). `Resolver.resolve_isOutcome` says what becomes of every answer of the registry.

Of the history only the entries of the store are known, so the proof goes over them: a change sets
an entry or keeps it, and no intent has two.
-/

namespace IntentRouting

/-- A change of what is preferred. -/
inductive PreferenceChange where
  | prefer (intent : Intent) (component : Component)
  | clear (intent : Intent)
  /-- Nothing of the package is preferred any more. -/
  | forget (package : String)

namespace PreferenceChange

def Sets (change : PreferenceChange) (intent : Intent) (component : Component) : Prop :=
  ∃ other, change = .prefer other component ∧ other.filterEquals intent = true

/-- Whether a component stays preferred for an intent if it was. -/
def Keeps (change : PreferenceChange) (intent : Intent) (component : Component) : Prop :=
  match change with
  | .prefer other _ => other.filterEquals intent = false
  | .clear other => other.filterEquals intent = false
  | .forget package => component.package ≠ package

end PreferenceChange

/-- After some changes a component is preferred for an intent. -/
def Prefers (changes : List PreferenceChange) (intent : Intent) (component : Component) : Prop :=
  ∃ earlier change later, changes = earlier ++ change :: later ∧ change.Sets intent component ∧
    ∀ other ∈ later, other.Keeps intent component

namespace Preferences

variable {preferences : Preferences} {changes : List PreferenceChange} {change : PreferenceChange}
  {intent : Intent} {component : Component}

def changeBy (preferences : Preferences) : PreferenceChange → Preferences
  | .prefer intent component => preferences.set intent component
  | .clear intent => preferences.clear intent
  | .forget package => (preferences.forgetPackage package).2

/-- The preferences after some changes, when there were none before. -/
def run (changes : List PreferenceChange) : Preferences := changes.foldl changeBy .empty

/-- No two entries are about the same intents. -/
def Distinct (preferences : Preferences) : Prop :=
  preferences.entries.Pairwise fun left right => left.1 ≠ right.1

theorem Distinct.changeBy (distinct : preferences.Distinct) (change : PreferenceChange) :
    (preferences.changeBy change).Distinct := by
  cases change with
  | prefer intent component =>
      apply List.Pairwise.cons
      · intro entry member
        have other : entry.1 ≠ intent.filterIdentity := by
          simpa using (List.mem_filter.1 member).2
        exact other.symm
      · exact distinct.filter _
  | clear intent => exact distinct.filter _
  | forget package => exact distinct.filter _

theorem distinct_run (changes : List PreferenceChange) : (run changes).Distinct := by
  induction changes using List.reverseRecOn with
  | nil => exact .nil
  | append_singleton changes change ih =>
      rw [run, List.foldl_append]
      exact ih.changeBy change

theorem Distinct.get?_eq_some_iff (distinct : preferences.Distinct) :
    preferences.get? intent = some component ↔
      (intent.filterIdentity, component) ∈ preferences.entries := by
  rw [get?, List.lookup_eq_some_iff]
  constructor
  · rintro ⟨earlier, later, split, _⟩
    simp [split]
  · intro member
    rcases List.append_of_mem member with ⟨earlier, later, split⟩
    refine ⟨earlier, later, split, ?_⟩
    intro entry before
    rw [Distinct, split, List.pairwise_append] at distinct
    simpa using (distinct.2.2 entry before _ List.mem_cons_self).symm

/-- An entry was set by the last change, or was there before and is kept. -/
theorem mem_changeBy_iff :
    (intent.filterIdentity, component) ∈ (preferences.changeBy change).entries ↔
      change.Sets intent component ∨ (intent.filterIdentity, component) ∈ preferences.entries ∧
        change.Keeps intent component := by
  have apart : ∀ other : Intent, other.filterEquals intent = false ↔
      intent.filterIdentity ≠ other.filterIdentity := by
    intro other
    simp [Intent.filterEquals, eq_comm]
  cases change with
  | prefer other component' =>
      have sets : (PreferenceChange.prefer other component').Sets intent component ↔
          intent.filterIdentity = other.filterIdentity ∧ component = component' := by
        simp [PreferenceChange.Sets, Intent.filterEquals, and_comm, @eq_comm _ component',
          @eq_comm _ other.filterIdentity]
      simp [changeBy, set, clear, sets, PreferenceChange.Keeps, apart]
  | clear other => simp [changeBy, clear, PreferenceChange.Sets, PreferenceChange.Keeps, apart]
  | forget package =>
      simp [changeBy, forgetPackage, PreferenceChange.Sets, PreferenceChange.Keeps]

theorem prefers_concat_iff : Prefers (changes ++ [change]) intent component ↔
    change.Sets intent component ∨
      Prefers changes intent component ∧ change.Keeps intent component := by
  constructor
  · rintro ⟨earlier, setting, later, split, sets, keeps⟩
    -- the change that set the preference is the last one, or it stands in the rest
    rcases later.eq_nil_or_concat with rfl | ⟨later, last, rfl⟩
    · left
      rcases List.append_inj' split rfl with ⟨_, same⟩
      cases same
      exact sets
    · right
      rw [List.concat_eq_append, ← List.cons_append, ← List.append_assoc] at split
      rcases List.append_inj' split rfl with ⟨rfl, same⟩
      cases same
      refine ⟨⟨earlier, setting, later, rfl, sets, ?_⟩, keeps change (by simp)⟩
      intro other member
      exact keeps other (by simp [member])
  · rintro (sets | ⟨⟨earlier, setting, later, rfl, sets, keeps⟩, kept⟩)
    · exact ⟨changes, change, [], rfl, sets, by simp⟩
    · refine ⟨earlier, setting, later ++ [change], by simp, sets, ?_⟩
      intro other member
      rcases List.mem_append.1 member with inLater | last
      · exact keeps other inLater
      · cases List.mem_singleton.1 last
        exact kept

/-- What is stored after some changes is what they make preferred. -/
theorem get?_run_iff : (run changes).get? intent = some component ↔
    Prefers changes intent component := by
  rw [(distinct_run changes).get?_eq_some_iff]
  induction changes using List.reverseRecOn with
  | nil => simp [run, empty, Prefers]
  | append_singleton changes change ih =>
      rw [prefers_concat_iff, ← ih, ← mem_changeBy_iff, run, List.foldl_append]
      rfl

end Preferences

namespace Resolver

/-- The candidates that no other one surpasses in priority. -/
def top (candidates : List Candidate) : List Candidate :=
  candidates.filter fun candidate => candidates.all fun other => other.priority ≤ candidate.priority

variable {candidates : List Candidate} {candidate : Candidate}

theorem priority_le_of_standsBefore {left right : Candidate} (before : left.StandsBefore right) :
    right.priority ≤ left.priority := by
  have merits := Candidate.merit_le_of_standsBefore before
  simp only [Candidate.merit, Candidate.meritOf, Prod.Lex.toLex_le_toLex] at merits
  rw [Int32.le_iff_toInt_le]
  omega

theorem takeWhile_eq_filter {priority : Int32}
    (ordered : candidates.Pairwise Candidate.StandsBefore)
    (below : ∀ candidate ∈ candidates, candidate.priority ≤ priority) :
    candidates.takeWhile (fun candidate => candidate.priority = priority) =
      candidates.filter fun candidate => candidate.priority = priority := by
  induction candidates with
  | nil => rfl
  | cons first rest ih =>
      rw [List.pairwise_cons] at ordered
      by_cases equal : first.priority = priority
      · have belowRest : ∀ candidate ∈ rest, candidate.priority ≤ priority := by
          intro candidate member
          exact below candidate (List.mem_cons_of_mem _ member)
        simp [equal, ih ordered.2 belowRest]
      · have smaller : ∀ candidate ∈ rest, candidate.priority ≠ priority := by
          rintro candidate member rfl
          have above := priority_le_of_standsBefore (ordered.1 candidate member)
          exact equal (Int32.le_antisymm (below first List.mem_cons_self) above)
        simpa [equal] using smaller

/-- In an answer no candidate surpasses the first. -/
theorem top_cons {first : Candidate} {rest : List Candidate}
    (ordered : (first :: rest).Pairwise Candidate.StandsBefore) :
    top (first :: rest) =
      first :: rest.filter fun candidate => candidate.priority = first.priority := by
  have below : ∀ candidate ∈ first :: rest, candidate.priority ≤ first.priority := by
    intro candidate member
    rcases List.mem_cons.1 member with rfl | inRest
    · exact Int32.le_refl _
    · exact priority_le_of_standsBefore ((List.pairwise_cons.1 ordered).1 candidate inRest)
  have isTop : ∀ candidate ∈ first :: rest,
      ((first :: rest).all fun other => other.priority ≤ candidate.priority) =
        Decidable.decide (candidate.priority = first.priority) := by
    intro candidate member
    rw [Bool.eq_iff_iff, List.all_eq_true, decide_eq_true_eq]
    constructor
    · intro above
      have firstBelow := of_decide_eq_true (above first List.mem_cons_self)
      exact Int32.le_antisymm (below candidate member) firstBelow
    · intro equal other otherMember
      simpa [equal] using below other otherMember
  rw [top, List.filter_congr isTop]
  simp

/-- In an answer, the candidates that tie stand first. -/
theorem tied_eq_top (ordered : candidates.Pairwise Candidate.StandsBefore) :
    tied candidates = top candidates := by
  cases candidates with
  | nil => rfl
  | cons first rest =>
      rcases List.pairwise_cons.1 ordered with ⟨before, orderedRest⟩
      have below : ∀ candidate ∈ rest, candidate.priority ≤ first.priority := by
        intro candidate member
        exact priority_le_of_standsBefore (before candidate member)
      rw [tied, top_cons ordered, takeWhile_eq_filter orderedRest below]

theorem top_ne_nil (ordered : candidates.Pairwise Candidate.StandsBefore)
    (some : candidates ≠ []) : top candidates ≠ [] := by
  rw [← tied_eq_top ordered]
  cases candidates with
  | nil => exact absurd rfl some
  | cons first rest => simp [tied]

variable {preferences : Preferences} {intent : Intent}

theorem decide_of_one_lt (several : 1 < candidates.length) :
    decide preferences intent candidates =
      match (preferences.get? intent).bind fun component =>
        candidates.find? fun candidate => candidate.component = component with
      | some candidate => .ok candidate
      | none => .error (.ambiguousMatch (candidates.map (·.component.short))) := by
  match candidates with
  | first :: second :: rest => rfl

theorem decide_cases (preferences : Preferences) (intent : Intent) (candidates : List Candidate) :
    (candidates = [] ∧
        decide preferences intent candidates = .error (.noMatchingHandler (describe intent))) ∨
      (∃ candidate ∈ candidates, decide preferences intent candidates = .ok candidate) ∨
        (candidates ≠ [] ∧ decide preferences intent candidates =
          .error (.ambiguousMatch (candidates.map (·.component.short)))) := by
  match candidates with
  | [] =>
      left
      exact ⟨rfl, rfl⟩
  | [candidate] =>
      right
      left
      exact ⟨candidate, List.mem_singleton_self _, rfl⟩
  | first :: second :: rest =>
      right
      rw [decide_of_one_lt (by simp)]
      split
      · rename_i candidate found
        rcases Option.bind_eq_some_iff.1 found with ⟨component, _, found⟩
        left
        exact ⟨candidate, List.mem_of_find?_eq_some found, rfl⟩
      · right
        exact ⟨List.cons_ne_nil _ _, rfl⟩

/-- What becomes of an intent that some candidates take, after some changes of preferences. -/
structure IsOutcome (changes : List PreferenceChange) (intent : Intent)
    (candidates : List Candidate) (outcome : Except Error Candidate) : Prop where
  nobody : ∀ text,
    outcome = .error (.noMatchingHandler text) ↔ candidates = [] ∧ describe intent = text
  only : ∀ candidate, top candidates = [candidate] → outcome = .ok candidate
  preferred : 1 < (top candidates).length → ∀ component candidate,
    Prefers changes intent component →
      (top candidates).find? (fun other => other.component = component) = some candidate →
        outcome = .ok candidate
  ambiguous : 1 < (top candidates).length →
    (∀ component, Prefers changes intent component →
      ∀ candidate ∈ top candidates, candidate.component ≠ component) →
        outcome = .error (.ambiguousMatch ((top candidates).map (·.component.short)))
  amongTop : ∀ candidate, outcome = .ok candidate → candidate ∈ top candidates

/-- An intent is resolved among the candidates of the highest priority, by the preference that is
left of all changes if there are several. -/
theorem resolve_isOutcome (types : Types) (changes : List PreferenceChange) (registry : Registry)
    (intent : Intent) (defaultOnly : Bool) (candidates : List Candidate)
    (answered : query types registry intent defaultOnly none = .ok candidates) :
    IsOutcome changes intent candidates
      (resolve types (Preferences.run changes) registry intent defaultOnly) := by
  have ordered := pairwise_query answered
  have decided : resolve types (Preferences.run changes) registry intent defaultOnly =
      decide (Preferences.run changes) intent (top candidates) := by
    simp only [resolve, answered, tied_eq_top ordered]
  rw [decided]
  constructor
  case nobody =>
    intro text
    constructor
    · intro refused
      rcases decide_cases (Preferences.run changes) intent (top candidates) with
        ⟨nobody, outcome⟩ | ⟨candidate, _, outcome⟩ | ⟨_, outcome⟩
      · rw [outcome] at refused
        cases refused
        refine ⟨?_, rfl⟩
        by_contra some
        exact top_ne_nil ordered some nobody
      · simp [outcome] at refused
      · simp [outcome] at refused
    · rintro ⟨rfl, rfl⟩
      rfl
  case only =>
    intro candidate only
    rw [only]
    rfl
  case preferred =>
    intro several component candidate prefers found
    rw [decide_of_one_lt several, Preferences.get?_run_iff.2 prefers, Option.bind_some, found]
  case ambiguous =>
    intro several others
    have nothing : ((Preferences.run changes).get? intent).bind (fun component =>
        (top candidates).find? fun candidate => candidate.component = component) = none := by
      rw [Option.bind_eq_none_iff]
      intro component prefers
      simpa using others component (Preferences.get?_run_iff.1 prefers)
    rw [decide_of_one_lt several, nothing]
  case amongTop =>
    intro candidate resolved
    rcases decide_cases (Preferences.run changes) intent (top candidates) with
      ⟨_, outcome⟩ | ⟨other, member, outcome⟩ | ⟨_, outcome⟩
    · simp [outcome] at resolved
    · rw [outcome] at resolved
      cases resolved
      exact member
    · simp [outcome] at resolved

end Resolver

namespace Pages

def reader : Candidate := ⟨⟨"com.reader", "com.reader.Page"⟩, .activity, 0, .type, some 1⟩

/-- The reader is preferred after the browser was, and stays so when the browser is removed. -/
def choosing : List PreferenceChange :=
  [.prefer page ⟨"com.browser", "com.browser.Page"⟩, .prefer page reader.component,
    .forget "com.browser"]

theorem resolve_page : Resolver.query types registry page true none = .ok candidates ∧
    Resolver.resolve types (Preferences.run choosing) registry page true = .ok reader := by
  have isOutcome := Resolver.resolve_isOutcome types choosing registry page true candidates
    (query_page true)
  refine ⟨query_page true, isOutcome.preferred (by decide +kernel) reader.component reader ?_ ?_⟩
  · refine ⟨choosing.take 1, .prefer page reader.component, [.forget "com.browser"], rfl,
      ⟨page, rfl, by decide +kernel⟩, ?_⟩
    intro other member
    cases List.mem_singleton.1 member
    show "com.reader" ≠ "com.browser"
    decide +kernel
  · decide +kernel

end Pages

end IntentRouting
