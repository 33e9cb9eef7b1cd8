import IntentRouting.Proofs.Filter.Acceptance
import IntentRouting.Resolver
import Mathlib.Data.List.Forall2
import Mathlib.Data.Prod.Lex

/-!
# Which handlers take an intent, and in which order

To resolve an intent without a component is to put a question to each handler of the registry. The
question is about the intent that is matched, but the package that narrows it comes from the intent
that was asked for. A handler that takes the question stands in the answer once, with the best of
its filters, and the answer is ordered by priority, then by quality, then by component.

Priority and quality together are the merit of a candidate. The best filter is found by a running
best over the offers of a handler, which `IsFirstBest` describes: the offers before the best one are
worse, and those after it are not better. It is carried from a list of offers to a longer one.
-/

namespace IntentRouting

namespace Candidate

/-- Merits are compared by priority, and by quality if the priorities are equal. -/
abbrev Merit := ℤ ×ₗ ℕ

def meritOf (priority : Int32) (quality : MatchQuality) : Merit :=
  toLex (priority.toInt, quality.rank)

def merit (candidate : Candidate) : Merit := meritOf candidate.priority candidate.quality

/-- The order of an answer: by merit, the highest first, and by component if the merits are equal.
-/
def StandsBefore (left right : Candidate) : Prop :=
  right.merit < left.merit ∨
    right.merit = left.merit ∧ (left.component.compare right.component).isLE = true

variable {left middle right candidate other : Candidate}

theorem isBetter_iff : candidate.isBetter other = true ↔ other.merit < candidate.merit := by
  simp only [isBetter, merit, meritOf, Prod.Lex.toLex_lt_toLex, Bool.or_eq_true, Bool.and_eq_true,
    decide_eq_true_eq, Int32.lt_iff_toInt_lt, Int32.toInt_inj, eq_comm (a := other.priority)]

theorem precedes_iff : left.precedes right = true ↔ left.StandsBefore right := by
  have notBetter : right.isBetter left = false ↔ right.merit ≤ left.merit := by
    rw [← Bool.not_eq_true, isBetter_iff, not_lt]
  simp only [precedes, StandsBefore, Bool.or_eq_true, Bool.and_eq_true, Bool.not_eq_true',
    isBetter_iff, notBetter]
  constructor
  · rintro (better | ⟨notWorse, components⟩)
    · left
      exact better
    · rcases lt_or_eq_of_le notWorse with better | equal
      · left
        exact better
      · right
        exact ⟨equal, components⟩
  · rintro (better | ⟨equal, components⟩)
    · left
      exact better
    · right
      exact ⟨le_of_eq equal, components⟩

end Candidate

instance : Std.TransCmp Component.compare := by
  unfold Component.compare
  change Std.TransCmp (compareLex (compareOn Component.package) (compareOn Component.className))
  infer_instance

namespace Candidate

variable {left middle right : Candidate}

theorem StandsBefore.trans (first : left.StandsBefore middle) (second : middle.StandsBefore right) :
    left.StandsBefore right := by
  rcases first with better | ⟨equal, components⟩
  · left
    rcases second with better' | ⟨equal', _⟩
    · exact better'.trans better
    · exact equal' ▸ better
  · rcases second with better' | ⟨equal', components'⟩
    · left
      exact equal ▸ better'
    · right
      exact ⟨equal'.trans equal, Std.TransCmp.isLE_trans components components'⟩

theorem StandsBefore.total (left right : Candidate) :
    left.StandsBefore right ∨ right.StandsBefore left := by
  rcases lt_trichotomy left.merit right.merit with worse | equal | better
  · right
    left
    exact worse
  · have swap : left.component.compare right.component =
        (right.component.compare left.component).swap := Std.OrientedCmp.eq_swap
    cases components : right.component.compare left.component with
    | gt =>
        left
        right
        simp [equal, swap, components]
    | _ =>
        right
        right
        simp [equal, components]
  · left
    left
    exact better

theorem merit_le_of_standsBefore (before : left.StandsBefore right) :
    right.merit ≤ left.merit := by
  rcases before with better | ⟨equal, _⟩
  · exact le_of_lt better
  · exact le_of_eq equal

theorem precedes_trans (left middle right : Candidate) (first : left.precedes middle = true)
    (second : middle.precedes right = true) : left.precedes right = true :=
  precedes_iff.2 ((precedes_iff.1 first).trans (precedes_iff.1 second))

theorem precedes_total (left right : Candidate) :
    (left.precedes right || right.precedes left) = true := by
  simpa only [Bool.or_eq_true, precedes_iff] using StandsBefore.total left right

/-- Candidates that are sorted stand in the order of an answer. -/
theorem pairwise_mergeSort (candidates : List Candidate) :
    (candidates.mergeSort precedes).Pairwise StandsBefore := by
  have sorted := List.pairwise_mergeSort precedes_trans precedes_total candidates
  exact sorted.imp precedes_iff.1

/-- The first of the candidates of the highest merit, if there are any. -/
def IsFirstBest (candidates : List Candidate) : Option Candidate → Prop
  | none => candidates = []
  | some best => ∃ earlier later, candidates = earlier ++ best :: later ∧
      (∀ other ∈ earlier, other.merit < best.merit) ∧ ∀ other ∈ later, other.merit ≤ best.merit

variable {candidates : List Candidate} {best offer : Candidate}

theorem IsFirstBest.mem (first : IsFirstBest candidates (some best)) : best ∈ candidates := by
  rcases first with ⟨earlier, later, rfl, _, _⟩
  simp

theorem IsFirstBest.merit_le (first : IsFirstBest candidates (some best))
    (member : other ∈ candidates) : other.merit ≤ best.merit := by
  rcases first with ⟨earlier, later, rfl, worse, notBetter⟩
  simp only [List.mem_append, List.mem_cons] at member
  rcases member with before | rfl | after
  · exact le_of_lt (worse other before)
  · exact le_refl _
  · exact notBetter other after

/-- An offer is compared with the best of those before it. -/
theorem IsFirstBest.better {best : Option Candidate} (first : IsFirstBest candidates best)
    (offer : Candidate) :
    IsFirstBest (candidates ++ [offer]) (some (Resolver.better best offer)) := by
  cases best with
  | none =>
      cases first
      exact ⟨[], [], rfl, by simp, by simp⟩
  | some best =>
      simp only [Resolver.better]
      split
      · rename_i better
        refine ⟨candidates, [], rfl, ?_, by simp⟩
        intro other member
        exact lt_of_le_of_lt (first.merit_le member) (isBetter_iff.1 better)
      · rename_i notBetter
        rcases first with ⟨earlier, later, rfl, worse, others⟩
        refine ⟨earlier, later ++ [offer], by simp, worse, ?_⟩
        intro other member
        rcases List.mem_append.1 member with before | last
        · exact others other before
        · cases List.mem_singleton.1 last
          exact not_lt.1 (mt isBetter_iff.2 notBetter)

theorem isFirstBest_foldl (candidates : List Candidate) :
    IsFirstBest candidates
      (candidates.foldl (fun best offer => some (Resolver.better best offer)) none) := by
  induction candidates using List.reverseRecOn with
  | nil => rfl
  | append_singleton candidates offer ih =>
      rw [List.foldl_append]
      exact ih.better offer

end Candidate

/-! ## Questions -/

/-- What the handlers of a registry are asked. -/
structure Question where
  /-- The intent that is matched. -/
  view : Intent
  /-- The type that it is matched with. -/
  mimeType : Option String
  /-- Whether only filters count that need not be named. -/
  defaultOnly : Bool
  kind : Option ComponentKind
  package : Option String

namespace Question

/-- The question that an intent puts. Its selector is matched in place of it, but its own package
comes first. It is matched with the type that is set, or else with what is known of content. -/
def ofIntent (types : Resolver.Types) (intent : Intent) (defaultOnly : Bool)
    (kind : Option ComponentKind) : Question where
  view := intent.matchingView
  mimeType := intent.matchingView.mimeType <|>
    (intent.matchingView.data.filter Uri.isContent).bind types
  defaultOnly := defaultOnly
  kind := kind
  package := intent.package <|> intent.matchingView.package

/-- A filter passes for a question, with some quality. -/
structure Passes (question : Question) (filter : Filter) (quality : MatchQuality) : Prop where
  valid : filter.validate = .ok ()
  default : question.defaultOnly = true → Category.default ∈ filter.categories
  takes : filter.Takes question.view question.mimeType quality

/-- A handler stands in the answer to a question. -/
structure TakenBy (question : Question) (handler : Handler) : Prop where
  enabled : handler.enabled = true
  kind : ∀ kind ∈ question.kind, handler.kind = kind
  package : ∀ package ∈ question.package, handler.package = package
  passes : ∃ filter ∈ handler.filters, ∃ quality, question.Passes filter quality

/-- How a handler stands in the answer to a question: with the filter of the highest merit among
those that pass, and with the first of them if there are several. -/
structure IsAnswer (question : Question) (handler : Handler) (candidate : Candidate) : Prop where
  component : candidate.component = handler.component
  kind : candidate.kind = handler.kind
  best : ∃ index filter, candidate.filterIndex = some index ∧
    handler.filters[index]? = some filter ∧ candidate.priority = filter.priority ∧
      question.Passes filter candidate.quality ∧
        ∀ other otherFilter quality, handler.filters[other]? = some otherFilter →
          question.Passes otherFilter quality →
            Candidate.meritOf otherFilter.priority quality ≤ candidate.merit ∧
              (Candidate.meritOf otherFilter.priority quality = candidate.merit → index ≤ other)

variable {question : Question} {handler : Handler} {filter : Filter} {index : Nat}
  {candidate : Candidate}

/-- The offers of the filters of a handler, in their order. -/
def offers (question : Question) (handler : Handler) : List Candidate :=
  handler.filters.zipIdx.filterMap fun entry =>
    Resolver.offer? handler question.view question.mimeType question.defaultOnly entry.1 entry.2

/-- The offer that a handler answers with. -/
def answer? (question : Question) (handler : Handler) : Option Candidate :=
  Resolver.bestOffer handler question.view question.mimeType question.defaultOnly none
    handler.filters 0

theorem offer?_eq_some_iff :
    Resolver.offer? handler question.view question.mimeType question.defaultOnly filter index =
        some candidate ↔
      ∃ quality, question.Passes filter quality ∧
        ⟨handler.component, handler.kind, filter.priority, quality, some index⟩ = candidate := by
  have valid : filter.isValid = true ↔ filter.validate = .ok () := by
    cases fault : filter.fault? <;> simp [Filter.isValid, Filter.validate, fault]
  have declares : (question.defaultOnly && !filter.hasCategory Category.default) = false ↔
      (question.defaultOnly = true → Category.default ∈ filter.categories) := by
    cases question.defaultOnly <;> simp [Filter.hasCategory]
  constructor
  · intro offered
    rw [Resolver.offer?] at offered
    split at offered
    · cases offered
    · rename_i notInvalid
      split at offered
      · cases offered
      · rename_i notSkipped
        split at offered
        · cases offered
        · rename_i quality matched
          have passes : question.Passes filter quality := ⟨valid.1 (by simpa using notInvalid),
            declares.1 (by simpa using notSkipped), Filter.matchIntent_eq_ok_iff.1 matched⟩
          exact ⟨quality, passes, by simpa using offered⟩
  · rintro ⟨quality, passes, rfl⟩
    simp [Resolver.offer?, valid.2 passes.valid, declares.2 passes.default,
      Filter.matchIntent_eq_ok_iff.2 passes.takes]

theorem mem_offers_iff : candidate ∈ question.offers handler ↔
    ∃ index filter quality, handler.filters[index]? = some filter ∧
      question.Passes filter quality ∧
        ⟨handler.component, handler.kind, filter.priority, quality, some index⟩ = candidate := by
  simp only [offers, List.mem_filterMap, Prod.exists, List.mem_zipIdx_iff_getElem?,
    offer?_eq_some_iff]
  constructor
  · rintro ⟨filter, index, found, quality, passes, rfl⟩
    exact ⟨index, filter, quality, found, passes, rfl⟩
  · rintro ⟨index, filter, quality, found, passes, rfl⟩
    exact ⟨filter, index, found, quality, passes, rfl⟩

/-- Offers stand in the order of their filters. -/
theorem pairwise_offers (question : Question) (handler : Handler) :
    (question.offers handler).Pairwise fun left right =>
      ∀ index ∈ left.filterIndex, ∀ other ∈ right.filterIndex, index < other := by
  have ascending : handler.filters.zipIdx.Pairwise fun left right => left.2 < right.2 := by
    rw [← List.pairwise_map (f := Prod.snd), List.zipIdx_map_snd]
    exact List.pairwise_lt_range'
  rw [offers, List.pairwise_filterMap]
  refine ascending.imp ?_
  intro left right less candidate offered candidate' offered' index isIndex other isOther
  rcases offer?_eq_some_iff.1 offered with ⟨quality, _, rfl⟩
  rcases offer?_eq_some_iff.1 offered' with ⟨quality', _, rfl⟩
  cases isIndex
  cases isOther
  exact less

theorem bestOffer_eq_foldl (best : Option Candidate) (filters : List Filter) (index : Nat) :
    Resolver.bestOffer handler question.view question.mimeType question.defaultOnly best filters
        index =
      ((filters.zipIdx index).filterMap fun entry =>
        Resolver.offer? handler question.view question.mimeType question.defaultOnly entry.1
          entry.2).foldl (fun best offer => some (Resolver.better best offer)) best := by
  induction filters generalizing best index with
  | nil => rfl
  | cons filter filters ih =>
      rw [Resolver.bestOffer, ih, List.zipIdx_cons, List.filterMap_cons]
      cases Resolver.offer? handler question.view question.mimeType question.defaultOnly filter
        index <;> rfl

theorem isFirstBest_answer? (question : Question) (handler : Handler) :
    Candidate.IsFirstBest (question.offers handler) (question.answer? handler) := by
  rw [answer?, bestOffer_eq_foldl]
  exact Candidate.isFirstBest_foldl (question.offers handler)

theorem isSome_answer?_iff : (question.answer? handler).isSome = true ↔
    ∃ filter ∈ handler.filters, ∃ quality, question.Passes filter quality := by
  have first := question.isFirstBest_answer? handler
  cases answer : question.answer? handler with
  | none =>
      rw [answer] at first
      constructor
      · intro isSome
        cases isSome
      · rintro ⟨filter, member, quality, passes⟩
        rcases List.getElem?_of_mem member with ⟨index, found⟩
        have offered := mem_offers_iff.2 ⟨index, filter, quality, found, passes, rfl⟩
        rw [show question.offers handler = [] from first] at offered
        cases offered
  | some candidate =>
      rw [answer] at first
      rcases mem_offers_iff.1 first.mem with ⟨index, filter, quality, found, passes, _⟩
      exact iff_of_true rfl ⟨filter, List.mem_of_getElem? found, quality, passes⟩

theorem takenBy_iff : question.TakenBy handler ↔
    Resolver.isAsked question.kind question.package handler = true ∧
      (question.answer? handler).isSome = true := by
  rw [isSome_answer?_iff]
  simp only [Resolver.isAsked, Bool.and_eq_true, Option.all_eq_true, decide_eq_true_eq]
  constructor
  · rintro ⟨enabled, kind, package, passes⟩
    exact ⟨⟨⟨enabled, fun wanted isWanted => (kind wanted isWanted).symm⟩,
      fun wanted isWanted => (package wanted isWanted).symm⟩, passes⟩
  · rintro ⟨⟨⟨enabled, kind⟩, package⟩, passes⟩
    exact ⟨enabled, fun wanted isWanted => (kind wanted isWanted).symm,
      fun wanted isWanted => (package wanted isWanted).symm, passes⟩

instance (question : Question) (handler : Handler) : Decidable (question.TakenBy handler) :=
  decidable_of_iff _ takenBy_iff.symm

theorem isAnswer_of_answer? (answer : question.answer? handler = some candidate) :
    question.IsAnswer handler candidate := by
  have first := question.isFirstBest_answer? handler
  rw [answer] at first
  rcases mem_offers_iff.1 first.mem with ⟨index, filter, quality, found, passes, rfl⟩
  refine ⟨rfl, rfl, index, filter, rfl, found, rfl, passes, ?_⟩
  intro other otherFilter otherQuality otherFound otherPasses
  have offered := mem_offers_iff.2 ⟨other, otherFilter, otherQuality, otherFound, otherPasses, rfl⟩
  refine ⟨first.merit_le offered, ?_⟩
  intro equal
  -- an offer of the same merit is not among the earlier ones, which are all worse
  have ascending := question.pairwise_offers handler
  rcases first with ⟨earlier, later, split, worse, _⟩
  rw [split] at offered ascending
  simp only [List.mem_append, List.mem_cons] at offered
  rcases offered with before | same | after
  · exact absurd equal (ne_of_lt (worse _ before))
  · have places : some other = some index := congrArg Candidate.filterIndex same
    exact le_of_eq (Option.some.inj places).symm
  · have before := (List.pairwise_cons.1 (List.pairwise_append.1 ascending).2.1).1 _ after
    exact Nat.le_of_lt (before index rfl other rfl)

/-- The offers of all handlers: one for each handler that takes the question. -/
theorem forall₂_isAnswer (question : Question) (handlers : List Handler) :
    List.Forall₂ question.IsAnswer (handlers.filter question.TakenBy)
      ((handlers.filter (Resolver.isAsked question.kind question.package)).filterMap
        question.answer?) := by
  induction handlers with
  | nil => exact .nil
  | cons handler handlers ih =>
      have takenBy : question.TakenBy handler ↔ _ := takenBy_iff
      by_cases asked : Resolver.isAsked question.kind question.package handler = true
      · cases answer : question.answer? handler with
        | none =>
            have refuses : ¬ question.TakenBy handler := by
              simp [takenBy, answer]
            simpa [asked, answer, refuses] using ih
        | some candidate =>
            have takes : question.TakenBy handler := by
              simp [takenBy, asked, answer]
            simpa [asked, answer, takes] using ⟨isAnswer_of_answer? answer, ih⟩
      · have refuses : ¬ question.TakenBy handler := by
          simp [takenBy, asked]
        simpa [asked, refuses] using ih

/-- A list of candidates answers a question: each handler that takes the question stands in it
once, nothing else does, and it is in order. -/
structure IsAnsweredBy (question : Question) (registry : Registry) (candidates : List Candidate) :
    Prop where
  complete : ∃ answers, List.Forall₂ question.IsAnswer
    (registry.handlers.filter question.TakenBy) answers ∧ candidates.Perm answers
  ranked : candidates.Pairwise Candidate.StandsBefore

end Question

/-- Offers that are in order already are the answer. -/
theorem Resolver.query_of_ordered {types : Types} {registry : Registry} {intent : Intent}
    {mimeType : Option String} {defaultOnly : Bool} {kind : Option ComponentKind}
    {candidates : List Candidate} (implicit : intent.component = none)
    (typed : effectiveType types intent.matchingView = .ok mimeType)
    (offered : offers registry intent.matchingView mimeType defaultOnly kind
      (intent.package <|> intent.matchingView.package) = candidates)
    (ordered : candidates.Pairwise fun left right => left.precedes right = true) :
    query types registry intent defaultOnly kind = .ok candidates := by
  simp only [query, implicit, typed, offered, List.mergeSort_of_pairwise ordered]

/-! ## A page that two handlers open -/

namespace Pages

def filter (rule : DataRule) : Filter :=
  { Filter.ofAction Action.view with categories := [Category.default], rules := [rule] }

def handler (package : String) (filters : List Filter) : Handler :=
  ⟨.of package "Page", .activity, filters, true, true⟩

/-- The browser opens texts of all hosts, and the reader pages of one host. -/
def registry : Registry where
  generation := 2
  packages := ⟨[("com.browser", [handler "com.browser" [filter (.urlOfType "https" "*" "text/*")]]),
    ("com.reader", [handler "com.reader" [filter (.ofType "text/plain"),
      filter (.urlOfType "https" "example.org" "text/html")]])], by decide⟩

def page : Intent :=
  { Intent.ofAction Action.view with
    data := some ⟨some "https", .hierarchical (some "example.org") "/page" none, none⟩
    mimeType := some "text/html" }

/-- A document of a provider, without a type. -/
def document : Intent :=
  { Intent.ofAction Action.view with
    data := some ⟨some Uri.contentScheme, .hierarchical (some "documents") "/1" none, none⟩ }

/-- All documents are plain texts. -/
def types : Resolver.Types := fun _ => some "text/plain"

/-- Both handlers, in the order of their components. -/
def candidates : List Candidate :=
  [⟨⟨"com.browser", "com.browser.Page"⟩, .activity, 0, .type, some 0⟩,
    ⟨⟨"com.reader", "com.reader.Page"⟩, .activity, 0, .type, some 1⟩]

/-- The reader, with its first filter. -/
def textCandidates : List Candidate :=
  [⟨⟨"com.reader", "com.reader.Page"⟩, .activity, 0, .type, some 0⟩]

theorem query_page (defaultOnly : Bool) :
    Resolver.query types registry page defaultOnly none = .ok candidates := by
  have offered : Resolver.offers registry page page.mimeType defaultOnly none none =
      candidates := by
    cases defaultOnly <;> decide +kernel
  exact Resolver.query_of_ordered rfl rfl offered (by decide +kernel)

theorem query_document :
    Resolver.query types registry document true none = .ok textCandidates := by
  have offered : Resolver.offers registry document (some "text/plain") true none none =
      textCandidates := by
    decide +kernel
  exact Resolver.query_of_ordered rfl rfl offered (by decide +kernel)

end Pages

/-! ## Answers -/

namespace Resolver

variable {types : Types} {registry : Registry} {intent : Intent} {defaultOnly : Bool}
  {kind : Option ComponentKind} {candidates : List Candidate}

theorem resolveType_eq (types : Types) (intent : Intent) : intent.resolveType types =
    (intent.mimeType <|> (intent.data.filter Uri.isContent).bind types) := by
  rw [Intent.resolveType]
  cases intent.mimeType with
  | some mimeType => rfl
  | none =>
      cases intent.data with
      | none => rfl
      | some data => cases content : data.isContent <;> simp [content, Option.filter]

theorem effectiveType_eq_ok
    (typed : ∀ mimeType ∈ intent.mimeType, Mime.validate mimeType = .ok ()) :
    effectiveType types intent = .ok (intent.resolveType types) := by
  cases found : intent.mimeType with
  | none => simp [effectiveType, found]
  | some mimeType => simp [effectiveType, found, typed mimeType found]

/-- Whatever an intent asks for, what it gets is in order. -/
theorem pairwise_query (answered : query types registry intent defaultOnly kind = .ok candidates) :
    candidates.Pairwise Candidate.StandsBefore := by
  cases component : intent.component with
  | some component' =>
      simp only [query, component, Except.ok.injEq] at answered
      subst answered
      apply List.pairwise_singleton
  | none =>
      cases effective : effectiveType types intent.matchingView with
      | error error => simp [query, component, effective] at answered
      | ok mimeType =>
          simp only [query, component, effective, Except.ok.injEq] at answered
          subst answered
          apply Candidate.pairwise_mergeSort

/-- An intent without a component, whose type is valid if it has one, is answered by the handlers
that take its question. -/
theorem query_isAnsweredBy (types : Types) (registry : Registry) (intent : Intent)
    (defaultOnly : Bool) (kind : Option ComponentKind) (implicit : intent.component = none)
    (typed : ∀ mimeType ∈ intent.matchingView.mimeType, Mime.validate mimeType = .ok ()) :
    ∃ candidates, query types registry intent defaultOnly kind = .ok candidates ∧
      (Question.ofIntent types intent defaultOnly kind).IsAnsweredBy registry candidates := by
  let question := Question.ofIntent types intent defaultOnly kind
  let answers := (registry.handlers.filter (isAsked question.kind question.package)).filterMap
    question.answer?
  have answered : query types registry intent defaultOnly kind =
      .ok (answers.mergeSort Candidate.precedes) := by
    simp only [query, implicit, effectiveType_eq_ok typed, resolveType_eq]
    rfl
  refine ⟨_, answered, ?_, pairwise_query answered⟩
  exact ⟨answers, question.forall₂_isAnswer registry.handlers, List.mergeSort_perm _ _⟩

/-- A page that is a text of a host, and a document whose type is looked up. -/
theorem page_isAnsweredBy : Pages.page.component = none ∧
    (∀ mimeType ∈ Pages.page.matchingView.mimeType, Mime.validate mimeType = .ok ()) ∧
      (Question.ofIntent Pages.types Pages.page true none).IsAnsweredBy Pages.registry
        Pages.candidates ∧
    Pages.document.component = none ∧ Pages.document.matchingView.mimeType = none ∧
      (Question.ofIntent Pages.types Pages.document true none).IsAnsweredBy Pages.registry
        Pages.textCandidates := by
  have typed : ∀ mimeType ∈ Pages.page.matchingView.mimeType, Mime.validate mimeType = .ok () := by
    rintro mimeType ⟨⟩
    decide +kernel
  have untyped : ∀ mimeType ∈ Pages.document.matchingView.mimeType,
      Mime.validate mimeType = .ok () := by
    rintro mimeType ⟨⟩
  rcases query_isAnsweredBy Pages.types Pages.registry Pages.page true none rfl typed with
    ⟨candidates, answered, isAnswered⟩
  rcases query_isAnsweredBy Pages.types Pages.registry Pages.document true none rfl untyped with
    ⟨texts, textsAnswered, textsAnswer⟩
  rw [Pages.query_page, Except.ok.injEq] at answered
  rw [Pages.query_document, Except.ok.injEq] at textsAnswered
  subst answered textsAnswered
  exact ⟨rfl, typed, isAnswered, rfl, rfl, textsAnswer⟩

end Resolver

end IntentRouting
