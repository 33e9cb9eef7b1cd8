import IntentRouting.Proofs.Resolver.Selector
import Mathlib.Data.List.Perm.Basic

/-!
# Narrower questions

A search that is narrowed to a package or to a kind finds what the wider search finds, less the
candidates of other packages or kinds. Nothing is searched for again: a handler is asked or not, and
what it answers does not depend on the other handlers. That the order is the same as well is a fact
about sorting, since a list may be filtered before or after it is sorted (`filter_mergeSort`).

A category that is added to an intent, and the wish for filters that need not be named, are of
another sort. They take filters away from a handler, so what it answers with can be another filter of
less merit, and it can change its place. What remains is that no handler appears that was not there
before, and that none rises (`Candidate.Within`).
-/

namespace IntentRouting

section Sorting

variable {α : Type} {le : α → α → Bool}

/-- An element is sorted into a list behind those that must stand before it, and before the others.
-/
theorem mergeSort_cons_eq (trans : ∀ a b c, le a b = true → le b c = true → le a c = true)
    (total : ∀ a b, (le a b || le b a) = true) (first : α) (rest : List α) :
    (first :: rest).mergeSort le =
      (rest.mergeSort le).filter (fun other => !le first other) ++
        first :: (rest.mergeSort le).filter (le first) := by
  rcases List.mergeSort_cons trans total first rest with ⟨before, after, whole, others, less⟩
  have sorted := List.pairwise_mergeSort trans total (first :: rest)
  rw [whole, List.pairwise_append, List.pairwise_cons] at sorted
  have notLess : ∀ other ∈ after, le first other = true := sorted.2.1.1
  rw [whole, others, List.filter_append, List.filter_append]
  rw [List.filter_eq_self.2 less, List.filter_eq_self.2 notLess]
  rw [List.filter_eq_nil_iff.2, List.filter_eq_nil_iff.2, List.append_nil, List.nil_append]
  · intro other member
    simpa using less other member
  · intro other member
    simpa using notLess other member

/-- A list can be filtered before it is sorted or afterwards. -/
theorem filter_mergeSort (trans : ∀ a b c, le a b = true → le b c = true → le a c = true)
    (total : ∀ a b, (le a b || le b a) = true) (wanted : α → Bool) (list : List α) :
    (list.mergeSort le).filter wanted = (list.filter wanted).mergeSort le := by
  induction list with
  | nil => simp
  | cons first rest ih =>
      by_cases isWanted : wanted first = true
      · rw [List.filter_cons_of_pos isWanted, mergeSort_cons_eq trans total,
          mergeSort_cons_eq trans total, List.filter_append, List.filter_cons_of_pos isWanted,
          List.filter_comm wanted, List.filter_comm wanted, ih]
      · -- the parts around the first element make up the list without it
        rcases List.mergeSort_cons trans total first rest with ⟨before, after, whole, others, _⟩
        rw [List.filter_cons_of_neg isWanted, whole, List.filter_append,
          List.filter_cons_of_neg isWanted, ← List.filter_append, ← others, ih]

end Sorting

namespace Candidate

/-- A candidate of the same handler as another one, with no higher merit. -/
structure NotAbove (candidate other : Candidate) : Prop where
  component : candidate.component = other.component
  kind : candidate.kind = other.kind
  merit : candidate.merit ≤ other.merit

/-- Candidates that are all among others, as far as their handlers are concerned, and do not stand
higher there. A handler is not there more often than among the others. -/
def Within (fewer all : List Candidate) : Prop :=
  ∃ part, List.Forall₂ NotAbove fewer part ∧ part.Subperm all

variable {fewer all : List Candidate}

theorem Within.components (within : Within fewer all) :
    (fewer.map component).Subperm (all.map component) := by
  rcases within with ⟨part, lower, among, perm, sublist⟩
  have same : fewer.map component = part.map component := by
    clear perm
    induction lower with
    | nil => rfl
    | cons notAbove _ ih => rw [List.map_cons, List.map_cons, notAbove.component, ih]
  rw [same]
  exact ⟨among.map component, perm.map component, sublist.map component⟩

theorem within_mergeSort (lower : List.SublistForall₂ NotAbove fewer all) :
    Within (fewer.mergeSort precedes) (all.mergeSort precedes) := by
  rcases List.sublistForall₂_iff.1 lower with ⟨part, notAbove, sublist⟩
  rcases List.perm_comp_forall₂ (List.mergeSort_perm fewer precedes) notAbove with
    ⟨part', notAbove', perm⟩
  refine ⟨part', notAbove', ?_⟩
  apply perm.subperm.trans
  apply sublist.subperm.trans
  exact (List.mergeSort_perm all precedes).symm.subperm

end Candidate

namespace Question

variable {strict loose : Question} {handler : Handler} {candidate : Candidate}

/-- A question is stricter than another one if only filters pass for it that pass for the other. -/
def IsStricter (strict loose : Question) : Prop :=
  ∀ filter quality, strict.Passes filter quality → loose.Passes filter quality

/-- The filter that a handler answers a stricter question with is one of those that it can answer
the other one with. -/
theorem answer?_of_isStricter (stricter : strict.IsStricter loose)
    (answer : strict.answer? handler = some candidate) :
    ∃ other, loose.answer? handler = some other ∧ candidate.NotAbove other := by
  have isAnswer := isAnswer_of_answer? answer
  rcases isAnswer.best with ⟨index, filter, _, found, priority, passes, _⟩
  have passesToo := stricter filter candidate.quality passes
  have answered := isSome_answer?_iff.2 ⟨filter, List.mem_of_getElem? found, _, passesToo⟩
  rcases Option.isSome_iff_exists.1 answered with ⟨other, answer'⟩
  have isAnswer' := isAnswer_of_answer? answer'
  rcases isAnswer'.best with ⟨_, _, _, _, _, _, greatest⟩
  refine ⟨other, answer', isAnswer.component.trans isAnswer'.component.symm,
    isAnswer.kind.trans isAnswer'.kind.symm, ?_⟩
  rw [Candidate.merit, priority]
  exact (greatest index filter candidate.quality found passesToo).1

theorem sublistForall₂_of_isStricter (stricter : strict.IsStricter loose)
    (handlers : List Handler) :
    List.SublistForall₂ Candidate.NotAbove (handlers.filterMap strict.answer?)
      (handlers.filterMap loose.answer?) := by
  induction handlers with
  | nil => exact .nil
  | cons handler handlers ih =>
      cases answer : strict.answer? handler with
      | none =>
          rw [List.filterMap_cons_none answer]
          cases other : loose.answer? handler with
          | none => rwa [List.filterMap_cons_none other]
          | some candidate =>
              rw [List.filterMap_cons_some other]
              exact .cons_right ih
      | some candidate =>
          rcases answer?_of_isStricter stricter answer with ⟨other, answer', notAbove⟩
          rw [List.filterMap_cons_some answer, List.filterMap_cons_some answer']
          exact .cons notAbove ih

end Question

namespace Resolver

variable {types : Types} {registry : Registry} {intent : Intent} {mimeType : Option String}
  {defaultOnly strict loose : Bool} {kind kind' : Option ComponentKind}
  {package package' : Option String} {wanted : Candidate → Bool}

/-- What is found for an intent with neither a component nor a selector. -/
theorem query_of_plain (implicit : intent.component = none) (plain : intent.selector = none) :
    query types registry intent defaultOnly kind =
      (effectiveType types intent).map fun mimeType =>
        (offers registry intent mimeType defaultOnly kind intent.package).mergeSort
          Candidate.precedes := by
  have view : intent.matchingView = intent := by
    simp [Intent.matchingView, plain]
  simp only [query, implicit, view, Option.or_self, Option.orElse_eq_orElse, Option.orElse_eq_or]
  cases effectiveType types intent <;> rfl

/-- Asking fewer handlers takes their offers away. -/
theorem offers_eq_filter
    (asked : ∀ handler : Handler, ∀ candidate : Candidate, candidate.component = handler.component →
      candidate.kind = handler.kind →
        isAsked kind' package' handler = (isAsked kind package handler && wanted candidate)) :
    offers registry intent mimeType defaultOnly kind' package' =
      (offers registry intent mimeType defaultOnly kind package).filter wanted := by
  let question : Question := ⟨intent, mimeType, defaultOnly, kind, package⟩
  change (registry.handlers.filter _).filterMap question.answer? =
    ((registry.handlers.filter _).filterMap question.answer?).filter wanted
  rw [List.filterMap_filter, List.filterMap_filter, List.filter_filterMap]
  apply List.filterMap_congr
  intro handler _
  cases answer : question.answer? handler with
  | none => simp
  | some candidate =>
      have isAnswer := Question.isAnswer_of_answer? answer
      rw [asked handler candidate isAnswer.component isAnswer.kind]
      cases isAsked kind package handler <;> cases isWanted : wanted candidate <;>
        simp [Option.filter, isWanted]

/-- A search that is narrowed finds what is wanted of the wide search, if the handlers that are
asked are those whose candidates are wanted. -/
theorem query_eq_map_filter {narrowed : Intent} (implicit : narrowed.component = none)
    (plain : narrowed.selector = none) (wide : intent = { narrowed with package := none })
    (asked : ∀ handler : Handler, ∀ candidate : Candidate, candidate.component = handler.component →
      candidate.kind = handler.kind →
        isAsked kind' narrowed.package handler = (isAsked kind none handler && wanted candidate)) :
    query types registry narrowed defaultOnly kind' =
      (query types registry intent defaultOnly kind).map (·.filter wanted) := by
  subst wide
  have effective : effectiveType types { narrowed with package := none } =
      effectiveType types narrowed := rfl
  rw [query_of_plain implicit plain, query_of_plain (by exact implicit) (by exact plain), effective]
  cases effectiveType types narrowed with
  | error error => rfl
  | ok mimeType =>
      have same : offers registry { narrowed with package := none } mimeType defaultOnly kind none =
          offers registry narrowed mimeType defaultOnly kind none :=
        offers_congr registry kind none rfl rfl rfl
      have commutes := filter_mergeSort Candidate.precedes_trans Candidate.precedes_total wanted
      simp only [Except.map, same, offers_eq_filter asked, commutes]

/-- Two searches are refused for the same reason, or what the first finds is within what the second
finds. -/
inductive FindsWithin : Except Error (List Candidate) → Except Error (List Candidate) → Prop
  | refused (error : Error) : FindsWithin (.error error) (.error error)
  | found {fewer all : List Candidate} (within : Candidate.Within fewer all) :
      FindsWithin (.ok fewer) (.ok all)

/-- A search with a stricter question finds less. -/
theorem findsWithin_of_isStricter {other : Intent} (implicit : intent.component = none)
    (plain : intent.selector = none) (implicit' : other.component = none)
    (plain' : other.selector = none) (package : intent.package = other.package)
    (effective : effectiveType types intent = effectiveType types other)
    (stricter : ∀ mimeType kind package, Question.IsStricter
      ⟨intent, mimeType, strict, kind, package⟩ ⟨other, mimeType, loose, kind, package⟩) :
    FindsWithin (query types registry intent strict kind)
      (query types registry other loose kind) := by
  rw [query_of_plain implicit plain, query_of_plain implicit' plain', effective, package]
  cases effectiveType types other with
  | error error => exact .refused error
  | ok mimeType =>
      apply FindsWithin.found
      apply Candidate.within_mergeSort
      exact Question.sublistForall₂_of_isStricter (stricter mimeType kind other.package) _

/-- A package and a kind narrow a search to the candidates that have them, in the order in which
they were found before. A category that is added, and the wish for filters that need not be named,
leave no handler that was not found before. -/
theorem query_of_narrower (types : Types) (registry : Registry) (intent : Intent)
    (defaultOnly : Bool) (kind : Option ComponentKind) (implicit : intent.component = none)
    (wide : intent.package = none) (plain : intent.selector = none) :
    (∀ package, ∃ narrowed, intent.setPackage (some package) = .ok narrowed ∧
        query types registry narrowed defaultOnly kind =
          (query types registry intent defaultOnly kind).map
            (·.filter fun candidate => candidate.component.package = package)) ∧
      (∀ only, query types registry intent defaultOnly (some only) =
        (query types registry intent defaultOnly none).map
          (·.filter fun candidate => candidate.kind = only)) ∧
        (∀ category, FindsWithin
          (query types registry (intent.addCategory category) defaultOnly kind)
          (query types registry intent defaultOnly kind)) ∧
          FindsWithin (query types registry intent true kind)
            (query types registry intent false kind) := by
  have isWide : intent = { intent with package := none } := by
    cases intent
    simp_all
  refine ⟨?_, ?_, ?_, ?_⟩
  · intro package
    refine ⟨{ intent with package := some package }, by simp [Intent.setPackage, plain], ?_⟩
    apply query_eq_map_filter (by exact implicit) (by exact plain) (by exact isWide)
    intro handler candidate component _
    simp [isAsked, component, Handler.package, eq_comm (a := package)]
  · intro only
    apply query_eq_map_filter implicit plain isWide
    intro handler candidate _ isKind
    simp [isAsked, wide, isKind, eq_comm (a := only)]
  · intro category
    refine findsWithin_of_isStricter (by exact implicit) (by exact plain) implicit plain rfl rfl ?_
    intro mimeType kind package filter quality passes
    refine ⟨passes.valid, passes.default, passes.takes.action, ?_, passes.takes.data⟩
    intro other member
    apply passes.takes.categories
    exact Categories.mem_insertName.2 (.inr member)
  · refine findsWithin_of_isStricter implicit plain implicit plain rfl rfl ?_
    intro mimeType kind package filter quality passes
    exact ⟨passes.valid, by simp, passes.takes⟩

end Resolver

/-- The page can be opened by one of its two handlers in a package, by none that is a service, and as
a link by no others. -/
theorem Pages.page_narrows : page.component = none ∧ page.package = none ∧ page.selector = none ∧
    (∃ narrowed, page.setPackage (some "com.reader") = .ok narrowed ∧
      Resolver.query types registry narrowed true none = .ok (candidates.drop 1)) ∧
      Resolver.query types registry page true (some .service) = .ok [] ∧
        ∃ fewer, Resolver.query types registry (page.addCategory Category.browsable) true none =
            .ok fewer ∧
          (fewer.map Candidate.component).Subperm (candidates.map Candidate.component) := by
  have narrower := Resolver.query_of_narrower types registry page true none rfl rfl rfl
  rw [query_page true] at narrower
  rcases narrower with ⟨ofPackage, ofKind, ofCategory, _⟩
  refine ⟨rfl, rfl, rfl, ?_, ?_, ?_⟩
  · rcases ofPackage "com.reader" with ⟨narrowed, isSet, found⟩
    exact ⟨narrowed, isSet, found.trans (by decide +kernel)⟩
  · exact (ofKind .service).trans (by decide +kernel)
  · have found := ofCategory Category.browsable
    generalize Resolver.query types registry (page.addCategory Category.browsable) true none =
      answer at found
    cases found with
    | found within => exact ⟨_, rfl, within.components⟩

end IntentRouting
