import IntentRouting.Proofs.Resolver.Ranking

/-!
# Selectors

A selector is matched in place of the intent that carries it, but it is not asked in place of that
intent. Its component, which would end the search if it were asked itself, is not looked at, nor is
a selector of its own, and its package narrows the search only if the outer intent has none. What
remains of it is the intent that stands in for the outer one (`Intent.standIn`): both get the same
answer from every registry, or the same error.

The proof is that filters see no more of an intent than its action, its categories and its data, so
what is left out of a selector changes no offer.
-/

namespace IntentRouting

namespace Intent

/-- What a selector amounts to in the place of an outer intent. -/
def standIn (outer selector : Intent) : Intent :=
  { selector with
    component := none
    selector := none
    package := outer.package <|> selector.package }

variable {outer selector : Intent}

theorem matchingView_of_selector (isSelector : outer.selector = some selector) :
    outer.matchingView = selector := by
  simp [matchingView, isSelector]

/-- A selector that has no more than is matched stands in for the outer intent itself, unless the
outer intent is narrowed to another package. -/
theorem standIn_eq_self (component : selector.component = none) (own : selector.selector = none)
    (package : ∀ package ∈ outer.package, selector.package = some package) :
    outer.standIn selector = selector := by
  have narrows : (outer.package <|> selector.package) = selector.package := by
    cases found : outer.package with
    | none => rfl
    | some wanted => exact (package wanted found).symm
  cases selector
  simp_all [standIn]

end Intent

namespace Resolver

variable {handler : Handler} {left right : Intent} {mimeType : Option String} {defaultOnly : Bool}

theorem bestOffer_congr
    (same : ∀ filter index, offer? handler left mimeType defaultOnly filter index =
      offer? handler right mimeType defaultOnly filter index)
    (best : Option Candidate) (filters : List Filter) (index : Nat) :
    bestOffer handler left mimeType defaultOnly best filters index =
      bestOffer handler right mimeType defaultOnly best filters index := by
  induction filters generalizing best index with
  | nil => rfl
  | cons filter filters ih => simp only [bestOffer, same, ih]

theorem offers_congr (registry : Registry) (kind : Option ComponentKind) (package : Option String)
    (action : left.action = right.action) (categories : left.categories = right.categories)
    (data : left.data = right.data) :
    offers registry left mimeType defaultOnly kind package =
      offers registry right mimeType defaultOnly kind package := by
  have same : ∀ handler filter index, offer? handler left mimeType defaultOnly filter index =
      offer? handler right mimeType defaultOnly filter index := by
    intro handler filter index
    simp only [offer?, Filter.matchIntent, action, categories, data]
  apply List.filterMap_congr
  intro handler _
  exact bestOffer_congr (same handler) none handler.filters 0

/-- An intent with a selector, but without a component, is answered as the intent that stands in
for it, and as the selector itself if that has neither a component nor a selector and is narrowed to
the same package. -/
theorem query_eq_query_standIn (types : Types) (registry : Registry) (outer selector : Intent)
    (defaultOnly : Bool) (kind : Option ComponentKind) (isSelector : outer.selector = some selector)
    (implicit : outer.component = none) :
    query types registry outer defaultOnly kind =
        query types registry (outer.standIn selector) defaultOnly kind ∧
      (selector.component = none → selector.selector = none →
        (∀ package ∈ outer.package, selector.package = some package) →
          query types registry outer defaultOnly kind =
            query types registry selector defaultOnly kind) := by
  have standsIn : query types registry outer defaultOnly kind =
      query types registry (outer.standIn selector) defaultOnly kind := by
    have effective : effectiveType types (outer.standIn selector) = effectiveType types selector :=
      rfl
    have package : ((outer.standIn selector).package <|> (outer.standIn selector).package) =
        (outer.package <|> selector.package) := by
      simp only [Intent.standIn]
      cases outer.package <;> cases selector.package <;> rfl
    have view : (outer.standIn selector).matchingView = outer.standIn selector := rfl
    have component : (outer.standIn selector).component = none := rfl
    simp only [query, implicit, component, Intent.matchingView_of_selector isSelector, view,
      effective, package]
    cases effectiveType types selector with
    | error error => rfl
    | ok mimeType =>
        have same : offers registry (outer.standIn selector) mimeType defaultOnly kind
              (outer.package <|> selector.package) =
            offers registry selector mimeType defaultOnly kind
              (outer.package <|> selector.package) :=
          offers_congr registry kind _ rfl rfl rfl
        simp only [same]
  refine ⟨standsIn, ?_⟩
  intro component own package
  rw [standsIn, Intent.standIn_eq_self component own package]

end Resolver

namespace Pages

def selecting (selector : Intent) : Intent := { Intent.empty with selector := some selector }

theorem query_selecting_page :
    (selecting page).selector = some page ∧ (selecting page).component = none ∧
      Resolver.query types registry (selecting page) true none = .ok candidates := by
  refine ⟨rfl, rfl, ?_⟩
  have standsIn := Resolver.query_eq_query_standIn types registry (selecting page) page true none
    rfl rfl
  rw [standsIn.2 rfl rfl (by rintro _ ⟨⟩), query_page]

/-- An intent that names the reader. -/
def named : Intent :=
  { Intent.empty with component := some ⟨"com.reader", "com.reader.Page"⟩ }

/-- The page, for one package only. -/
def narrowed : Intent := { selecting page with package := some "com.reader" }

/-- A selector with a component, one with a selector, and one beside a package get other answers
when they are asked themselves. -/
theorem query_selecting_ne_query :
    Resolver.query types registry (selecting named) true none ≠
        Resolver.query types registry named true none ∧
      Resolver.query types registry (selecting (selecting page)) true none ≠
          Resolver.query types registry (selecting page) true none ∧
        narrowed.selector = some page ∧ narrowed.component = none ∧
          Resolver.query types registry narrowed true none ≠
            Resolver.query types registry page true none := by
  have ofNamed : Resolver.offers registry named none true none none = [] := by decide +kernel
  have ofNested : Resolver.offers registry (selecting page) none true none none = [] := by
    decide +kernel
  have ofNarrowed : Resolver.offers registry page page.mimeType true none (some "com.reader") =
      candidates.drop 1 := by
    decide +kernel
  refine ⟨?_, ?_, rfl, rfl, ?_⟩
  · have answer : Resolver.query types registry (selecting named) true none = .ok [] :=
      Resolver.query_of_ordered rfl rfl ofNamed .nil
    rw [answer]
    intro same
    cases same
  · have answer : Resolver.query types registry (selecting (selecting page)) true none = .ok [] :=
      Resolver.query_of_ordered rfl rfl ofNested .nil
    have one : Resolver.query types registry (selecting page) true none = .ok candidates :=
      query_page true
    rw [answer, one]
    intro same
    cases same
  · have answer : Resolver.query types registry narrowed true none = .ok (candidates.drop 1) :=
      Resolver.query_of_ordered rfl rfl ofNarrowed (by decide +kernel)
    rw [answer, query_page]
    decide +kernel

end Pages

end IntentRouting
