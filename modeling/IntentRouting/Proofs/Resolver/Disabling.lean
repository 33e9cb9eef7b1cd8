import IntentRouting.Proofs.Resolver.Ranking

/-!
# Disabled components

A component is disabled by its name, but a package is installed with a list of handlers in which a
name may stand more than once, and only the first of the handlers of that name is switched. The
others stay in the registry as they were installed, until the package is installed again or removed
(`Registry.handlersOf_run`).

`Resolver.isCandidate_disabled_iff` says what follows for resolving: as long as nothing brings the
component back, it is a candidate for an intent exactly when its package is still there and one of
the further handlers of its name takes the intent. A component whose name stands in its package once
is never matched while it is disabled.
-/

namespace IntentRouting

/-- A change of what is installed. -/
inductive RegistryChange where
  | install (package : String) (handlers : List Handler)
  | uninstall (package : String)
  | setEnabled (component : Component) (enabled : Bool)
deriving DecidableEq

namespace NameMap

variable {α : Type} {map : NameMap α} {name : String} {value : α}

theorem mem_entries_of_get? (found : map.get? name = some value) : (name, value) ∈ map.entries := by
  rcases List.lookup_eq_some_iff.1 found with ⟨earlier, later, split, _⟩
  simp [split]

theorem get?_erase_self (map : NameMap α) (name : String) : (map.erase name).get? name = none := by
  rw [get?, erase, List.lookup_eq_none_iff]
  intro entry member
  have other : entry.1 ≠ name := by
    simpa using (List.mem_filter.1 member).2
  simpa using Ne.symm other

theorem get?_erase_of_ne {other : String} (differ : other ≠ name) :
    (map.erase name).get? other = map.get? other := by
  simp only [get?, erase]
  induction map.entries with
  | nil => rfl
  | cons entry entries ih =>
      by_cases same : entry.1 = name
      · rw [List.filter_cons_of_neg (by simp [same]), ih, lookup_cons_eq_ite, same, if_neg differ]
      · rw [List.filter_cons_of_pos (by simp [same]), lookup_cons_eq_ite, lookup_cons_eq_ite, ih]

end NameMap

namespace Registry

variable {registry : Registry} {component other : Component} {enabled : Bool}
  {handlers : List Handler} {package : String}

/-- The registry after a change; one that is refused leaves it as it was. -/
def changeBy (registry : Registry) : RegistryChange → Registry
  | .install package handlers =>
      match registry.install package handlers with
      | .ok (installed, _) => installed
      | .error _ => registry
  | .uninstall package => (registry.uninstall package).2.1
  | .setEnabled component enabled =>
      match registry.setEnabled component enabled with
      | .ok (switched, _) => switched
      | .error _ => registry

def run (registry : Registry) (changes : List RegistryChange) : Registry :=
  changes.foldl changeBy registry

/-- The handlers that are installed under the name of a component. -/
def handlersOf (registry : Registry) (component : Component) : List Handler :=
  registry.handlers.filter fun handler => handler.component = component

/-- Every handler is kept under the package that it is in. -/
def Filed (registry : Registry) : Prop :=
  ∀ entry ∈ registry.packages.entries, ∀ handler ∈ entry.2, handler.package = entry.1

/-- A change that can bring a disabled component back: its package is installed, or it is enabled
itself. A change that is refused brings nothing back. -/
def Restores (registry : Registry) (component : Component) : RegistryChange → Prop
  | .install package handlers =>
      package = component.package ∧ ∃ installed, registry.install package handlers = .ok installed
  | .uninstall _ => False
  | .setEnabled other enabled =>
      other = component ∧ enabled = true ∧
        ∃ switched, registry.setEnabled other enabled = .ok switched

/-- None of some changes brings a component back, each in the registry that it is made in. -/
def NeverRestores (component : Component) : Registry → List RegistryChange → Prop
  | _, [] => True
  | registry, change :: changes =>
      ¬ registry.Restores component change ∧
        NeverRestores component (registry.changeBy change) changes

/-! ## What stands under a name -/

theorem map_component_enableFirst (component : Component) (enabled : Bool)
    (handlers : List Handler) :
    (enableFirst component enabled handlers).map Handler.component =
      handlers.map Handler.component := by
  induction handlers with
  | nil => rfl
  | cons handler handlers ih =>
      rw [enableFirst]
      split
      · rfl
      · rw [List.map_cons, List.map_cons, ih]

/-- Switching a component switches the first handler of its name. -/
theorem filter_enableFirst_self (component : Component) (enabled : Bool)
    (handlers : List Handler) :
    (enableFirst component enabled handlers).filter (fun handler => handler.component = component) =
      match handlers.filter fun handler => handler.component = component with
      | [] => []
      | first :: further => { first with enabled } :: further := by
  induction handlers with
  | nil => rfl
  | cons handler handlers ih =>
      by_cases same : handler.component = component
      · simp [enableFirst, same]
      · simpa [enableFirst, same] using ih

theorem filter_enableFirst_of_ne (differ : component ≠ other) (enabled : Bool)
    (handlers : List Handler) :
    (enableFirst other enabled handlers).filter (fun handler => handler.component = component) =
      handlers.filter fun handler => handler.component = component := by
  induction handlers with
  | nil => rfl
  | cons handler handlers ih =>
      by_cases same : handler.component = other
      · simp [enableFirst, same, Ne.symm differ]
      · by_cases wanted : handler.component = component
        · simp [enableFirst, wanted, differ, ih]
        · simp [enableFirst, same, wanted, ih]

theorem handlersOf_eq (filed : registry.Filed) (component : Component) :
    registry.handlersOf component =
      ((registry.packages.get? component.package).getD []).filter fun handler =>
        handler.component = component := by
  rw [handlersOf, Registry.handlers, NameMap.values, NameMap.get?]
  have ascending := registry.packages.ascending
  rw [Filed] at filed
  generalize registry.packages.entries = entries at ascending filed
  induction entries with
  | nil => rfl
  | cons entry entries ih =>
      rw [List.pairwise_cons] at ascending
      have filedRest := fun other member => filed other (List.mem_cons_of_mem _ member)
      rw [List.map_cons, List.flatten_cons, List.filter_append, NameMap.lookup_cons_eq_ite,
        ih ascending.2 filedRest]
      by_cases same : component.package = entry.1
      · -- the packages behind have other names, so nothing stands there under this one
        have absent : entries.lookup component.package = none := by
          rw [List.lookup_eq_none_iff]
          intro other member
          have later := ascending.1 other member
          rw [← same] at later
          simpa using fun equal : component.package = other.1 =>
            absurd (equal ▸ later) (String.lt_irrefl _)
        simp [same ▸ absent, same]
      · have elsewhere : entry.2.filter (fun handler => handler.component = component) = [] := by
          rw [List.filter_eq_nil_iff]
          intro handler member
          have inPackage := filed entry List.mem_cons_self handler member
          simp only [decide_eq_true_eq]
          rintro rfl
          exact same inPackage
        simp [elsewhere, same]

/-! ## Changes -/

theorem install_eq_ok_iff {result : Registry × List Event} :
    registry.install package handlers = .ok result ↔
      (∀ handler ∈ handlers, handler.package = package) ∧
        (⟨registry.generation + 1, registry.packages.insert package handlers⟩,
          [.packageInstalled package handlers.length]) = result := by
  rw [install]
  cases stray : handlers.find? fun handler => handler.component.package != package with
  | none =>
      have own : ∀ handler ∈ handlers, handler.package = package := by
        simpa [Handler.package] using stray
      simpa using fun _ => own
  | some handler =>
      have member := List.mem_of_find?_eq_some stray
      have foreign : handler.package ≠ package := by
        simpa [Handler.package] using List.find?_some stray
      simp only [reduceCtorEq, false_iff, not_and]
      intro own
      exact absurd (own handler member) foreign

/-- A component is switched if something is installed under its name; what stands there first is
switched. -/
theorem setEnabled_cases (filed : registry.Filed) (component : Component) (enabled : Bool) :
    (registry.handlersOf component = [] ∧
        ∃ cause, registry.setEnabled component enabled = .error cause) ∨
      ∃ first further handlers switched events,
        registry.handlersOf component = first :: further ∧
          registry.packages.get? component.package = some handlers ∧
            registry.setEnabled component enabled = .ok (switched, events) ∧
              (first.enabled = enabled ∧ switched = registry ∨
                first.enabled ≠ enabled ∧ switched = ⟨registry.generation + 1,
                  registry.packages.insert component.package
                    (enableFirst component enabled handlers)⟩) := by
  rw [handlersOf_eq filed]
  cases found : registry.packages.get? component.package with
  | none =>
      left
      exact ⟨rfl, _, by rw [setEnabled, found]⟩
  | some handlers =>
      rw [Option.getD_some]
      cases named : handlers.find? fun handler => handler.component = component with
      | none =>
          left
          refine ⟨?_, .notFound (.component component), by simp only [setEnabled, found, named]⟩
          simpa using named
      | some first =>
          right
          have isFirst : (handlers.filter fun handler => handler.component = component).head? =
              some first := by
            rw [List.head?_filter, named]
          obtain ⟨further, split⟩ : ∃ further,
              (handlers.filter fun handler => handler.component = component) = first :: further := by
            cases split : handlers.filter fun handler => handler.component = component with
            | nil => simp [split] at isFirst
            | cons first' further =>
                rw [split, List.head?_cons, Option.some.injEq] at isFirst
                exact ⟨further, isFirst ▸ rfl⟩
          by_cases already : first.enabled = enabled
          · refine ⟨first, further, handlers, registry, [], split, rfl, ?_, .inl ⟨already, rfl⟩⟩
            simp only [setEnabled, found, named, if_pos already]
          · refine ⟨first, further, handlers, _, [.componentEnabledChanged component enabled], split,
              rfl, ?_, .inr ⟨already, rfl⟩⟩
            simp only [setEnabled, found, named, if_neg already]

theorem Filed.insert (filed : registry.Filed) (generation : Nat)
    (own : ∀ handler ∈ handlers, handler.package = package) :
    Filed ⟨generation, registry.packages.insert package handlers⟩ := by
  intro entry member
  rcases NameMap.mem_insertEntry member with rfl | before
  · exact own
  · exact filed entry before

theorem Filed.enableFirst (filed : registry.Filed)
    (found : registry.packages.get? package = some handlers) (component : Component)
    (enabled : Bool) :
    ∀ handler ∈ enableFirst component enabled handlers, handler.package = package := by
  intro handler member
  have named : handler.component ∈ handlers.map Handler.component := by
    rw [← map_component_enableFirst component enabled]
    exact List.mem_map_of_mem member
  rcases List.mem_map.1 named with ⟨before, inHandlers, same⟩
  have own := filed _ (NameMap.mem_entries_of_get? found) before inHandlers
  rw [Handler.package, ← same]
  exact own

theorem Filed.changeBy (filed : registry.Filed) (change : RegistryChange) :
    (registry.changeBy change).Filed := by
  cases change with
  | install package handlers =>
      rw [Registry.changeBy]
      split
      · rename_i installed events done
        rcases install_eq_ok_iff.1 done with ⟨own, same⟩
        cases same
        exact filed.insert _ own
      · exact filed
  | uninstall package =>
      intro entry member
      exact filed entry (List.mem_filter.1 member).1
  | setEnabled component enabled =>
      rw [Registry.changeBy]
      rcases setEnabled_cases filed component enabled with
        ⟨_, cause, refused⟩ | ⟨first, further, handlers, switched, events, _, found, done, outcome⟩
      · rw [refused]
        exact filed
      · rw [done]
        rcases outcome with ⟨_, rfl⟩ | ⟨_, rfl⟩
        · exact filed
        · exact filed.insert _ (filed.enableFirst found component enabled)

theorem filed_run (changes : List RegistryChange) : (empty.run changes).Filed := by
  suffices kept : ∀ registry : Registry, registry.Filed → (registry.run changes).Filed by
    apply kept
    intro entry member
    cases member
  induction changes with
  | nil => exact fun registry filed => filed
  | cons change changes ih => exact fun registry filed => ih _ (filed.changeBy change)

/-! ## Disabled components stay as they are -/

/-- The first handler of a name is disabled, if there is one. -/
def FirstDisabled (registry : Registry) (component : Component) : Prop :=
  ∀ first ∈ (registry.handlersOf component).head?, first.enabled = false

theorem handlersOf_insert_of_ne (filed : registry.Filed) (generation : Nat)
    (own : ∀ handler ∈ handlers, handler.package = package)
    (differ : component.package ≠ package) :
    handlersOf ⟨generation, registry.packages.insert package handlers⟩ component =
      registry.handlersOf component := by
  rw [handlersOf_eq (filed.insert generation own), handlersOf_eq filed]
  simp only [NameMap.get?_insert, if_neg differ]

/-- What stands under a name after some handlers of it were switched. -/
theorem handlersOf_switched (filed : registry.Filed)
    (found : registry.packages.get? other.package = some handlers) (generation : Nat)
    (enabled : Bool) (component : Component) :
    handlersOf ⟨generation, registry.packages.insert other.package
        (enableFirst other enabled handlers)⟩ component =
      if component = other then
        match registry.handlersOf component with
        | [] => []
        | first :: further => { first with enabled } :: further
      else registry.handlersOf component := by
  have own := filed.enableFirst found other enabled
  by_cases samePackage : component.package = other.package
  · rw [handlersOf_eq (filed.insert generation own), handlersOf_eq filed]
    simp only [NameMap.get?_insert, if_pos samePackage, samePackage ▸ found, Option.getD_some]
    by_cases same : component = other
    · rw [if_pos same, same, filter_enableFirst_self]
    · rw [if_neg same, filter_enableFirst_of_ne same]
  · have differ : component ≠ other := fun same => samePackage (same ▸ rfl)
    rw [handlersOf_insert_of_ne filed generation own samePackage, if_neg differ]

/-- A change that does not bring a disabled component back removes its handlers or leaves them. -/
theorem handlersOf_changeBy (filed : registry.Filed) (off : registry.FirstDisabled component)
    {change : RegistryChange} (lets : ¬ registry.Restores component change) :
    (registry.changeBy change).handlersOf component =
      if change = .uninstall component.package then [] else registry.handlersOf component := by
  cases change with
  | install package handlers =>
      rw [if_neg (by simp), changeBy]
      split
      · rename_i installed events done
        rcases install_eq_ok_iff.1 done with ⟨own, same⟩
        cases same
        have differ : component.package ≠ package := by
          rintro rfl
          exact lets ⟨rfl, _, done⟩
        exact handlersOf_insert_of_ne filed _ own differ
      · rfl
  | uninstall package =>
      rw [handlersOf_eq (filed.changeBy (.uninstall package)), handlersOf_eq filed]
      by_cases same : package = component.package
      · subst same
        simp [changeBy, uninstall, NameMap.get?_erase_self]
      · have differ : component.package ≠ package := Ne.symm same
        simp [changeBy, uninstall, NameMap.get?_erase_of_ne differ, same]
  | setEnabled other enabled =>
      rw [if_neg (by simp), changeBy]
      rcases setEnabled_cases filed other enabled with
        ⟨_, cause, refused⟩ | ⟨first, further, handlers, switched, events, named, found, done, outcome⟩
      · rw [refused]
      · rw [done]
        rcases outcome with ⟨_, rfl⟩ | ⟨changed, rfl⟩
        · rfl
        · -- it is another component, as this one would be enabled by it
          have differ : component ≠ other := by
            rintro rfl
            have isOff := off first (by simp [named])
            have toOn : enabled = true := by
              cases enabled
              · exact absurd isOff changed
              · rfl
            exact lets ⟨rfl, toOn, _, done⟩
          rw [handlersOf_switched filed found, if_neg differ]

theorem FirstDisabled.changeBy (filed : registry.Filed) (off : registry.FirstDisabled component)
    {change : RegistryChange} (lets : ¬ registry.Restores component change) :
    (registry.changeBy change).FirstDisabled component := by
  rw [FirstDisabled, handlersOf_changeBy filed off lets]
  split
  · simp
  · exact off

/-- As long as nothing brings a disabled component back, what stands under its name is there as it
was, or was removed with its package. -/
theorem handlersOf_run (filed : registry.Filed) (off : registry.FirstDisabled component)
    {changes : List RegistryChange} (lets : NeverRestores component registry changes) :
    (registry.run changes).handlersOf component =
      if .uninstall component.package ∈ changes then [] else registry.handlersOf component := by
  induction changes generalizing registry with
  | nil => simp [run]
  | cons change changes ih =>
      have step := handlersOf_changeBy filed off lets.1
      have rest := ih (filed.changeBy change) (off.changeBy filed lets.1) lets.2
      rw [run, List.foldl_cons]
      rw [run] at rest
      rw [rest, step]
      by_cases removed : change = .uninstall component.package
      · simp [removed]
      · simp [removed, Ne.symm removed]

end Registry

/-! ## Disabled components and resolving -/

namespace Resolver

variable {types : Types} {registry : Registry} {intent : Intent} {defaultOnly : Bool}
  {kind : Option ComponentKind} {candidates : List Candidate} {component : Component}

/-- A component is a candidate for an intent exactly if a handler of its name takes the intent. -/
theorem exists_candidate_iff (implicit : intent.component = none)
    (answered : query types registry intent defaultOnly kind = .ok candidates) :
    (∃ candidate ∈ candidates, candidate.component = component) ↔
      ∃ handler ∈ registry.handlersOf component,
        (Question.ofIntent types intent defaultOnly kind).TakenBy handler := by
  have typed : ∀ mimeType ∈ intent.matchingView.mimeType, Mime.validate mimeType = .ok () := by
    intro mimeType isType
    cases valid : Mime.validate mimeType with
    | ok => rfl
    | error cause =>
        rw [Option.mem_def] at isType
        simp [query, implicit, effectiveType, isType, valid] at answered
  rcases query_isAnsweredBy types registry intent defaultOnly kind implicit typed with
    ⟨_, answered', ⟨answers, answer, same⟩, _⟩
  rw [answered, Except.ok.injEq] at answered'
  subst answered'
  have components : answers.map Candidate.component =
      (registry.handlers.filter
        (Question.ofIntent types intent defaultOnly kind).TakenBy).map Handler.component := by
    generalize registry.handlers.filter
      (Question.ofIntent types intent defaultOnly kind).TakenBy = takers at answer
    clear same
    induction answer with
    | nil => rfl
    | cons isAnswer _ ih => rw [List.map_cons, List.map_cons, ih, isAnswer.component]
  have among : (∃ candidate ∈ candidates, candidate.component = component) ↔
      component ∈ answers.map Candidate.component := by
    simp only [List.mem_map, same.mem_iff]
  rw [among, components]
  simp only [List.mem_map, List.mem_filter, decide_eq_true_eq, Registry.handlersOf]
  constructor
  · rintro ⟨handler, ⟨member, takes⟩, rfl⟩
    exact ⟨handler, ⟨member, rfl⟩, takes⟩
  · rintro ⟨handler, ⟨member, rfl⟩, takes⟩
    exact ⟨handler, ⟨member, takes⟩, rfl⟩

/-- A component that was disabled is a candidate for an intent, as long as nothing brings it back,
exactly if its package was not removed and a further handler of its name, behind the first, takes
the intent. -/
theorem isCandidate_disabled_iff (types : Types) (changes later : List RegistryChange)
    (component : Component) (disabled : Registry) (events : List Event)
    (done : (Registry.empty.run changes).setEnabled component false = .ok (disabled, events))
    (lets : Registry.NeverRestores component disabled later) (intent : Intent) (defaultOnly : Bool)
    (kind : Option ComponentKind) (candidates : List Candidate) (implicit : intent.component = none)
    (answered : query types (disabled.run later) intent defaultOnly kind = .ok candidates) :
    (∃ candidate ∈ candidates, candidate.component = component) ↔
      .uninstall component.package ∉ later ∧
        ∃ handler ∈ ((Registry.empty.run changes).handlersOf component).tail,
          (Question.ofIntent types intent defaultOnly kind).TakenBy handler := by
  have filed := Registry.filed_run changes
  have filed' : disabled.Filed := by
    have changed := filed.changeBy (.setEnabled component false)
    rwa [Registry.changeBy, done] at changed
  obtain ⟨first, further, before, after⟩ : ∃ first further,
      (Registry.empty.run changes).handlersOf component = first :: further ∧
        disabled.handlersOf component = { first with enabled := false } :: further := by
    rcases Registry.setEnabled_cases filed component false with
      ⟨_, cause, refused⟩ | ⟨first, further, handlers, switched, _, named, found, done', outcome⟩
    · simp [done] at refused
    · rw [done, Except.ok.injEq, Prod.mk.injEq] at done'
      obtain rfl : disabled = switched := done'.1
      refine ⟨first, further, named, ?_⟩
      rcases outcome with ⟨already, rfl⟩ | ⟨_, rfl⟩
      · rw [named, ← already]
      · rw [Registry.handlersOf_switched filed found, if_pos rfl, named]
  have off : disabled.FirstDisabled component := by
    simp [Registry.FirstDisabled, after]
  rw [exists_candidate_iff implicit answered, Registry.handlersOf_run filed' off lets, before, after]
  by_cases removed : .uninstall component.package ∈ later
  · simp [removed]
  · have notFirst :
        ¬ (Question.ofIntent types intent defaultOnly kind).TakenBy { first with enabled := false } :=
      fun takes => absurd takes.enabled (by simp)
    simp [removed, notFirst]

end Resolver

namespace Pages

def readerPage : Component := .of "com.reader" "Page"

/-- The handler of the reader that takes the page. -/
def pageReader : Handler := handler "com.reader" [filter (.urlOfType "https" "example.org" "text/html")]

def textReader : Handler := handler "com.reader" [filter (.ofType "text/plain")]

def browser : Handler := handler "com.browser" [filter (.urlOfType "https" "*" "text/*")]

/-- The reader alone, and disabled. -/
def readerOff : Registry :=
  ⟨2, ⟨[("com.reader", [{ pageReader with enabled := false }])], by decide⟩⟩

theorem readerPage_stays_away :
    (Registry.empty.run [.install "com.reader" [pageReader]]).setEnabled readerPage false =
        .ok (readerOff, [.componentEnabledChanged readerPage false]) ∧
      Registry.NeverRestores readerPage readerOff [.install "com.browser" [browser]] ∧
        page.component = none ∧
          Resolver.query types (readerOff.run [.install "com.browser" [browser]]) page true none =
              .ok (candidates.take 1) ∧
            ¬ ∃ candidate ∈ candidates.take 1, candidate.component = readerPage := by
  have done : (Registry.empty.run [.install "com.reader" [pageReader]]).setEnabled readerPage false =
      .ok (readerOff, [.componentEnabledChanged readerPage false]) := by
    rfl
  have lets : Registry.NeverRestores readerPage readerOff [.install "com.browser" [browser]] := by
    refine ⟨?_, trivial⟩
    rintro ⟨samePackage, _⟩
    exact absurd samePackage (by decide +kernel)
  have answered : Resolver.query types (readerOff.run [.install "com.browser" [browser]]) page true
      none = .ok (candidates.take 1) := by
    have offered : Resolver.offers (readerOff.run [.install "com.browser" [browser]]) page
        page.mimeType true none none = candidates.take 1 := by
      decide +kernel
    exact Resolver.query_of_ordered rfl rfl offered (by decide +kernel)
  refine ⟨done, lets, rfl, answered, ?_⟩
  have further : ((Registry.empty.run [.install "com.reader" [pageReader]]).handlersOf
      readerPage).tail = [] := by
    decide +kernel
  rw [Resolver.isCandidate_disabled_iff types _ _ _ _ _ done lets page true none _ rfl answered,
    further]
  simp

/-- A component that is installed with two handlers is a candidate after it was disabled. -/
theorem disabled_readerPage_opens : ∃ disabled events candidates,
    (Registry.empty.run [.install "com.reader" [textReader, pageReader]]).setEnabled readerPage
        false = .ok (disabled, events) ∧
      page.component = none ∧ Resolver.query types disabled page true none = .ok candidates ∧
        ∃ candidate ∈ candidates, candidate.component = readerPage := by
  let disabled : Registry := ⟨2, ⟨[("com.reader", [{ textReader with enabled := false },
    pageReader])], by decide⟩⟩
  let reader : Candidate := ⟨readerPage, .activity, 0, .type, some 0⟩
  have offered : Resolver.offers disabled page page.mimeType true none none = [reader] := by
    decide +kernel
  have answered : Resolver.query types disabled page true none = .ok [reader] :=
    Resolver.query_of_ordered rfl rfl offered (List.pairwise_singleton _ _)
  exact ⟨disabled, [.componentEnabledChanged readerPage false], [reader], rfl, rfl, answered, reader,
    List.mem_singleton_self _, rfl⟩

end Pages

end IntentRouting
