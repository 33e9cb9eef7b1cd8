import IntentRouting.Proofs.Resolver.Disabling
import Mathlib.Data.List.Sort

/-!
# What changes of a registry come to

A change is about one package. It does to the handlers of that package what
`RegistryChange.effect` says, and nothing to those of others, so what is installed under a name is
the outcome of the changes of that package alone, in their order (`Registry.get?_run`). Packages are
listed by name whatever the order in which they were installed: two maps with the same values under
the same names are equal (`NameMap.ext_get?`). So changes of different packages may be made in any
order, and nobody who asks the registry can tell (`Registry.contents_of_run`).

Readers do not ask the registry but a snapshot of it. The registry is shared as the place of its
current version, and a change publishes a new version at a new place (`SharedRegistry`), so what was
published before can still be read.
-/

namespace IntentRouting

namespace NameMap

variable {α : Type} {map left right : NameMap α}

theorem mem_entries_iff {entry : String × α} :
    entry ∈ map.entries ↔ map.get? entry.1 = some entry.2 := by
  refine ⟨?_, mem_entries_of_get?⟩
  have ascending := map.ascending
  rw [get?]
  generalize map.entries = entries at ascending
  intro member
  induction entries with
  | nil => cases member
  | cons first entries ih =>
      rw [List.pairwise_cons] at ascending
      rw [lookup_cons_eq_ite]
      rcases List.mem_cons.1 member with rfl | later
      · exact if_pos rfl
      · have differ : entry.1 ≠ first.1 := fun same =>
          String.lt_irrefl _ (same ▸ ascending.1 entry later)
        rw [if_neg differ]
        exact ih ascending.2 later

/-- A map is determined by what is under each name. -/
theorem ext_get? (same : ∀ name, left.get? name = right.get? name) : left = right := by
  have members : ∀ entry, entry ∈ left.entries ↔ entry ∈ right.entries := by
    intro entry
    rw [mem_entries_iff, mem_entries_iff, same]
  have nodup (map : NameMap α) : map.entries.Nodup :=
    map.ascending.imp fun {first second} (less : first.1 < second.1) (same : first = second) =>
      String.lt_irrefl second.1 (same ▸ less)
  have perm := (List.perm_ext_iff_of_nodup (nodup left) (nodup right)).2 members
  apply ext
  refine perm.eq_of_pairwise ?_ left.ascending right.ascending
  intro first second _ _ less greater
  exact absurd (String.lt_trans less greater) (String.lt_irrefl _)

end NameMap

namespace RegistryChange

/-- The package that a change is about. -/
def package : RegistryChange → String
  | install package _ => package
  | uninstall package => package
  | setEnabled component _ => component.package

/-- What a change makes of the handlers of its package. -/
def effect (found : Option (List Handler)) : RegistryChange → Option (List Handler)
  | install package handlers =>
      if ∀ handler ∈ handlers, handler.package = package then some handlers else found
  | uninstall _ => none
  | setEnabled component enabled => found.map (Registry.enableFirst component enabled)

end RegistryChange

namespace Registry

variable {registry other : Registry} {change : RegistryChange} {name : String}
  {handlers : List Handler}

/-- The registry that a change makes, or the error that refuses it. -/
def attempt (registry : Registry) : RegistryChange → Except Error Registry
  | .install package handlers => (registry.install package handlers).map (·.1)
  | .uninstall package => .ok (registry.uninstall package).2.1
  | .setEnabled component enabled => (registry.setEnabled component enabled).map (·.1)

theorem changeBy_eq (registry : Registry) (change : RegistryChange) :
    registry.changeBy change = (registry.attempt change).toOption.getD registry := by
  cases change with
  | install package handlers =>
      rw [changeBy, attempt]
      cases registry.install package handlers <;> rfl
  | uninstall package => rfl
  | setEnabled component enabled =>
      rw [changeBy, attempt]
      cases registry.setEnabled component enabled <;> rfl

theorem enableFirst_of_find?_none {component : Component} {enabled : Bool}
    (absent : (handlers.find? fun handler => handler.component = component) = none) :
    enableFirst component enabled handlers = handlers := by
  induction handlers with
  | nil => rfl
  | cons handler handlers ih =>
      rw [List.find?_eq_none, List.forall_mem_cons] at absent
      rw [enableFirst, if_neg (by simpa using absent.1), ih (List.find?_eq_none.2 absent.2)]

theorem enableFirst_of_enabled {component : Component} {first : Handler}
    (found : (handlers.find? fun handler => handler.component = component) = some first) :
    enableFirst component first.enabled handlers = handlers := by
  induction handlers with
  | nil => cases found
  | cons handler handlers ih =>
      rw [List.find?_cons] at found
      rw [enableFirst]
      by_cases named : handler.component = component
      · obtain rfl : handler = first := by simpa [named] using found
        rw [if_pos named]
      · rw [if_neg named, ih (by simpa [named] using found)]

/-! ## One change -/

/-- An installation puts handlers under the name of the package, if all of them are its own. -/
theorem changeBy_install (registry : Registry) (package : String) (handlers : List Handler) :
    registry.changeBy (.install package handlers) =
      if ∀ handler ∈ handlers, handler.package = package then
        ⟨registry.generation + 1, registry.packages.insert package handlers⟩
      else registry := by
  rw [changeBy]
  split
  · rename_i done
    rcases install_eq_ok_iff.1 done with ⟨own, same⟩
    cases same
    rw [if_pos own]
  · rename_i error refused
    rw [if_neg]
    intro own
    rw [install_eq_ok_iff.2 ⟨own, rfl⟩] at refused
    cases refused

/-- Switching a component changes the handlers of its package, or there is nothing to be changed. -/
theorem changeBy_setEnabled (registry : Registry) (component : Component) (enabled : Bool) :
    registry.changeBy (.setEnabled component enabled) = registry ∧
        (registry.packages.get? component.package).map (enableFirst component enabled) =
          registry.packages.get? component.package ∨
      ∃ handlers, registry.packages.get? component.package = some handlers ∧
        registry.changeBy (.setEnabled component enabled) = ⟨registry.generation + 1,
          registry.packages.insert component.package (enableFirst component enabled handlers)⟩ := by
  simp only [changeBy, setEnabled]
  cases found : registry.packages.get? component.package with
  | none => exact .inl ⟨rfl, rfl⟩
  | some handlers =>
      dsimp only
      cases named : handlers.find? fun handler => handler.component = component with
      | none => exact .inl ⟨rfl, congrArg some (enableFirst_of_find?_none named)⟩
      | some first =>
          dsimp only
          by_cases already : first.enabled = enabled
          · subst already
            rw [if_pos rfl]
            exact .inl ⟨rfl, congrArg some (enableFirst_of_enabled named)⟩
          · rw [if_neg already]
            exact .inr ⟨handlers, rfl, rfl⟩

/-- All that a change can do: it leaves the registry as it is, and then it has no effect, or it makes
a registry of the next generation, in which it has its effect on the handlers of its package. -/
theorem changeBy_cases (registry : Registry) (change : RegistryChange) :
    registry.changeBy change = registry ∧
        change.effect (registry.packages.get? change.package) =
          registry.packages.get? change.package ∨
      ∃ packages, registry.changeBy change = ⟨registry.generation + 1, packages⟩ ∧
        ∀ name, packages.get? name = if name = change.package
          then change.effect (registry.packages.get? change.package)
          else registry.packages.get? name := by
  cases change with
  | install package handlers =>
      rw [changeBy_install, RegistryChange.effect, RegistryChange.package]
      split
      · exact .inr ⟨_, rfl, fun name => NameMap.get?_insert ..⟩
      · exact .inl ⟨rfl, rfl⟩
  | uninstall package =>
      refine .inr ⟨registry.packages.erase package, rfl, fun name => ?_⟩
      rw [RegistryChange.effect, RegistryChange.package]
      split
      · rename_i same
        rw [same]
        exact NameMap.get?_erase_self registry.packages package
      · rename_i differ
        exact NameMap.get?_erase_of_ne differ
  | setEnabled component enabled =>
      rw [RegistryChange.effect, RegistryChange.package]
      rcases registry.changeBy_setEnabled component enabled with unchanged | ⟨handlers, found, after⟩
      · exact .inl unchanged
      · rw [found]
        exact .inr ⟨_, after, fun name => NameMap.get?_insert ..⟩

/-- A change has its effect on the handlers of its package, and leaves those of others alone. -/
theorem get?_changeBy (registry : Registry) (change : RegistryChange) (name : String) :
    (registry.changeBy change).packages.get? name = if name = change.package
      then change.effect (registry.packages.get? change.package)
      else registry.packages.get? name := by
  rcases registry.changeBy_cases change with ⟨same, noEffect⟩ | ⟨packages, after, changed⟩
  · rw [same, noEffect]
    split
    · rename_i same
      rw [same]
    · rfl
  · rw [after]
    exact changed name

theorem generation_changeBy (registry : Registry) (change : RegistryChange) :
    registry.changeBy change = registry ∨
      (registry.changeBy change).generation = registry.generation + 1 := by
  rcases registry.changeBy_cases change with ⟨same, _⟩ | ⟨packages, after, _⟩
  · exact .inl same
  · exact .inr (after ▸ rfl)

/-! ## Many changes -/

/-- What is installed under a name is what the changes of that package make of it. -/
theorem get?_run (registry : Registry) (changes : List RegistryChange) (name : String) :
    (registry.run changes).packages.get? name =
      (changes.filter fun change => change.package = name).foldl RegistryChange.effect
        (registry.packages.get? name) := by
  induction changes generalizing registry with
  | nil => rfl
  | cons change changes ih =>
      have later := ih (registry.changeBy change)
      rw [run, List.foldl_cons, ← run, later, List.filter_cons]
      by_cases same : change.package = name
      · subst same
        simp [get?_changeBy]
      · simp [same, get?_changeBy, Ne.symm same]

theorem packages_run_eq {changes others : List RegistryChange}
    (contents : registry.packages = other.packages)
    (rearranged : ∀ name, (changes.filter fun change => change.package = name) =
      others.filter fun change => change.package = name) :
    (registry.run changes).packages = (other.run others).packages := by
  apply NameMap.ext_get?
  intro name
  rw [get?_run, get?_run, contents, rearranged]

/-- Generations grow, and registries of one generation have the same contents. -/
theorem generation_run (registry : Registry) (changes : List RegistryChange) :
    registry.run changes = registry ∨
      registry.generation < (registry.run changes).generation := by
  induction changes generalizing registry with
  | nil => exact .inl rfl
  | cons change changes ih =>
      rw [run, List.foldl_cons, ← run]
      rcases registry.generation_changeBy change with same | next
      · rw [same]
        exact ih registry
      · right
        rcases ih (registry.changeBy change) with same | grown
        · rw [same]
          omega
        · omega

/-- No more than one generation comes of a change, so 64 bits hold the generations of fewer than
`2 ^ 64` changes. -/
theorem generation_run_le (registry : Registry) (changes : List RegistryChange) :
    (registry.run changes).generation ≤ registry.generation + changes.length := by
  induction changes generalizing registry with
  | nil => exact Nat.le_refl _
  | cons change changes ih =>
      have later := ih (registry.changeBy change)
      rw [run, List.foldl_cons, ← run, List.length_cons]
      rcases registry.generation_changeBy change with same | next
      · rw [same] at later ⊢
        omega
      · omega

end Registry

/-! ## Snapshots -/

/-- A registry that is shared with its readers: every version of it that was published, and the place of
the one that is current. -/
structure SharedRegistry where
  versions : List Registry
  current : Nat

namespace SharedRegistry

variable {shared : SharedRegistry} {place : Nat}

def start : SharedRegistry := ⟨[.empty], 0⟩

/-- The version at a place. -/
def read (shared : SharedRegistry) (place : Nat) : Registry := shared.versions[place]?.getD .empty

/-- A change of the current version is published beside those that were published before. One that is
refused publishes nothing. -/
def changeBy (shared : SharedRegistry) (change : RegistryChange) : SharedRegistry :=
  match (shared.read shared.current).attempt change with
  | .error _ => shared
  | .ok next => ⟨shared.versions ++ [next], shared.versions.length⟩

def run (shared : SharedRegistry) (changes : List RegistryChange) : SharedRegistry :=
  changes.foldl changeBy shared

/-- The current version was published. -/
def IsPublished (shared : SharedRegistry) : Prop := shared.current < shared.versions.length

theorem changeBy_refused (shared : SharedRegistry) {change : RegistryChange} {error : Error}
    (refused : (shared.read shared.current).attempt change = .error error) :
    shared.changeBy change = shared := by
  rw [changeBy, refused]

theorem changeBy_done (shared : SharedRegistry) {change : RegistryChange} {next : Registry}
    (done : (shared.read shared.current).attempt change = .ok next) :
    shared.changeBy change = ⟨shared.versions ++ [next], shared.versions.length⟩ := by
  rw [changeBy, done]

theorem read_current_changeBy (shared : SharedRegistry) (change : RegistryChange) :
    (shared.changeBy change).read (shared.changeBy change).current =
      (shared.read shared.current).changeBy change := by
  rw [Registry.changeBy_eq]
  cases outcome : (shared.read shared.current).attempt change with
  | error error => rw [changeBy_refused shared outcome]; rfl
  | ok next => rw [changeBy_done shared outcome]; simp [read, Except.toOption]

/-- A change leaves what was published as it is. -/
theorem read_changeBy (published : place < shared.versions.length) (change : RegistryChange) :
    (shared.changeBy change).read place = shared.read place ∧
      place < (shared.changeBy change).versions.length := by
  cases outcome : (shared.read shared.current).attempt change with
  | error error => rw [changeBy_refused shared outcome]; exact ⟨rfl, published⟩
  | ok next =>
      rw [changeBy_done shared outcome]
      simp only [read, List.length_append, List.getElem?_append_left published]
      exact ⟨trivial, by omega⟩

theorem IsPublished.changeBy (published : shared.IsPublished) (change : RegistryChange) :
    (shared.changeBy change).IsPublished := by
  cases outcome : (shared.read shared.current).attempt change with
  | error error => rwa [changeBy_refused shared outcome]
  | ok next => rw [changeBy_done shared outcome, IsPublished]; simp

theorem read_current_run (shared : SharedRegistry) (changes : List RegistryChange) :
    (shared.run changes).read (shared.run changes).current =
      (shared.read shared.current).run changes := by
  induction changes generalizing shared with
  | nil => rfl
  | cons change changes ih =>
      rw [run, List.foldl_cons, ← run, ih, read_current_changeBy]
      rfl

theorem read_run (published : place < shared.versions.length) (changes : List RegistryChange) :
    (shared.run changes).read place = shared.read place := by
  induction changes generalizing shared with
  | nil => rfl
  | cons change changes ih =>
      rcases read_changeBy published change with ⟨same, published⟩
      rw [run, List.foldl_cons, ← run, ih published, same]

theorem isPublished_run (changes : List RegistryChange) : (start.run changes).IsPublished := by
  suffices run : ∀ shared : SharedRegistry, shared.IsPublished → (shared.run changes).IsPublished from
    run start Nat.zero_lt_one
  induction changes with
  | nil => exact fun _ published => published
  | cons change changes ih => exact fun _ published => ih _ (published.changeBy change)

end SharedRegistry

/-! ## The contents of a registry -/

namespace Resolver

/-- Resolving asks a registry for its contents and not for its generation. -/
theorem query_congr {left right : Registry} (contents : left.packages = right.packages)
    (types : Types) (intent : Intent) (defaultOnly : Bool) (kind : Option ComponentKind) :
    query types left intent defaultOnly kind = query types right intent defaultOnly kind := by
  cases left
  cases right
  cases contents
  rfl

end Resolver

namespace Registry

/-- The registry after any changes. Every handler stands under its own package, and what stands under
a name is what the changes of that package, in their order, make of nothing. A change that is refused
publishes nothing and changes nothing, and any other leaves the packages alone that it is not about.
Whatever happens later, the generation does not fall, it grows if the contents change, and the version
that is current now can still be read. Changes in which those of each package come in the same order
lead to the same handlers in the same order, and so to the same answers. -/
theorem contents_of_run (changes : List RegistryChange) :
    let registry := empty.run changes
    let shared := SharedRegistry.start.run changes
    shared.read shared.current = registry ∧ registry.Filed ∧
      registry.generation ≤ changes.length ∧
      (∀ name, registry.packageHandlers? name =
        (changes.filter fun change => change.package = name).foldl RegistryChange.effect none) ∧
      (∀ change error, registry.attempt change = .error error →
        registry.changeBy change = registry ∧ shared.changeBy change = shared) ∧
      (∀ change name, name ≠ change.package →
        (registry.changeBy change).packageHandlers? name = registry.packageHandlers? name) ∧
      (∀ later, registry.generation ≤ (registry.run later).generation ∧
        ((registry.run later).packages ≠ registry.packages →
          registry.generation < (registry.run later).generation) ∧
        (shared.run later).read shared.current = registry) ∧
      ∀ others, (∀ name, (others.filter fun change => change.package = name) =
          changes.filter fun change => change.package = name) →
        (empty.run others).handlers = registry.handlers ∧
          ∀ types intent defaultOnly kind,
            Resolver.query types (empty.run others) intent defaultOnly kind =
              Resolver.query types registry intent defaultOnly kind := by
  intro registry shared
  have current : shared.read shared.current = registry := SharedRegistry.read_current_run .start changes
  refine ⟨current, filed_run changes, (generation_run_le empty changes).trans_eq (Nat.zero_add _),
    get?_run empty changes, ?refused, ?frame, ?later, ?rearranged⟩
  case refused =>
    intro change error refused
    have refused' : (shared.read shared.current).attempt change = .error error := by
      rwa [current]
    exact ⟨by rw [changeBy_eq, refused]; rfl, shared.changeBy_refused refused'⟩
  case frame =>
    intro change name differ
    exact (get?_changeBy registry change name).trans (if_neg differ)
  case later =>
    intro later
    have kept : (shared.run later).read shared.current = registry :=
      (SharedRegistry.read_run (SharedRegistry.isPublished_run changes) later).trans current
    rcases registry.generation_run later with same | grown
    · exact ⟨by rw [same], fun differ => absurd (by rw [same]) differ, kept⟩
    · exact ⟨grown.le, fun _ => grown, kept⟩
  case rearranged =>
    intro others rearranged
    have contents := packages_run_eq (rfl : empty.packages = empty.packages) rearranged
    exact ⟨by rw [handlers, contents]; rfl, Resolver.query_congr contents⟩

end Registry

namespace Pages

/-- The reader is switched off before the browser comes, or after it. -/
theorem reader_off_before_browser_or_after :
    let changes : List RegistryChange := [.install "com.reader" [pageReader],
      .install "com.browser" [browser], .setEnabled readerPage false]
    let others : List RegistryChange := [.install "com.reader" [pageReader],
      .setEnabled readerPage false, .install "com.browser" [browser]]
    (∀ name, (others.filter fun change => change.package = name) =
        changes.filter fun change => change.package = name) ∧
      (Registry.empty.run others).handlers = [browser, { pageReader with enabled := false }] ∧
        (Registry.empty.run changes).handlers = (Registry.empty.run others).handlers := by
  intro changes others
  have rearranged : ∀ name, (others.filter fun change => change.package = name) =
      changes.filter fun change => change.package = name := by
    intro name
    by_cases reader : "com.reader" = name
    · subst reader
      decide +kernel
    · have away : readerPage.package ≠ name := reader
      simp [changes, others, RegistryChange.package, List.filter_cons, away, reader]
  obtain ⟨-, -, -, -, -, -, -, same⟩ := Registry.contents_of_run changes
  exact ⟨rearranged, by decide +kernel, (same others rearranged).1.symm⟩

end Pages

end IntentRouting
