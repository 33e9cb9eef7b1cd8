import IntentRouting.Manifest.Reader
import IntentRouting.Proofs.Manifest.Combination
import IntentRouting.Proofs.Xml.Forest

/-!
# What the elements of a manifest declare

A manifest is built up tag by tag, with one place each for the component, the provider and the
filter that is being declared. What the elements declare is said here by their tree: a filter is
made of the elements inside its own, a component of those inside its own, and the application of
those inside its own, in the order of the document.
-/

namespace IntentRouting.Manifest

open Xml (Tag Node Forest Delivers)

/-! ## Declarations by trees -/

namespace Declared

/-- The name that an element of some kind has. -/
def name? (kind : Element) (node : Node) : Option String :=
  if Element.ofName node.tag.name = kind then platformAttribute? node.tag "name" else none

def data? (node : Node) : Option DataElement :=
  if Element.ofName node.tag.name = .data then some (readData node.tag) else none

/-- A value without a name is none. -/
def metadata? (node : Node) : Option Metadata :=
  if Element.ofName node.tag.name = .metadata then readMetadata? node.tag else none

/-- The filter that an element declares. -/
def filter? (node : Node) : Option Filter :=
  if Element.ofName node.tag.name = .filter then
    some (declaredFilter (readFilter node.tag).priority (readFilter node.tag).autoVerify
      (node.inside.nodes.filterMap (name? .action)) (node.inside.nodes.filterMap (name? .category))
      (node.inside.nodes.filterMap data?))
  else none

/-- The component that an element declares. -/
def component? (node : Node) : Option ComponentDeclaration :=
  match Element.ofName node.tag.name with
  | .component kind =>
      some { readComponent node.tag kind with
        filters := node.inside.nodes.filterMap filter?
        metadata := node.inside.nodes.filterMap metadata? }
  | _ => none

/-- The provider that an element declares. -/
def provider? (node : Node) : Option ProviderDeclaration :=
  if Element.ofName node.tag.name = .provider then
    some { readProvider node.tag with metadata := node.inside.nodes.filterMap metadata? }
  else none

/-- Whether an element declares a component or a provider. -/
def isPart (tag : Tag) : Bool :=
  match Element.ofName tag.name with
  | .component _ | .provider => true
  | _ => false

def isFilter (tag : Tag) : Bool := Element.ofName tag.name = .filter

def isApplication (tag : Tag) : Bool := Element.ofName tag.name = .application

/-- The application that an element declares. Named values belong to it that stand in none of its
parts, and those after it. -/
def application (node : Node) (after : List Node) : Application :=
  { name := platformAttribute? node.tag "name"
    label := platformAttribute? node.tag "label"
    components := node.inside.nodes.filterMap component?
    providers := node.inside.nodes.filterMap provider?
    metadata := (node.inside.surface isPart).filterMap metadata? ++ after.filterMap metadata? }

end Declared

/-! ## Events -/

namespace Draft

variable {draft later : Draft} {left right events : List Xml.Event}

theorem run_append :
    draft.run (left ++ right) = (draft.run left).bind fun later => later.run right := by
  induction left generalizing draft with
  | nil => rfl
  | cons event left ih =>
      simp only [List.cons_append, run]
      cases draft.step event with
      | error fault => rfl
      | ok later => exact ih

theorem run_append_of_ok (ran : draft.run left = .ok later) :
    draft.run (left ++ right) = later.run right := by
  rw [run_append, ran]
  rfl

theorem run_opening {tag : Tag} (opened : draft.opening tag = .ok later) :
    draft.run (.opening tag :: events) = later.run events := by
  simp only [run, step, opened]

theorem run_closing {name : String} :
    draft.run (.closing name :: events) = (draft.closing name).run events := rfl

/-- An element without content may be delivered as one event. -/
theorem run_childless {tag : Tag} : draft.run (.childless tag :: events) =
    draft.run (.opening tag :: .closing tag.name :: events) := by
  simp only [run, step]
  cases draft.opening tag <;> rfl

theorem run_self_closing {tag : Tag} : draft.run (left ++ .childless tag :: right) =
    draft.run (left ++ .opening tag :: .closing tag.name :: right) := by
  simp only [run_append, run_childless]

/-- However trees are delivered, the same is read. -/
theorem run_eq_of_delivers {forest : Forest} (delivers : Delivers forest events) (draft : Draft) :
    draft.run events = draft.run forest.events := by
  induction delivers generalizing draft with
  | nothing => rfl
  | @element tag inside after _ _ content later ih ih' =>
      cases opened : draft.opening tag with
      | error fault => simp only [Forest.events, run, step, opened]
      | ok begun =>
          rw [Forest.events, run_opening opened, run_opening opened, run_append, run_append, ih]
          congr 1
          funext ended
          rw [run_closing, run_closing, ih']
  | @childless tag after _ later ih =>
      rw [run_childless, Forest.events, Forest.events, List.nil_append]
      cases opened : draft.opening tag with
      | error fault => simp only [run, step, opened]
      | ok begun => rw [run_opening opened, run_opening opened, run_closing, run_closing, ih]

end Draft

/-! ## Places -/

/-- The places of a draft whose manifest has begun. -/
structure Slots where
  inApplication : Bool
  application : Option Application
  component : Option ComponentDeclaration
  provider : Option ProviderDeclaration
  filter : Option FilterDraft

/-- A draft with given places, under any head of the manifest. -/
def Slots.draft (slots : Slots) (head : Manifest) : Draft :=
  ⟨{ head with application := slots.application }, true, slots.inApplication, slots.component,
    slots.provider, slots.filter⟩

/-- How the places change along trees, told from the elements seen so far. Elements of some kind are
taken as a whole, with what is inside them. -/
structure Traversal (stops : Tag → Bool) (allowed : Node → Prop) (slots : List Node → Slots) :
    Prop where
  block : ∀ (seen : List Node) (node : Node) (head : Manifest), allowed node →
    stops node.tag = true → ∃ head', ((slots seen).draft head).run node.events =
      .ok ((slots (seen ++ [node])).draft head')
  enter : ∀ (seen : List Node) (node : Node) (head : Manifest), allowed node →
    stops node.tag = false → ∃ head', ((slots seen).draft head).opening node.tag =
      .ok ((slots (seen ++ [node])).draft head')
  leave : ∀ (seen : List Node) (node : Node) (head : Manifest), allowed node →
    stops node.tag = false →
      ((slots seen).draft head).closing node.tag.name = (slots seen).draft head

section Traversing

variable {stops : Tag → Bool} {allowed : Node → Prop} {slots : List Node → Slots}

/-- The places follow the elements on the surface of trees, by induction on the trees. -/
theorem Traversal.exists_run (traversal : Traversal stops allowed slots) (forest : Forest)
    (seen : List Node) (head : Manifest) (all : ∀ node ∈ forest.surface stops, allowed node) :
    ∃ head', ((slots seen).draft head).run forest.events =
      .ok ((slots (seen ++ forest.surface stops)).draft head') := by
  induction forest generalizing seen head with
  | nothing => exact ⟨head, by simp [Forest.events, Forest.surface, Draft.run]⟩
  | element tag inside after ih ih' =>
      rw [Forest.surface, List.forall_mem_cons, List.forall_mem_append] at all
      rcases all with ⟨first, within, rest⟩
      cases stopped : stops tag with
      | true =>
          rcases traversal.block seen ⟨tag, inside⟩ head first stopped with ⟨ended, ran⟩
          rcases ih' (seen ++ [⟨tag, inside⟩]) ended rest with ⟨last, ran'⟩
          refine ⟨last, ?_⟩
          have split : (Forest.element tag inside after).events =
              Node.events ⟨tag, inside⟩ ++ after.events := by
            simp [Forest.events, Node.events]
          rw [split, Draft.run_append_of_ok ran, ran']
          simp [Forest.surface, stopped]
      | false =>
          rw [if_neg (by simp [stopped])] at within
          rcases traversal.enter seen ⟨tag, inside⟩ head first stopped with ⟨begun, opened⟩
          rcases ih (seen ++ [⟨tag, inside⟩]) begun within with ⟨ended, ran⟩
          rcases ih' (seen ++ [⟨tag, inside⟩] ++ inside.surface stops) ended rest with
            ⟨last, ran'⟩
          refine ⟨last, ?_⟩
          rw [Forest.events, Draft.run_opening opened, Draft.run_append_of_ok ran,
            Draft.run_closing, traversal.leave _ ⟨tag, inside⟩ ended first stopped, ran']
          simp [Forest.surface, stopped]

/-- What an element leads to, from what its beginning leads to. -/
theorem Traversal.exists_run_node (traversal : Traversal stops allowed slots) {node : Node}
    {draft : Draft} {head : Manifest}
    (opened : draft.opening node.tag = .ok ((slots []).draft head))
    (all : ∀ inner ∈ node.inside.surface stops, allowed inner) :
    ∃ head', draft.run node.events =
      .ok (((slots (node.inside.surface stops)).draft head').closing node.tag.name) := by
  rcases traversal.exists_run node.inside [] head all with ⟨head', ran⟩
  refine ⟨head', ?_⟩
  rw [Node.events, Draft.run_opening opened, Draft.run_append_of_ok ran]
  rfl

end Traversing

/-! ## Elements that begin or end no declaration -/

/-- A filter with what an element says about it. -/
def FilterDraft.add (draft : FilterDraft) (node : Node) : FilterDraft :=
  { (Declared.data? node).elim draft draft.addData with
    actions := draft.actions ++ (Declared.name? .action node).toList
    categories := draft.categories ++ (Declared.name? .category node).toList }

/-- The places with what an element says about what they hold. A named value goes to the component,
else to the provider, else to the application. -/
def Slots.add (slots : Slots) (node : Node) : Slots :=
  let named := (Declared.metadata? node).toList
  let filter := slots.filter.map (·.add node)
  match slots.component, slots.provider with
  | some component, _ =>
      { slots with
        filter
        component := some { component with metadata := component.metadata ++ named } }
  | none, some provider =>
      { slots with
        filter
        provider := some { provider with metadata := provider.metadata ++ named } }
  | none, none =>
      { slots with
        filter
        application := slots.application.map fun application =>
          { application with metadata := application.metadata ++ named } }

section Plain

variable {slots : Slots} {node : Node}

theorem exists_opening_head {tag : Tag} (head : Manifest)
    (kind : Element.ofName tag.name = .manifest ∨ Element.ofName tag.name = .sdk ∨
      Element.ofName tag.name = .other) :
    ∃ head', (slots.draft head).opening tag = .ok (slots.draft head') := by
  rcases kind with kind | kind | kind
  · refine ⟨{ head with
      package := (tag.attribute? "package").getD ""
      versionCode := version? tag "versionCode"
      versionName := platformAttribute? tag "versionName" }, ?_⟩
    simp only [Draft.opening, kind]
    rfl
  · refine ⟨{ head with
      minSdk := version? tag "minSdkVersion"
      targetSdk := version? tag "targetSdkVersion" }, ?_⟩
    simp only [Draft.opening, kind]
    rfl
  · exact ⟨head, by simp only [Draft.opening, kind]⟩

/-- Elements of other kinds say nothing about filters. -/
theorem FilterDraft.add_of_notMem {draft : FilterDraft}
    (notMem : Element.ofName node.tag.name ∉ [.action, .category, .data]) :
    draft.add node = draft := by
  simp only [List.mem_cons, List.not_mem_nil, or_false, not_or] at notMem
  simp [FilterDraft.add, Declared.data?, Declared.name?, notMem]

theorem Slots.add_of_ne_metadata (ne : Element.ofName node.tag.name ≠ .metadata) :
    slots.add node = { slots with filter := slots.filter.map (·.add node) } := by
  rcases slots with ⟨_, application, component, provider, filter⟩
  cases component <;> cases provider <;> simp [Slots.add, Declared.metadata?, ne]

/-- An element that says nothing about any place leaves all of them alone. -/
theorem Slots.add_of_notMem
    (notMem : Element.ofName node.tag.name ∉ [.action, .category, .data, .metadata]) :
    slots.add node = slots := by
  have silent : Element.ofName node.tag.name ∉ [.action, .category, .data] :=
    fun member => notMem (List.mem_append_left [Element.metadata] member)
  have ne : Element.ofName node.tag.name ≠ .metadata := fun same => notMem (by simp [same])
  have same : slots.filter.map (·.add node) = slots.filter := by
    simp [FilterDraft.add_of_notMem silent]
  rw [Slots.add_of_ne_metadata ne, same]

/-- An element that neither begins nor ends a declaration where it stands. Outside of the application
there are no components and providers, and outside of a component there are no filters. -/
structure Slots.IsPlain (slots : Slots) (node : Node) : Prop where
  notApplication : Declared.isApplication node.tag = false
  part : Declared.isPart node.tag = true →
    slots.inApplication = false ∧ slots.component = none ∧ slots.provider = none
  filter : Declared.isFilter node.tag = true → slots.component = none ∧ slots.filter = none

theorem Slots.IsPlain.exists_opening (plain : slots.IsPlain node) (head : Manifest) :
    ∃ head', (slots.draft head).opening node.tag = .ok ((slots.add node).draft head') := by
  cases kind : Element.ofName node.tag.name with
  | application =>
      have notApplication := plain.notApplication
      simp [Declared.isApplication, kind] at notApplication
  | manifest | sdk | other =>
      rw [Slots.add_of_notMem (by simp [kind])]
      exact exists_opening_head head (by simp [kind])
  | component _ | provider =>
      rcases plain.part (by simp [Declared.isPart, kind]) with ⟨outside, _⟩
      refine ⟨head, ?_⟩
      rw [Slots.add_of_notMem (by simp [kind])]
      simp [Draft.opening, kind, Slots.draft, outside]
  | filter =>
      rcases plain.filter (by simp [Declared.isFilter, kind]) with ⟨outside, _⟩
      refine ⟨head, ?_⟩
      rw [Slots.add_of_notMem (by simp [kind])]
      simp [Draft.opening, kind, Slots.draft, outside]
  | action | category =>
      refine ⟨head, ?_⟩
      rw [Slots.add_of_ne_metadata (by simp [kind])]
      cases name : platformAttribute? node.tag "name" <;>
        simp [Draft.opening, Draft.withFilter, Slots.draft, FilterDraft.add, FilterDraft.addAction,
          FilterDraft.addCategory, Declared.data?, Declared.name?, kind, name]
  | data =>
      refine ⟨head, ?_⟩
      rw [Slots.add_of_ne_metadata (by simp [kind])]
      simp [Draft.opening, Draft.withFilter, Slots.draft, FilterDraft.add, Declared.data?,
        Declared.name?, kind, FilterDraft.addData]
  | metadata =>
      refine ⟨head, ?_⟩
      have same : ∀ draft : FilterDraft, draft.add node = draft :=
        fun _ => FilterDraft.add_of_notMem (by simp [kind])
      rcases slots with ⟨_, application, component, provider, _⟩
      cases named : readMetadata? node.tag <;> cases component <;> cases provider <;>
        simp [Draft.opening, Draft.addMetadata, Draft.withApplication, Slots.draft, Slots.add,
          Declared.metadata?, kind, named, same]

theorem Slots.IsPlain.closing_eq (plain : slots.IsPlain node) (head : Manifest) :
    (slots.draft head).closing node.tag.name = slots.draft head := by
  cases kind : Element.ofName node.tag.name with
  | application =>
      have notApplication := plain.notApplication
      simp [Declared.isApplication, kind] at notApplication
  | component _ | provider =>
      rcases plain.part (by simp [Declared.isPart, kind]) with ⟨_, noComponent, noProvider⟩
      simp [Draft.closing, kind, Slots.draft, noComponent, noProvider]
  | filter =>
      rcases plain.filter (by simp [Declared.isFilter, kind]) with ⟨noComponent, noFilter⟩
      simp [Draft.closing, kind, Slots.draft, noComponent, noFilter]
  | manifest | sdk | action | category | data | metadata | other =>
      simp only [Draft.closing, kind]

/-- A traversal in which all elements are plain that are not taken as a whole. -/
theorem Traversal.of_isPlain {stops : Tag → Bool} {allowed : Node → Prop}
    {slots : List Node → Slots}
    (block : ∀ (seen : List Node) (node : Node) (head : Manifest), allowed node →
      stops node.tag = true → ∃ head', ((slots seen).draft head).run node.events =
        .ok ((slots (seen ++ [node])).draft head'))
    (plain : ∀ (seen : List Node) (node : Node), allowed node → stops node.tag = false →
      (slots seen).IsPlain node ∧ (slots seen).add node = slots (seen ++ [node])) :
    Traversal stops allowed slots where
  block := block
  enter seen node head isAllowed notStopped := by
    rcases plain seen node isAllowed notStopped with ⟨isPlain, added⟩
    rw [← added]
    exact isPlain.exists_opening head
  leave seen node head isAllowed notStopped :=
    (plain seen node isAllowed notStopped).1.closing_eq head

end Plain

end IntentRouting.Manifest
