import IntentRouting.Proofs.Manifest.Declarations

/-!
# Manifests as trees

The places of a draft are followed from the inside to the outside: through the elements of a filter,
of a component or a provider, of the application and of the whole manifest. Each of these is one
traversal, in which the one before it is a block. At the end the draft holds what the tree declares.
-/

namespace IntentRouting.Manifest

open Xml (Tag Node Forest Delivers)

/-! ## Filters -/

section Filters

/-- What a filter is made of. -/
theorem foldl_add (nodes : List Node) (draft : FilterDraft) : nodes.foldl FilterDraft.add draft =
    { (nodes.filterMap Declared.data?).foldl FilterDraft.addData draft with
      actions := draft.actions ++ nodes.filterMap (Declared.name? .action)
      categories := draft.categories ++ nodes.filterMap (Declared.name? .category) } := by
  induction nodes generalizing draft with
  | nil => simp
  | cons node nodes ih =>
      rw [List.foldl_cons, ih]
      cases data : Declared.data? node <;> cases action : Declared.name? .action node <;>
        cases category : Declared.name? .category node <;>
        simp [FilterDraft.add, FilterDraft.foldl_addData, FilterDraft.addData, data, action,
          category]

theorem filter?_of_kind {node : Node} (kind : Element.ofName node.tag.name = .filter) :
    Declared.filter? node =
      some (node.inside.nodes.foldl FilterDraft.add (readFilter node.tag)).toFilter := by
  simp only [Declared.filter?, if_pos kind, declaredFilter, foldl_add, FilterDraft.foldl_addData]
  rfl

/-- The places while a filter is being declared. -/
def filterSlots (application : Option Application) (component : ComponentDeclaration)
    (draft : FilterDraft) (seen : List Node) : Slots :=
  { inApplication := true
    application
    component := some { component with
      metadata := component.metadata ++ seen.filterMap Declared.metadata? }
    provider := none
    filter := some (seen.foldl FilterDraft.add draft) }

/-- An element that stands inside a filter, and so is none of those that may not. -/
structure IsDetail (node : Node) : Prop where
  notApplication : Declared.isApplication node.tag = false
  notPart : Declared.isPart node.tag = false
  notFilter : Declared.isFilter node.tag = false

theorem traversal_filter (application : Option Application) (component : ComponentDeclaration)
    (draft : FilterDraft) :
    Traversal (fun _ => false) IsDetail (filterSlots application component draft) := by
  apply Traversal.of_isPlain (by simp)
  intro seen node detail _
  constructor
  · exact ⟨detail.notApplication, by simp [detail.notPart], by simp [detail.notFilter]⟩
  · cases named : Declared.metadata? node <;> simp [filterSlots, Slots.add, named]

end Filters

/-! ## Components -/

section Components

/-- The places while a component is being declared. -/
def componentSlots (application : Option Application) (component : ComponentDeclaration)
    (seen : List Node) : Slots :=
  { inApplication := true
    application
    component := some { component with
      filters := component.filters ++ seen.filterMap Declared.filter?
      metadata := component.metadata ++
        (Xml.whole Declared.isFilter seen).filterMap Declared.metadata? }
    provider := none
    filter := none }

/-- An element that may stand inside a component. -/
structure IsWithinComponent (node : Node) : Prop where
  notApplication : Declared.isApplication node.tag = false
  notPart : Declared.isPart node.tag = false
  details : Declared.isFilter node.tag = true → ∀ inner ∈ node.inside.nodes, IsDetail inner

theorem exists_run_filter {node : Node} (application : Option Application)
    (component : ComponentDeclaration) (seen : List Node) (head : Manifest)
    (isFilter : Declared.isFilter node.tag = true) (within : IsWithinComponent node) :
    ∃ head', ((componentSlots application component seen).draft head).run node.events =
      .ok ((componentSlots application component (seen ++ [node])).draft head') := by
  have kind : Element.ofName node.tag.name = .filter := by simpa [Declared.isFilter] using isFilter
  have opened : ((componentSlots application component seen).draft head).opening node.tag =
      .ok ((filterSlots application { component with
        filters := component.filters ++ seen.filterMap Declared.filter?
        metadata := component.metadata ++
          (Xml.whole Declared.isFilter seen).filterMap Declared.metadata? }
        (readFilter node.tag) []).draft head) := by
    simp [Draft.opening, kind, componentSlots, filterSlots, Slots.draft]
  have allowed : ∀ inner ∈ node.inside.surface fun _ => false, IsDetail inner := by
    rw [Forest.surface_never]
    exact within.details isFilter
  have unnamed : Declared.metadata? node = none := by simp [Declared.metadata?, kind]
  rcases (traversal_filter _ _ _).exists_run_node opened allowed with ⟨head', ran⟩
  refine ⟨head', ?_⟩
  rw [ran, Forest.surface_never]
  simp [Draft.closing, kind, componentSlots, filterSlots, Slots.draft, Xml.whole, isFilter,
    filter?_of_kind kind, unnamed]

theorem traversal_component (application : Option Application) (component : ComponentDeclaration) :
    Traversal Declared.isFilter IsWithinComponent (componentSlots application component) := by
  apply Traversal.of_isPlain
  · intro seen node head within isFilter
    exact exists_run_filter application component seen head isFilter within
  · intro seen node within notFilter
    have undeclared : Declared.filter? node = none := by
      simpa [Declared.filter?, Declared.isFilter] using notFilter
    constructor
    · exact ⟨within.notApplication, by simp [within.notPart], by simp [notFilter]⟩
    · cases named : Declared.metadata? node <;>
        simp [componentSlots, Slots.add, Xml.whole, notFilter, undeclared, named]

end Components

/-! ## Providers -/

section Providers

/-- The places while a provider is being declared. -/
def providerSlots (application : Option Application) (provider : ProviderDeclaration)
    (seen : List Node) : Slots :=
  { inApplication := true
    application
    component := none
    provider := some { provider with
      metadata := provider.metadata ++ seen.filterMap Declared.metadata? }
    filter := none }

/-- An element that may stand inside a provider. -/
structure IsWithinProvider (node : Node) : Prop where
  notApplication : Declared.isApplication node.tag = false
  notPart : Declared.isPart node.tag = false

theorem traversal_provider (application : Option Application) (provider : ProviderDeclaration) :
    Traversal (fun _ => false) IsWithinProvider (providerSlots application provider) := by
  apply Traversal.of_isPlain (by simp)
  intro seen node within _
  constructor
  · exact ⟨within.notApplication, by simp [within.notPart], fun _ => ⟨rfl, rfl⟩⟩
  · cases named : Declared.metadata? node <;> simp [providerSlots, Slots.add, named]

end Providers

/-! ## The application -/

section Applications

/-- The places while the application is being declared. -/
def applicationSlots (application : Application) (seen : List Node) : Slots :=
  { inApplication := true
    application := some { application with
      components := application.components ++ seen.filterMap Declared.component?
      providers := application.providers ++ seen.filterMap Declared.provider?
      metadata := application.metadata ++ seen.filterMap Declared.metadata? }
    component := none
    provider := none
    filter := none }

/-- An element that may stand inside the application. -/
structure IsWithinApplication (node : Node) : Prop where
  notApplication : Declared.isApplication node.tag = false
  parts : Declared.isPart node.tag = true → ∀ inner ∈ node.inside.nodes, IsWithinProvider inner
  filters : node.inside.IsApart Declared.isFilter

theorem undeclared_of_not_isPart {node : Node} (notPart : Declared.isPart node.tag = false) :
    Declared.component? node = none ∧ Declared.provider? node = none := by
  cases kind : Element.ofName node.tag.name <;>
    simp_all [Declared.component?, Declared.provider?, Declared.isPart]

theorem exists_run_component {node : Node} {kind : ComponentKind} (application : Application)
    (seen : List Node) (head : Manifest)
    (isComponent : Element.ofName node.tag.name = .component kind)
    (within : IsWithinApplication node) :
    ∃ head', ((applicationSlots application seen).draft head).run node.events =
      .ok ((applicationSlots application (seen ++ [node])).draft head') := by
  have inner := within.parts (by simp [Declared.isPart, isComponent])
  have opened : ((applicationSlots application seen).draft head).opening node.tag =
      .ok ((componentSlots (applicationSlots application seen).application
        (readComponent node.tag kind) []).draft head) := by
    simp [Draft.opening, isComponent, applicationSlots, componentSlots, Slots.draft, Xml.whole,
      readComponent, ComponentDeclaration.of]
  have allowed : ∀ inner' ∈ node.inside.surface Declared.isFilter, IsWithinComponent inner' := by
    intro inner' member
    have among := Forest.mem_nodes_of_mem_surface member
    refine ⟨(inner inner' among).notApplication, (inner inner' among).notPart, ?_⟩
    intro filter detail inside
    have within' := inner detail (Forest.mem_nodes_of_mem_inside among inside)
    exact ⟨within'.notApplication, within'.notPart,
      within.filters inner' among filter detail inside⟩
  rcases (traversal_component _ _).exists_run_node opened allowed with ⟨head', ran⟩
  refine ⟨head', ?_⟩
  have unnamed : Declared.metadata? node = none := by simp [Declared.metadata?, isComponent]
  have noProvider : Declared.provider? node = none := by simp [Declared.provider?, isComponent]
  have filters : node.inside.nodes.filterMap Declared.filter? =
      (node.inside.surface Declared.isFilter).filterMap Declared.filter? := by
    apply Forest.filterMap_nodes
    intro filter among isFilter detail inside
    simpa [Declared.filter?, Declared.isFilter] using
      within.filters filter among isFilter detail inside
  rw [ran]
  simp [Draft.closing, isComponent, applicationSlots, componentSlots, Slots.draft,
    Draft.withApplication, Declared.component?, filters, unnamed, noProvider,
    ← Forest.nodes_eq_whole_surface, readComponent, ComponentDeclaration.of]

theorem exists_run_provider {node : Node} (application : Application) (seen : List Node)
    (head : Manifest) (isProvider : Element.ofName node.tag.name = .provider)
    (within : IsWithinApplication node) :
    ∃ head', ((applicationSlots application seen).draft head).run node.events =
      .ok ((applicationSlots application (seen ++ [node])).draft head') := by
  have opened : ((applicationSlots application seen).draft head).opening node.tag =
      .ok ((providerSlots (applicationSlots application seen).application
        (readProvider node.tag) []).draft head) := by
    simp [Draft.opening, isProvider, applicationSlots, providerSlots, Slots.draft, readProvider,
      ProviderDeclaration.of]
  have allowed : ∀ inner ∈ node.inside.surface fun _ => false, IsWithinProvider inner := by
    rw [Forest.surface_never]
    exact within.parts (by simp [Declared.isPart, isProvider])
  rcases (traversal_provider _ _).exists_run_node opened allowed with ⟨head', ran⟩
  refine ⟨head', ?_⟩
  have unnamed : Declared.metadata? node = none := by simp [Declared.metadata?, isProvider]
  have noComponent : Declared.component? node = none := by simp [Declared.component?, isProvider]
  rw [ran, Forest.surface_never]
  simp [Draft.closing, isProvider, applicationSlots, providerSlots, Slots.draft,
    Draft.withApplication, Declared.provider?, unnamed, noComponent, readProvider,
    ProviderDeclaration.of]

theorem traversal_application (application : Application) :
    Traversal Declared.isPart IsWithinApplication (applicationSlots application) := by
  apply Traversal.of_isPlain
  · intro seen node head within isPart
    cases kind : Element.ofName node.tag.name with
    | component _ => exact exists_run_component application seen head kind within
    | provider => exact exists_run_provider application seen head kind within
    | _ => simp [Declared.isPart, kind] at isPart
  · intro seen node within notPart
    constructor
    · exact ⟨within.notApplication, by simp [notPart], fun _ => ⟨rfl, rfl⟩⟩
    · cases named : Declared.metadata? node <;>
        simp [applicationSlots, Slots.add, undeclared_of_not_isPart notPart, named]

end Applications

/-! ## The manifest -/

section Documents

/-- The application after one more element that stands in no application, or is one. -/
def attach (application : Option Application) (node : Node) : Option Application :=
  if Declared.isApplication node.tag then some (Declared.application node [])
  else
    application.map fun application =>
      { application with metadata := application.metadata ++ (Declared.metadata? node).toList }

/-- The places outside of the application. -/
def outsideSlots (seen : List Node) : Slots :=
  { inApplication := false
    application := seen.foldl attach none
    component := none
    provider := none
    filter := none }

/-- An element that may stand outside of the application, or be it. -/
structure IsOutside (node : Node) : Prop where
  single : Declared.isApplication node.tag = true →
    ∀ inner ∈ node.inside.nodes, Declared.isApplication inner.tag = false
  parts : node.inside.IsApart Declared.isPart
  filters : node.inside.IsApart Declared.isFilter

theorem exists_run_application {node : Node} (seen : List Node) (head : Manifest)
    (isApplication : Declared.isApplication node.tag = true) (outside : IsOutside node) :
    ∃ head', ((outsideSlots seen).draft head).run node.events =
      .ok ((outsideSlots (seen ++ [node])).draft head') := by
  have kind : Element.ofName node.tag.name = .application := by
    simpa [Declared.isApplication] using isApplication
  have opened : ((outsideSlots seen).draft head).opening node.tag =
      .ok ((applicationSlots { Application.empty with
        name := platformAttribute? node.tag "name"
        label := platformAttribute? node.tag "label" } []).draft head) := by
    simp [Draft.opening, kind, outsideSlots, applicationSlots, Slots.draft, Application.empty]
  have allowed : ∀ inner ∈ node.inside.surface Declared.isPart, IsWithinApplication inner := by
    intro inner member
    have among := Forest.mem_nodes_of_mem_surface member
    refine ⟨outside.single isApplication inner among, ?_, outside.filters.inside among⟩
    intro isPart detail inside
    exact ⟨outside.single isApplication detail (Forest.mem_nodes_of_mem_inside among inside),
      outside.parts inner among isPart detail inside⟩
  have hidden : ∀ inner ∈ node.inside.nodes, Declared.isPart inner.tag = true →
      ∀ detail ∈ inner.inside.nodes,
        Declared.component? detail = none ∧ Declared.provider? detail = none :=
    fun inner among isPart detail inside =>
      undeclared_of_not_isPart (outside.parts inner among isPart detail inside)
  have components := Forest.filterMap_nodes fun inner among isPart detail inside =>
    (hidden inner among isPart detail inside).1
  have providers := Forest.filterMap_nodes fun inner among isPart detail inside =>
    (hidden inner among isPart detail inside).2
  rcases (traversal_application _).exists_run_node opened allowed with ⟨head', ran⟩
  refine ⟨head', ?_⟩
  rw [ran]
  simp [Draft.closing, kind, applicationSlots, outsideSlots, Slots.draft, attach, isApplication,
    Declared.application, components, providers, Application.empty]

theorem traversal_outside : Traversal Declared.isApplication IsOutside outsideSlots := by
  apply Traversal.of_isPlain
  · intro seen node head outside isApplication
    exact exists_run_application seen head isApplication outside
  · intro seen node outside notApplication
    constructor
    · exact ⟨notApplication, fun _ => ⟨rfl, rfl, rfl⟩, fun _ => ⟨rfl, rfl⟩⟩
    · simp [outsideSlots, Slots.add, attach, notApplication]

theorem foldl_attach_none {nodes : List Node}
    (others : ∀ node ∈ nodes, Declared.isApplication node.tag = false) :
    nodes.foldl attach none = none := by
  induction nodes with
  | nil => rfl
  | cons node nodes ih =>
      rw [List.forall_mem_cons] at others
      rw [List.foldl_cons, attach, if_neg (by simp [others.1])]
      exact ih others.2

theorem foldl_attach_some {nodes : List Node} {application : Application}
    (others : ∀ node ∈ nodes, Declared.isApplication node.tag = false) :
    nodes.foldl attach (some application) = some { application with
      metadata := application.metadata ++ nodes.filterMap Declared.metadata? } := by
  induction nodes generalizing application with
  | nil => simp
  | cons node nodes ih =>
      rw [List.forall_mem_cons] at others
      rw [List.foldl_cons, attach, if_neg (by simp [others.1]), Option.map_some, ih others.2]
      cases named : Declared.metadata? node <;> simp [named]

/-- What stands before the application has no effect, and of what stands after it the named values
count. -/
theorem foldl_attach {before after : List Node} {node : Node}
    (isApplication : Declared.isApplication node.tag = true)
    (othersBefore : ∀ other ∈ before, Declared.isApplication other.tag = false)
    (othersAfter : ∀ other ∈ after, Declared.isApplication other.tag = false) :
    (before ++ node :: after).foldl attach none = some (Declared.application node after) := by
  rw [List.foldl_append, foldl_attach_none othersBefore, List.foldl_cons, attach,
    if_pos isApplication, foldl_attach_some othersAfter]
  simp [Declared.application]

variable {root : Tag} {content : Forest} {events : List Xml.Event}

/-- What the events of a manifest lead to, wherever its application stands. -/
theorem exists_run_manifest (isRoot : root.name = "manifest")
    (single : content.IsApart Declared.isApplication) (parts : content.IsApart Declared.isPart)
    (filters : content.IsApart Declared.isFilter) :
    ∃ head, Draft.empty.run (Forest.element root content .nothing).events =
      .ok ((outsideSlots (content.surface Declared.isApplication)).draft head) := by
  have kind : Element.ofName root.name = .manifest := by rw [isRoot]; rfl
  have opened : Draft.empty.opening root = .ok ((outsideSlots []).draft
      { Draft.empty.manifest with
        package := (root.attribute? "package").getD ""
        versionCode := version? root "versionCode"
        versionName := platformAttribute? root "versionName" }) := by
    simp only [Draft.opening, kind]
    rfl
  have allowed : ∀ node ∈ content.surface Declared.isApplication, IsOutside node := by
    intro node member
    have among := Forest.mem_nodes_of_mem_surface member
    exact ⟨single node among, parts.inside among, filters.inside among⟩
  rcases traversal_outside.exists_run content [] _ allowed with ⟨head, ran⟩
  refine ⟨head, ?_⟩
  rw [Forest.events, Draft.run_opening opened, Draft.run_append_of_ok ran, Draft.run_closing]
  simp only [Draft.closing, kind]
  rfl

/-- A manifest with one application declares what its tree says, however its elements without
content are delivered. -/
theorem reads_declared_application (isRoot : root.name = "manifest")
    (single : (content.nodes.filter (Declared.isApplication ·.tag)).length = 1)
    (parts : content.IsApart Declared.isPart) (filters : content.IsApart Declared.isFilter)
    (delivers : Delivers (.element root content .nothing) events) :
    ∃ before application after,
      content.nodes = before ++ application :: (application.inside.nodes ++ after) ∧
        Declared.isApplication application.tag = true ∧
        (∃ draft, Draft.empty.run events = .ok draft ∧ draft.isBegun = true ∧
          draft.manifest.application = some (Declared.application application after)) ∧
        (∀ text, Xml.Event.readAll text = ⟨events, false⟩ → ∃ manifest, parse text = .ok manifest ∧
          manifest.application = some (Declared.application application after)) ∧
        ∀ start tag rest, events = start ++ .opening tag :: .closing tag.name :: rest →
          Draft.empty.run (start ++ .childless tag :: rest) = Draft.empty.run events := by
  rcases Forest.exists_split_of_single single with
    ⟨before, application, after, surface, split, isApplication, others⟩
  rw [List.append_assoc, List.forall_mem_append, List.forall_mem_append] at others
  rcases others with ⟨othersBefore, othersInside, othersAfter⟩
  have apart : content.IsApart Declared.isApplication := by
    intro node among isApplication'
    rw [split, List.mem_append, List.mem_cons, List.mem_append] at among
    rcases among with among | rfl | among | among
    · simp [othersBefore node among] at isApplication'
    · exact othersInside
    · simp [othersInside node among] at isApplication'
    · simp [othersAfter node among] at isApplication'
  rcases exists_run_manifest isRoot apart parts filters with ⟨head, ran⟩
  rw [← Draft.run_eq_of_delivers delivers, surface] at ran
  have declared : (outsideSlots (before ++ application :: after)).application =
      some (Declared.application application after) :=
    foldl_attach isApplication othersBefore othersAfter
  refine ⟨before, application, after, split, isApplication, ⟨_, ran, rfl, declared⟩, ?_, ?_⟩
  · intro text read
    refine ⟨((outsideSlots (before ++ application :: after)).draft head).manifest, ?_, declared⟩
    simp only [parse, read, ran]
    rfl
  · rintro start tag rest rfl
    exact Draft.run_self_closing

end Documents

/-! ## Values outside of the application -/

section Reader

/-- A tag with a name for what it declares. -/
def namedTag (element name : String) : Tag := ⟨element, [⟨"android:name", name⟩]⟩

/-- A screen with a filter, and a service. -/
def readerApplication : Node where
  tag := ⟨"application", []⟩
  inside := .element (namedTag "activity" ".Reader")
    (.element ⟨"intent-filter", []⟩ (.element (namedTag "action" "open") .nothing .nothing)
      (.element (namedTag "meta-data" "theme") .nothing .nothing))
    (.element (namedTag "service" ".Sync") .nothing .nothing)

def readerContent : Forest :=
  .element readerApplication.tag readerApplication.inside
    (.element (namedTag "meta-data" "late") .nothing .nothing)

def readerText : String :=
  "<manifest><application><activity android:name=\".Reader\"><intent-filter>" ++
    "<action android:name=\"open\"/></intent-filter><meta-data android:name=\"theme\"/>" ++
    "</activity><service android:name=\".Sync\"></service></application>" ++
    "<meta-data android:name=\"late\"/></manifest>"

def readerEvents : List Xml.Event :=
  [.opening ⟨"manifest", []⟩, .opening ⟨"application", []⟩,
    .opening (namedTag "activity" ".Reader"), .opening ⟨"intent-filter", []⟩,
    .childless (namedTag "action" "open"), .closing "intent-filter",
    .childless (namedTag "meta-data" "theme"), .closing "activity",
    .opening (namedTag "service" ".Sync"), .closing "service", .closing "application",
    .childless (namedTag "meta-data" "late"), .closing "manifest"]

theorem delivers_readerEvents :
    Delivers (.element ⟨"manifest", []⟩ readerContent .nothing) readerEvents :=
  .element
    (.element
      (.element (.element (.childless .nothing) (.childless .nothing)) (.element .nothing .nothing))
      (.childless .nothing))
    .nothing

/-- The value after the application belongs to it. -/
theorem reader_declares : Xml.Event.readAll readerText = ⟨readerEvents, false⟩ ∧
    ∃ manifest, parse readerText = .ok manifest ∧ manifest.application = some
      { Application.empty with
        components :=
          [{ ComponentDeclaration.of ".Reader" .activity with
              filters := [.ofAction "open"]
              metadata := [⟨"theme", none, none⟩] },
            .of ".Sync" .service]
        metadata := [⟨"late", none, none⟩] } := by
  have isRoot : Tag.name ⟨"manifest", []⟩ = "manifest" := rfl
  have read : Xml.Event.readAll readerText = ⟨readerEvents, false⟩ := by decide +kernel
  rcases reads_declared_application isRoot (by decide) (by decide) (by decide)
    delivers_readerEvents with ⟨before, application, after, split, isApplication, _, parsed, _⟩
  have others : ∀ node ∈ readerContent.nodes.tail, Declared.isApplication node.tag = false := by
    decide
  cases before with
  | nil =>
      rcases List.cons.inj split with ⟨rfl, rest⟩
      have late := List.append_cancel_left rest
      rcases parsed readerText read with ⟨manifest, ok, declared⟩
      rw [← late] at declared
      exact ⟨read, manifest, ok, declared⟩
  | cons first before =>
      have member : application ∈ readerContent.nodes.tail := by
        rw [split]
        simp
      rw [others application member] at isApplication
      cases isApplication

/-- A value, and the application after it. -/
def earlyContent : Forest :=
  .element (namedTag "meta-data" "early") .nothing (.element ⟨"application", []⟩ .nothing .nothing)

/-- A value before the application belongs to nothing. -/
theorem early_value_is_lost :
    (earlyContent.nodes.filter (Declared.isApplication ·.tag)).length = 1 ∧
      earlyContent.IsApart Declared.isPart ∧ earlyContent.IsApart Declared.isFilter ∧
      earlyContent.nodes.filterMap Declared.metadata? = [⟨"early", none, none⟩] ∧
      ∃ events, Delivers (.element ⟨"manifest", []⟩ earlyContent .nothing) events ∧
        ∃ draft, Draft.empty.run events = .ok draft ∧
          draft.manifest.application = some .empty := by
  refine ⟨by decide, by decide, by decide, by decide, _, Forest.delivers_events _, ?_⟩
  exact ⟨_, rfl, rfl⟩

end Reader

end IntentRouting.Manifest
