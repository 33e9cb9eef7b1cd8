import IntentRouting.Xml.Event

/-!
# Trees of elements

The events of a document in which every element ends are those of trees, one after the other. An
element without content is delivered as one event or as two (`Delivers`). The elements of trees are
listed in the order of the document: all of them (`Forest.nodes`), or only those that do not stand
inside an element of some kind (`Forest.surface`).
-/

namespace IntentRouting.Xml

/-- Elements one after the other, each with those inside it. -/
inductive Forest where
  | nothing
  | element (tag : Tag) (inside after : Forest)

/-- An element. -/
structure Node where
  tag : Tag
  inside : Forest

/-- The events that trees may be delivered as. -/
inductive Delivers : Forest → List Event → Prop where
  | nothing : Delivers .nothing []
  | element {tag : Tag} {inside after : Forest} {events events' : List Event}
      (content : Delivers inside events) (later : Delivers after events') :
      Delivers (.element tag inside after)
        (.opening tag :: (events ++ .closing tag.name :: events'))
  | childless {tag : Tag} {after : Forest} {events : List Event} (later : Delivers after events) :
      Delivers (.element tag .nothing after) (.childless tag :: events)

namespace Forest

/-- The events of trees, each element as two. -/
def events : Forest → List Event
  | nothing => []
  | element tag inside after =>
      .opening tag :: (inside.events ++ .closing tag.name :: after.events)

/-- The elements in the order in which they begin. -/
def nodes : Forest → List Node
  | nothing => []
  | element tag inside after => ⟨tag, inside⟩ :: (inside.nodes ++ after.nodes)

/-- The elements that do not stand inside one of some kind. -/
def surface (stops : Tag → Bool) : Forest → List Node
  | nothing => []
  | element tag inside after =>
      ⟨tag, inside⟩ :: ((if stops tag then [] else inside.surface stops) ++ after.surface stops)

/-- That elements of some kind do not stand inside one another. -/
def IsApart (kind : Tag → Bool) (forest : Forest) : Prop :=
  ∀ node ∈ forest.nodes, kind node.tag = true →
    ∀ inner ∈ node.inside.nodes, kind inner.tag = false

instance (kind : Tag → Bool) (forest : Forest) : Decidable (forest.IsApart kind) :=
  inferInstanceAs (Decidable (∀ node ∈ forest.nodes, kind node.tag = true →
    ∀ inner ∈ node.inside.nodes, kind inner.tag = false))

end Forest

def Node.events (node : Node) : List Event :=
  .opening node.tag :: (node.inside.events ++ [.closing node.tag.name])

/-- Elements together with what stands inside those of some kind. -/
def whole (stops : Tag → Bool) (nodes : List Node) : List Node :=
  nodes.flatMap fun node => node :: if stops node.tag then node.inside.nodes else []

namespace Forest

variable {α : Type} {stops kind : Tag → Bool} {forest : Forest} {node inner : Node}

theorem delivers_events (forest : Forest) : Delivers forest forest.events := by
  induction forest with
  | nothing => exact .nothing
  | element tag inside after ih ih' => exact .element ih ih'

/-- All elements are those on the surface and those inside them. -/
theorem nodes_eq_whole_surface (stops : Tag → Bool) (forest : Forest) :
    forest.nodes = whole stops (forest.surface stops) := by
  induction forest with
  | nothing => rfl
  | element tag inside after ih ih' =>
      simp only [whole] at ih ih' ⊢
      by_cases stopped : stops tag = true
      · simp [nodes, surface, stopped, ih']
      · simp [nodes, surface, stopped, ← ih, ← ih']

theorem surface_never (forest : Forest) : forest.surface (fun _ => false) = forest.nodes := by
  induction forest with
  | nothing => rfl
  | element tag inside after ih ih' => simp [nodes, surface, ih, ih']

theorem mem_nodes_of_mem_surface (member : node ∈ forest.surface stops) : node ∈ forest.nodes := by
  rw [nodes_eq_whole_surface stops]
  exact List.mem_flatMap.2 ⟨node, member, List.mem_cons_self ..⟩

/-- What stands inside an element of a forest is an element of the forest. -/
theorem mem_nodes_of_mem_inside (member : node ∈ forest.nodes)
    (within : inner ∈ node.inside.nodes) : inner ∈ forest.nodes := by
  induction forest with
  | nothing => cases member
  | element tag inside after ih ih' =>
      rw [nodes, List.mem_cons, List.mem_append] at member ⊢
      rcases member with rfl | member | member
      · exact .inr (.inl within)
      · exact .inr (.inl (ih member))
      · exact .inr (.inr (ih' member))

theorem IsApart.inside (apart : forest.IsApart kind) (member : node ∈ forest.nodes) :
    node.inside.IsApart kind :=
  fun inner within => apart inner (mem_nodes_of_mem_inside member within)

/-- What is only read off elements that do not stand inside some others is read off the surface. -/
theorem filterMap_nodes {read : Node → Option α}
    (hidden : ∀ node ∈ forest.nodes, stops node.tag = true →
      ∀ inner ∈ node.inside.nodes, read inner = none) :
    forest.nodes.filterMap read = (forest.surface stops).filterMap read := by
  induction forest with
  | nothing => rfl
  | element tag inside after ih ih' =>
      simp only [nodes, List.forall_mem_cons, List.forall_mem_append] at hidden
      rcases hidden with ⟨stopped, hiddenInside, hiddenAfter⟩
      have within : inside.nodes.filterMap read =
          (if stops tag then [] else inside.surface stops).filterMap read := by
        split
        · rename_i stop
          exact List.filterMap_eq_nil_iff.2 (stopped stop)
        · exact ih hiddenInside
      rw [nodes, surface, List.filterMap_cons, List.filterMap_cons, List.filterMap_append,
        List.filterMap_append, within, ih' hiddenAfter]

theorem whole_of_none {nodes : List Node} (none : ∀ node ∈ nodes, kind node.tag = false) :
    whole kind nodes = nodes := by
  induction nodes with
  | nil => rfl
  | cons node nodes ih =>
      rw [List.forall_mem_cons] at none
      have rest := ih none.2
      rw [whole] at rest ⊢
      rw [List.flatMap_cons, rest, if_neg (by simp [none.1])]
      rfl

/-- Where one element of a kind stands among all elements. What is inside it follows it. -/
theorem exists_split_of_single (single : (forest.nodes.filter (kind ·.tag)).length = 1) :
    ∃ before node after, forest.surface kind = before ++ node :: after ∧
      forest.nodes = before ++ node :: (node.inside.nodes ++ after) ∧ kind node.tag = true ∧
        ∀ other ∈ before ++ node.inside.nodes ++ after, kind other.tag = false := by
  have surfaced := nodes_eq_whole_surface kind forest
  cases found : (forest.surface kind).find? (kind ·.tag) with
  | none =>
      have none : ∀ node ∈ forest.surface kind, kind node.tag = false := by
        simpa using found
      rw [surfaced, whole_of_none none, List.filter_eq_nil_iff.2 (by simpa using none)] at single
      cases single
  | some node =>
      rcases List.find?_eq_some_iff_append.1 found with ⟨isKind, before, after, split, first⟩
      have none : ∀ other ∈ before, kind other.tag = false := by simpa using first
      have listed : forest.nodes =
          before ++ node :: (node.inside.nodes ++ whole kind after) := by
        rw [surfaced, split, whole, List.flatMap_append, ← whole, whole_of_none none,
          List.flatMap_cons, if_pos isKind, ← whole]
        rfl
      have rest : ∀ other ∈ node.inside.nodes ++ whole kind after, kind other.tag = false := by
        rw [listed, List.filter_append, List.filter_cons, if_pos isKind, List.length_append,
          List.length_cons] at single
        have nothing := List.length_eq_zero_iff.1 (by omega :
          ((node.inside.nodes ++ whole kind after).filter (kind ·.tag)).length = 0)
        simpa only [Bool.not_eq_true] using List.filter_eq_nil_iff.1 nothing
      rw [List.forall_mem_append] at rest
      have last : ∀ other ∈ after, kind other.tag = false :=
        fun other member => rest.2 other (List.mem_flatMap.2 ⟨other, member, List.mem_cons_self ..⟩)
      refine ⟨before, node, after, split, by rw [listed, whole_of_none last], isKind, ?_⟩
      rw [List.append_assoc, List.forall_mem_append, List.forall_mem_append]
      exact ⟨none, rest.1, last⟩

end Forest

end IntentRouting.Xml
