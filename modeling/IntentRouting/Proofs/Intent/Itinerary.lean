import IntentRouting.Permission.Dispatch
import Mathlib.Data.List.Nodup

/-!
# The content that an intent reaches

A URI that an intent carries stands at a place: it is the data, or the URI of an item of the clip,
or it stands at a place of the intent in such an item. A walk through the intent meets one place
before another. The itinerary of an intent lists the content at its places, each URI where it is met
first. There is only one such list, and the intent reaches it. Neither extras nor selectors nor
flags are places, so they have no influence on it.
-/

namespace IntentRouting

/-- Where a URI can stand in an intent. -/
inductive Place where
  | data
  /-- The URI of an item of the clip. -/
  | uri (item : Nat)
  /-- A place in the intent of an item of the clip. -/
  | within (item : Nat) (place : Place)

namespace Place

/-- Whether a walk through an intent meets a place before another one. -/
def Before : Place → Place → Prop
  | .data, .data => False
  | .data, .uri _ => True
  | .data, .within _ _ => True
  | .uri _, .data => False
  | .uri item, .uri other => item < other
  | .uri item, .within other _ => item ≤ other
  | .within _ _, .data => False
  | .within item _, .uri other => item < other
  | .within item place, .within other otherPlace =>
      item < other ∨ item = other ∧ place.Before otherPlace

theorem Before.asymm {place other : Place} (before : place.Before other) : ¬other.Before place := by
  induction place generalizing other with
  | data =>
      cases other with
      | data => exact before.elim
      | uri _ | within _ _ => exact not_false
  | uri item =>
      cases other with
      | data => exact before.elim
      | uri _ | within _ _ =>
          simp only [Before] at before ⊢
          omega
  | within item place ih =>
      cases other with
      | data => exact before.elim
      | uri _ =>
          simp only [Before] at before ⊢
          omega
      | within _ _ =>
          simp only [Before] at before ⊢
          rintro (less | ⟨same, back⟩)
          · omega
          · rcases before with less | ⟨_, before⟩
            · omega
            · exact ih before back

end Place

namespace Intent

variable {intent other : Intent} {uris : List Uri}

section Nesting

/-- The items of the clip. -/
def items (intent : Intent) : List ClipItem := (intent.clip.map Clip.items).getD []

/-- The URI at a place of an intent. -/
def at? (intent : Intent) : Place → Option Uri
  | .data => intent.data
  | .uri item => intent.items[item]?.bind ClipItem.uri
  | .within item place =>
      (intent.items[item]?.bind ClipItem.intent).bind fun nested => nested.at? place

theorem sizeOf_lt_of_mem_items {item : ClipItem} {nested : Intent} (member : item ∈ intent.items)
    (given : item.intent = some nested) : sizeOf nested < sizeOf intent := by
  rcases intent with ⟨_, _, _, _, _, _, _, _, _, _, _ | clip, _⟩
  · cases member
  · have inClip : sizeOf item < sizeOf clip := by
      have inItems : sizeOf item < sizeOf clip.items := List.sizeOf_lt_of_mem member
      cases clip
      simp only [Clip.mk.sizeOf_spec] at inItems ⊢
      omega
    rcases item with ⟨_, _, _⟩
    cases given
    simp only [ClipItem.mk.sizeOf_spec, Option.some.sizeOf_spec] at inClip
    simp only [Intent.mk.sizeOf_spec, Option.some.sizeOf_spec]
    omega

/-- What holds of an intent if it holds of the intents in its clip holds of every intent. -/
theorem induction_items {motive : Intent → Prop}
    (step : ∀ intent : Intent,
      (∀ item ∈ intent.items, ∀ nested ∈ item.intent, motive nested) → motive intent)
    (intent : Intent) : motive intent :=
  step intent fun _ member nested given =>
    have := sizeOf_lt_of_mem_items member given
    induction_items step nested
termination_by sizeOf intent

theorem reached_eq (intent : Intent) :
    intent.reached = intent.data.toList ++ intent.items.flatMap fun item =>
      item.uri.toList ++ (item.intent.map reached).getD [] := by
  have ofItem (item : ClipItem) :
      item.reached = item.uri.toList ++ (item.intent.map reached).getD [] := by
    rcases item with ⟨_, _, _ | nested⟩
    · rfl
    · rfl
  have ofItems (items : List ClipItem) : Clip.itemsReached items =
      items.flatMap fun item => item.uri.toList ++ (item.intent.map reached).getD [] := by
    induction items with
    | nil => rfl
    | cons item items ih => rw [Clip.itemsReached, List.flatMap_cons, ih, ofItem]
  rcases intent with ⟨_, _, _, _, _, _, _, _, _, _, _ | ⟨_, _, items⟩, _⟩
  · rfl
  · rw [← ofItems]
    rfl

end Nesting

section Walk

/-- The places that a walk meets behind the data, given those of the intents in the clip. -/
def itemPlaces (inner : ClipItem → List Place) (entry : ClipItem × Nat) : List Place :=
  .uri entry.2 :: (inner entry.1).map (.within entry.2)

theorem pairwise_itemPlaces {items : List ClipItem} {inner : ClipItem → List Place}
    (ordered : ∀ item ∈ items, (inner item).Pairwise Place.Before) :
    (items.zipIdx.flatMap (itemPlaces inner)).Pairwise Place.Before := by
  rw [List.pairwise_flatMap]
  constructor
  · rintro ⟨item, index⟩ member
    have inside := ordered item (List.mem_of_getElem? (List.mem_zipIdx_iff_getElem?.1 member))
    rw [itemPlaces, List.pairwise_cons, List.pairwise_map]
    refine ⟨?_, inside.imp fun before => .inr ⟨rfl, before⟩⟩
    intro place member
    rcases List.mem_map.1 member with ⟨place, _, rfl⟩
    exact Nat.le_refl index
  · have ascending : items.zipIdx.Pairwise fun entry later => entry.2 < later.2 := by
      rw [← List.pairwise_map (f := Prod.snd), List.zipIdx_map_snd]
      exact List.pairwise_lt_range' 1
    refine ascending.imp ?_
    intro entry later less place inEntry other inLater
    rcases List.mem_cons.1 inEntry with rfl | inEntry
    · rcases List.mem_cons.1 inLater with rfl | inLater
      · exact less
      · rcases List.mem_map.1 inLater with ⟨_, _, rfl⟩
        exact Nat.le_of_lt less
    · rcases List.mem_map.1 inEntry with ⟨_, _, rfl⟩
      rcases List.mem_cons.1 inLater with rfl | inLater
      · exact less
      · rcases List.mem_map.1 inLater with ⟨_, _, rfl⟩
        exact .inl less

theorem filterMap_at?_itemPlaces (intent : Intent) {inner : ClipItem → List Place}
    (reaches : ∀ item ∈ intent.items, ∀ nested ∈ item.intent,
      (inner item).filterMap nested.at? = nested.reached) :
    (intent.items.zipIdx.flatMap (itemPlaces inner)).filterMap intent.at? =
      intent.items.flatMap fun item => item.uri.toList ++ (item.intent.map reached).getD [] := by
  rw [List.filterMap_flatMap]
  have ofEntry : ∀ entry ∈ intent.items.zipIdx, (itemPlaces inner entry).filterMap intent.at? =
      entry.1.uri.toList ++ (entry.1.intent.map reached).getD [] := by
    rintro ⟨item, index⟩ member
    have found := List.mem_zipIdx_iff_getElem?.1 member
    have reaches := reaches item (List.mem_of_getElem? found)
    have ofUri : intent.at? (.uri index) = item.uri := by rw [at?, found, Option.bind_some]
    have ofNested : intent.at? ∘ Place.within index = fun place =>
        item.intent.bind fun nested => nested.at? place := by
      funext place
      rw [Function.comp_apply, at?, found, Option.bind_some]
    have inner : ((inner item).map (Place.within index)).filterMap intent.at? =
        (item.intent.map reached).getD [] := by
      rw [List.filterMap_map, ofNested]
      cases given : item.intent with
      | none => simp
      | some nested => simpa using reaches nested given
    rw [itemPlaces, List.filterMap_cons, ofUri, inner]
    cases item.uri with
    | none => rfl
    | some uri => rfl
  have firsts := List.zipIdx_map_fst 0 intent.items
  rw [List.flatMap_congr ofEntry]
  conv_rhs => rw [← firsts, List.flatMap_map]

/-- A walk through an intent meets its places in order and collects what the intent reaches. -/
theorem exists_walk (intent : Intent) :
    ∃ places : List Place, places.Pairwise Place.Before ∧
      (∀ place, (intent.at? place).isSome → place ∈ places) ∧
        places.filterMap intent.at? = intent.reached := by
  induction intent using induction_items with
  | step intent ih =>
      have walks : ∀ item : ClipItem, ∃ places : List Place, item ∈ intent.items →
          places.Pairwise Place.Before ∧ ∀ nested ∈ item.intent,
            (∀ place, (nested.at? place).isSome → place ∈ places) ∧
              places.filterMap nested.at? = nested.reached := by
        intro item
        cases given : item.intent with
        | none => exact ⟨[], fun _ => ⟨.nil, by rintro _ ⟨⟩⟩⟩
        | some nested =>
            by_cases member : item ∈ intent.items
            · rcases ih item member nested given with ⟨places, ordered, complete, reaches⟩
              refine ⟨places, fun _ => ⟨ordered, ?_⟩⟩
              rintro _ ⟨⟩
              exact ⟨complete, reaches⟩
            · exact ⟨[], fun absurdMember => absurd absurdMember member⟩
      choose inner walks using walks
      refine ⟨.data :: intent.items.zipIdx.flatMap (itemPlaces inner), ?_, ?_, ?_⟩
      · rw [List.pairwise_cons]
        refine ⟨?_, pairwise_itemPlaces fun item member => (walks item member).1⟩
        intro place member
        rcases List.mem_flatMap.1 member with ⟨entry, _, inEntry⟩
        rcases List.mem_cons.1 inEntry with rfl | inEntry
        · trivial
        · rcases List.mem_map.1 inEntry with ⟨_, _, rfl⟩
          trivial
      · intro place occupied
        cases place with
        | data => exact List.mem_cons_self
        | uri index =>
            rcases Option.isSome_iff_exists.1 occupied with ⟨uri, found⟩
            rcases Option.bind_eq_some_iff.1 found with ⟨item, found, _⟩
            exact List.mem_cons_of_mem _ (List.mem_flatMap.2
              ⟨(item, index), List.mem_zipIdx_iff_getElem?.2 found, List.mem_cons_self⟩)
        | within index place =>
            rcases Option.isSome_iff_exists.1 occupied with ⟨uri, found⟩
            rcases Option.bind_eq_some_iff.1 found with ⟨nested, ofItem, inside⟩
            rcases Option.bind_eq_some_iff.1 ofItem with ⟨item, found, given⟩
            have met := ((walks item (List.mem_of_getElem? found)).2 nested given).1 place
              (Option.isSome_iff_exists.2 ⟨uri, inside⟩)
            exact List.mem_cons_of_mem _ (List.mem_flatMap.2
              ⟨(item, index), List.mem_zipIdx_iff_getElem?.2 found,
                List.mem_cons_of_mem _ (List.mem_map_of_mem met)⟩)
      · have behind := intent.filterMap_at?_itemPlaces fun item member nested given =>
          ((walks item member).2 nested given).2
        have ofData : intent.at? .data = intent.data := rfl
        rw [List.filterMap_cons, behind, reached_eq, ofData]
        cases intent.data with
        | none => rfl
        | some uri => rfl

end Walk

section Itinerary

/-- Whether a URI is met in an intent before another one stands anywhere in it. -/
def Precedes (intent : Intent) (earlier later : Uri) : Prop :=
  ∃ place, intent.at? place = some earlier ∧
    ∀ other, intent.at? other = some later → place.Before other

/-- Whether a list holds the content at the places of an intent, each where it is met first. -/
structure IsItinerary (intent : Intent) (uris : List Uri) : Prop where
  mem_iff : ∀ uri, uri ∈ uris ↔ uri.isContent = true ∧ ∃ place, intent.at? place = some uri
  ordered : uris.Pairwise intent.Precedes

theorem Precedes.asymm {earlier later : Uri} (precedes : intent.Precedes earlier later) :
    ¬intent.Precedes later earlier := by
  rcases precedes with ⟨place, found, first⟩
  rintro ⟨other, otherFound, otherFirst⟩
  exact (first other otherFound).asymm (otherFirst place found)

theorem IsItinerary.nodup (itinerary : intent.IsItinerary uris) : uris.Nodup :=
  itinerary.ordered.imp fun precedes same => (same ▸ precedes).asymm (same ▸ precedes)

/-- An intent has no two itineraries. -/
theorem IsItinerary.unique {others : List Uri} (itinerary : intent.IsItinerary uris)
    (another : intent.IsItinerary others) : uris = others := by
  have perm : uris.Perm others := by
    rw [List.perm_ext_iff_of_nodup itinerary.nodup another.nodup]
    intro uri
    rw [itinerary.mem_iff, another.mem_iff]
  exact perm.eq_of_pairwise
    (fun _ _ _ _ precedes back => absurd back precedes.asymm) itinerary.ordered another.ordered

theorem IsItinerary.congr (itinerary : intent.IsItinerary uris)
    (same : ∀ place, other.at? place = intent.at? place) : other.IsItinerary uris := by
  have precedes : other.Precedes = intent.Precedes := by
    funext earlier later
    simp only [Precedes, same]
  constructor
  · intro uri
    simp only [itinerary.mem_iff, same]
  · rw [precedes]
    exact itinerary.ordered

/-- Of what a list of places yields, each is kept where it is met first. -/
theorem pairwise_eraseDups_filterMap {places : List Place} (ordered : places.Pairwise Place.Before)
    (yields : Place → Option Uri) :
    (places.filterMap yields).eraseDups.Pairwise fun earlier later =>
      ∃ place, yields place = some earlier ∧
        ∀ other ∈ places, yields other = some later → place.Before other := by
  induction places generalizing yields with
  | nil => exact .nil
  | cons first places ih =>
      rw [List.pairwise_cons] at ordered
      cases found : yields first with
      | none =>
          rw [List.filterMap_cons_none found]
          refine (ih ordered.2 yields).imp ?_
          rintro earlier later ⟨place, yielded, before⟩
          refine ⟨place, yielded, ?_⟩
          intro other member otherYields
          rcases List.mem_cons.1 member with rfl | member
          · rw [found] at otherYields
            cases otherYields
          · exact before other member otherYields
      | some uri =>
          rw [List.filterMap_cons_some found, List.eraseDups_cons, List.filter_filterMap,
            List.pairwise_cons]
          have apart {later : Uri} (different : later ≠ uri) {other : Place}
              (member : other ∈ first :: places) (yielded : yields other = some later) :
              other ∈ places := by
            rcases List.mem_cons.1 member with rfl | member
            · rw [found, Option.some.injEq] at yielded
              exact absurd yielded.symm different
            · exact member
          have differs {later : Uri} (member : later ∈ (places.filterMap fun place =>
              (yields place).filter fun other => !other == uri).eraseDups) : later ≠ uri := by
            rw [List.mem_eraseDups, List.mem_filterMap] at member
            rcases member with ⟨_, _, kept⟩
            simpa using (Option.filter_eq_some_iff.1 kept).2
          constructor
          · intro later member
            refine ⟨first, found, ?_⟩
            intro other inPlaces yielded
            exact ordered.1 other (apart (differs member) inPlaces yielded)
          · refine (ih ordered.2 _).imp_of_mem ?_
            rintro earlier later _ member ⟨place, yielded, before⟩
            refine ⟨place, (Option.filter_eq_some_iff.1 yielded).1, ?_⟩
            intro other inPlaces otherYields
            apply before other (apart (differs member) inPlaces otherYields)
            rw [otherYields, Option.filter_some_pos (by simpa using differs member)]

/-- What an intent reaches without repetition is its itinerary. -/
theorem isItinerary_reachedContent (intent : Intent) :
    intent.IsItinerary intent.reachedContent := by
  rcases intent.exists_walk with ⟨places, ordered, complete, reaches⟩
  have content : intent.reachedContent =
      (places.filterMap fun place => (intent.at? place).filter Uri.isContent).eraseDups := by
    rw [reachedContent, ← reaches, List.filter_filterMap]
  have mem_iff : ∀ uri, uri ∈ intent.reachedContent ↔
      uri.isContent = true ∧ ∃ place, intent.at? place = some uri := by
    intro uri
    rw [content, List.mem_eraseDups, List.mem_filterMap]
    constructor
    · rintro ⟨place, _, kept⟩
      rw [Option.filter_eq_some_iff] at kept
      exact ⟨kept.2, place, kept.1⟩
    · rintro ⟨isContent, place, found⟩
      exact ⟨place, complete place (by simp [found]),
        Option.filter_eq_some_iff.2 ⟨found, isContent⟩⟩
  refine ⟨mem_iff, ?_⟩
  have inOrder := content ▸ pairwise_eraseDups_filterMap ordered
    fun place => (intent.at? place).filter Uri.isContent
  refine inOrder.imp_of_mem ?_
  rintro earlier later _ member ⟨place, found, before⟩
  refine ⟨place, (Option.filter_eq_some_iff.1 found).1, ?_⟩
  intro other otherFound
  exact before other (complete other (by simp [otherFound]))
    (Option.filter_eq_some_iff.2 ⟨otherFound, ((mem_iff later).1 member).1⟩)

/-- Intents with the same URIs at the same places reach the same content. -/
theorem reachedContent_congr (same : ∀ place, other.at? place = intent.at? place) :
    other.reachedContent = intent.reachedContent :=
  other.isItinerary_reachedContent.unique (intent.isItinerary_reachedContent.congr same)

end Itinerary

end Intent

end IntentRouting
