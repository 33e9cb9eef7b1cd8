import IntentRouting.Intent.Change
import IntentRouting.Proofs.Uri.Grammar

/-!
# Intents that are built

An intent is built from the empty one by changes, whose URIs have been read and whose templates and
selectors are built themselves. What its text relies on holds after every change: its data is a URI
that was read, the names of its extras differ, and it does not have both a package and a selector.
Nothing else holds of all intents that are built: whatever is sound in this way can be built.
-/

namespace IntentRouting

namespace Bundle

variable {key name : String} {value : Value} {entries : List (String × Value)} {bundle : Bundle}

theorem mem_keys_insertEntry :
    name ∈ (insertEntry key value entries).map (·.1) ↔ name = key ∨ name ∈ entries.map (·.1) := by
  induction entries with
  | nil => simp [insertEntry]
  | cons entry entries ih =>
      rw [insertEntry]
      split
      · rename_i same
        simp [same]
      · simp only [List.map_cons, List.mem_cons, ih]
        exact or_left_comm

theorem insertEntry_of_notMem (absent : key ∉ entries.map (·.1)) :
    insertEntry key value entries = entries ++ [(key, value)] := by
  induction entries with
  | nil => rfl
  | cons entry entries ih =>
      rw [List.map_cons, List.mem_cons, not_or] at absent
      rw [insertEntry, if_neg (Ne.symm absent.1), ih absent.2, List.cons_append]

/-- Whether the names of a bundle differ. -/
def Distinct (bundle : Bundle) : Prop := bundle.keys.Nodup

theorem Distinct.insert (distinct : bundle.Distinct) (key : String) (value : Value) :
    (bundle.insert key value).Distinct := by
  rcases bundle with ⟨entries⟩
  simp only [Distinct, keys, Bundle.insert] at distinct ⊢
  induction entries with
  | nil => simp [insertEntry]
  | cons entry entries ih =>
      rw [List.map_cons, List.nodup_cons] at distinct
      rw [insertEntry]
      split
      · rename_i same
        rw [List.map_cons, List.nodup_cons, ← same]
        exact distinct
      · rename_i different
        rw [List.map_cons, List.nodup_cons, mem_keys_insertEntry, not_or]
        exact ⟨⟨different, distinct.1⟩, ih distinct.2⟩

theorem Distinct.erase (distinct : bundle.Distinct) (key : String) :
    (bundle.erase key).Distinct := by
  apply List.Nodup.sublist _ distinct
  exact List.filter_sublist.map _

theorem Distinct.fillMissing (distinct : bundle.Distinct) (other : Bundle) :
    (bundle.fillMissing other).Distinct := by
  rw [Bundle.fillMissing]
  induction other.entries generalizing bundle with
  | nil => exact distinct
  | cons entry entries ih =>
      rw [List.foldl_cons]
      split
      · exact ih distinct
      · exact ih (distinct.insert entry.1 entry.2)

theorem foldl_insert_of_nodup (entries : List (String × Value)) (bundle : Bundle)
    (distinct : ((bundle.entries ++ entries).map (·.1)).Nodup) :
    entries.foldl (fun bundle entry => bundle.insert entry.1 entry.2) bundle =
      ⟨bundle.entries ++ entries⟩ := by
  induction entries generalizing bundle with
  | nil =>
      cases bundle
      simp
  | cons entry entries ih =>
      have absent : entry.1 ∉ bundle.entries.map (·.1) := by
        rw [List.map_append, List.nodup_append] at distinct
        intro present
        exact distinct.2.2 entry.1 present entry.1 (by simp) rfl
      have inserted : bundle.insert entry.1 entry.2 = ⟨bundle.entries ++ [entry]⟩ := by
        rw [Bundle.insert, insertEntry_of_notMem absent]
      have later := ih ⟨bundle.entries ++ [entry]⟩ (by simpa using distinct)
      simpa [inserted] using later

/-- Entries under different names are put one behind the other. -/
theorem ofList_of_nodup (distinct : (entries.map (·.1)).Nodup) : ofList entries = ⟨entries⟩ :=
  foldl_insert_of_nodup entries empty distinct

end Bundle

namespace Categories

theorem insertName_of_forall_lt {name : String} {names : List String}
    (greatest : ∀ other ∈ names, other < name) : insertName name names = names ++ [name] := by
  induction names with
  | nil => rfl
  | cons first names ih =>
      rw [List.forall_mem_cons] at greatest
      have notLess : ¬name < first := fun less =>
        String.lt_irrefl name (String.lt_trans less greatest.1)
      have different : name ≠ first := by
        rintro rfl
        exact String.lt_irrefl name greatest.1
      rw [insertName, if_neg notLess, if_neg different, ih greatest.2, List.cons_append]

theorem names_foldl_insert (names : List String) (categories : Categories)
    (ascending : (categories.names ++ names).Pairwise (· < ·)) :
    (names.foldl insert categories).names = categories.names ++ names := by
  induction names generalizing categories with
  | nil => simp
  | cons name names ih =>
      have greatest : ∀ other ∈ categories.names, other < name := by
        intro other member
        exact (List.pairwise_append.1 ascending).2.2 other member name (List.mem_cons_self ..)
      have inserted : (categories.insert name).names = categories.names ++ [name] :=
        insertName_of_forall_lt greatest
      have later := ih (categories.insert name) (by simpa [inserted] using ascending)
      simpa [inserted] using later

/-- A set is put together again from its names. -/
theorem foldl_insert_names (categories : Categories) :
    categories.names.foldl insert empty = categories :=
  ext (names_foldl_insert categories.names empty categories.ascending)

end Categories

namespace Intent

variable {intent : Intent}

/-- The intents that a change takes something from. -/
def Change.intents : Change → List Intent
  | .selector other => other.toList
  | .fillIn template _ => [template]
  | _ => []

/-- The URIs that a change sets. -/
def Change.uris : Change → List Uri
  | .data uri => uri.toList
  | .normalizedData uri => [uri]
  | .dataAndType uri _ => uri.toList
  | .normalizedDataAndType uri _ => [uri]
  | _ => []

/-- Intents that changes lead to from the empty one. -/
inductive IsBuilt : Intent → Prop
  | empty : IsBuilt .empty
  | change {before after : Intent} (change : Change) (built : before.IsBuilt)
      (intents : ∀ other ∈ change.intents, other.IsBuilt)
      (uris : ∀ uri ∈ change.uris, uri.IsRead)
      (applied : before.apply change = .ok after) : after.IsBuilt

/-- A change that takes nothing from other intents and sets no URI needs nothing else. -/
theorem IsBuilt.changed {before after : Intent} (built : before.IsBuilt) (change : Change)
    (intents : change.intents = []) (uris : change.uris = [])
    (applied : before.apply change = .ok after) : after.IsBuilt :=
  .change change built (by simp [intents]) (by simp [uris]) applied

/-- What holds of every intent that is built. -/
inductive IsSound : Intent → Prop
  | of {intent : Intent} (data : ∀ data ∈ intent.data, data.IsRead)
      (extras : intent.extras.Distinct)
      (exclusive : intent.package = none ∨ intent.selector = none)
      (selector : ∀ other ∈ intent.selector, other.IsSound) : intent.IsSound

theorem IsSound.data (sound : intent.IsSound) : ∀ data ∈ intent.data, data.IsRead := by
  cases sound with
  | of data _ _ _ => exact data

theorem IsSound.extras (sound : intent.IsSound) : intent.extras.Distinct := by
  cases sound with
  | of _ extras _ _ => exact extras

theorem IsSound.exclusive (sound : intent.IsSound) :
    intent.package = none ∨ intent.selector = none := by
  cases sound with
  | of _ _ exclusive _ => exact exclusive

theorem IsSound.selector (sound : intent.IsSound) : ∀ other ∈ intent.selector, other.IsSound := by
  cases sound with
  | of _ _ _ selector => exact selector

theorem selector_fillIn (intent template : Intent) (allow : FillInFlags) :
    (intent.fillIn template allow).2.selector = template.selector ∨
      (intent.fillIn template allow).2.selector = intent.selector := by
  simp only [fillIn]
  grind

section Exclusive

variable {after : Intent}

theorem exclusive_setPackage {name : Option String}
    (applied : intent.setPackage name = .ok after) :
    after.package = none ∨ after.selector = none := by
  rw [setPackage] at applied
  split at applied
  · cases applied
  · rename_i allowed
    cases applied
    cases name with
    | none => exact .inl rfl
    | some name => simpa using allowed

theorem exclusive_setSelector {other : Option Intent}
    (applied : intent.setSelector other = .ok after) :
    after.package = none ∨ after.selector = none := by
  rw [setSelector] at applied
  split at applied
  · cases applied
  · rename_i allowed
    cases applied
    cases other with
    | none => exact .inr rfl
    | some other => simpa using allowed

theorem exclusive_fillIn (exclusive : intent.package = none ∨ intent.selector = none)
    (template : Intent) (allow : FillInFlags) :
    (intent.fillIn template allow).2.package = none ∨
      (intent.fillIn template allow).2.selector = none := by
  simp only [fillIn]
  grind [Option.isNone_iff_eq_none]

end Exclusive

theorem isSound_fillIn {template : Intent} (sound : intent.IsSound) (given : template.IsSound)
    (allow : FillInFlags) : (intent.fillIn template allow).2.IsSound := by
  refine .of ?_ ?_ ?_ ?_
  · intro data found
    simp only [fillIn] at found
    split at found
    · exact given.data data found
    · exact sound.data data found
  · exact sound.extras.fillMissing template.extras
  · exact exclusive_fillIn sound.exclusive template allow
  · intro other found
    rcases intent.selector_fillIn template allow with same | same
    · exact given.selector other (same ▸ found)
    · exact sound.selector other (same ▸ found)

theorem isSound_apply {after : Intent} {change : Change} (sound : intent.IsSound)
    (intents : ∀ other ∈ change.intents, other.IsSound) (uris : ∀ uri ∈ change.uris, uri.IsRead)
    (applied : intent.apply change = .ok after) : after.IsSound := by
  have data := sound.data
  have extras := sound.extras
  have exclusive := sound.exclusive
  have selector := sound.selector
  cases change with
  | action _ | identifier _ | addCategory _ | removeCategory _ | component _ | className _ _
    | flags _ | addFlags _ | removeFlags _ | clip _ | bounds _ =>
      cases applied
      exact .of data extras exclusive selector
  | data uri | dataAndType uri _ =>
      cases applied
      exact .of (fun data found => uris data (Option.mem_toList.2 found)) extras exclusive selector
  | normalizedData uri | normalizedDataAndType uri _ =>
      cases applied
      refine .of ?_ extras exclusive selector
      rintro _ ⟨⟩
      exact (uris uri (List.mem_singleton_self uri)).normalizeScheme
  | type _ | normalizedType _ =>
      cases applied
      exact .of (by rintro _ ⟨⟩) extras exclusive selector
  | package name =>
      have exclusive := exclusive_setPackage applied
      simp only [apply, setPackage] at applied
      split at applied
      · cases applied
      · cases applied
        exact .of data extras exclusive selector
  | selector other =>
      have exclusive := exclusive_setSelector applied
      simp only [apply, setSelector] at applied
      split at applied
      · cases applied
      · cases applied
        exact .of data extras exclusive fun given found => intents given (Option.mem_toList.2 found)
  | putExtra key value =>
      cases applied
      exact .of data (extras.insert key value) exclusive selector
  | removeExtra key =>
      cases applied
      exact .of data (extras.erase key) exclusive selector
  | fillIn template allow =>
      cases applied
      exact isSound_fillIn sound (intents template (List.mem_singleton_self template)) allow
  | cloneFilter =>
      cases applied
      exact .of data List.nodup_nil exclusive selector
  | matchingView =>
      cases applied
      cases found : intent.selector with
      | none => simpa [Intent.matchingView, found] using sound
      | some other => simpa [Intent.matchingView, found] using selector other found

theorem IsBuilt.isSound (built : intent.IsBuilt) : intent.IsSound := by
  induction built with
  | empty => exact .of (by rintro _ ⟨⟩) List.nodup_nil (.inl rfl) (by rintro _ ⟨⟩)
  | change _ _ _ uris applied sound others => exact isSound_apply sound others uris applied

theorem IsBuilt.addCategories (built : intent.IsBuilt) (names : List String) :
    IsBuilt { intent with categories := names.foldl .insert intent.categories } := by
  induction names generalizing intent with
  | nil =>
      cases intent
      exact built
  | cons name names ih => exact ih (built.changed (.addCategory name) rfl rfl rfl)

theorem IsBuilt.putExtras (built : intent.IsBuilt) (entries : List (String × Value)) :
    IsBuilt { intent with
      extras := entries.foldl (fun bundle entry => bundle.insert entry.1 entry.2)
        intent.extras } := by
  induction entries generalizing intent with
  | nil =>
      cases intent
      exact built
  | cons entry entries ih => exact ih (built.changed (.putExtra entry.1 entry.2) rfl rfl rfl)

/-- An intent is built from its fields, the package or the selector last. -/
theorem IsSound.isBuilt (sound : intent.IsSound) : intent.IsBuilt := by
  induction sound with
  | @of intent data distinct exclusive _ selectorBuilt =>
      have action := IsBuilt.empty.changed (.action intent.action) rfl rfl rfl
      have data := IsBuilt.change (.dataAndType intent.data intent.mimeType) action
        (by simp [Change.intents]) (fun uri member => data uri (Option.mem_toList.1 member)) rfl
      have identifier := data.changed (.identifier intent.identifier) rfl rfl rfl
      have categories := identifier.addCategories intent.categories.names
      have extras := categories.putExtras intent.extras.entries
      have flags := extras.changed (.flags intent.flags) rfl rfl rfl
      have clip := flags.changed (.clip intent.clip) rfl rfl rfl
      have bounds := clip.changed (.bounds intent.bounds) rfl rfl rfl
      have bare : IsBuilt { intent with package := none, selector := none } := by
        have component := bounds.changed (.component intent.component) rfl rfl rfl
        have sameCategories := intent.categories.foldl_insert_names
        have sameExtras : Bundle.ofList intent.extras.entries = intent.extras := by
          rw [Bundle.ofList_of_nodup distinct]
          cases intent.extras
          rfl
        rw [← sameCategories, ← sameExtras]
        exact component
      rcases exclusive with noPackage | noSelector
      · refine .change (.selector intent.selector) bare ?_ (by simp [Change.uris]) ?_
        · exact fun other member => selectorBuilt other (Option.mem_toList.1 member)
        · cases intent
          simp only at noPackage
          simp [apply, setSelector, noPackage]
      · refine bare.changed (.package intent.package) rfl rfl ?_
        cases intent
        simp only at noSelector
        simp [apply, setPackage, noSelector]

theorem isBuilt_iff_isSound : intent.IsBuilt ↔ intent.IsSound :=
  ⟨IsBuilt.isSound, IsSound.isBuilt⟩

end Intent

end IntentRouting
