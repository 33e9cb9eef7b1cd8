import IntentRouting.Proofs.Intent.Building
import IntentRouting.Proofs.Intent.Effects
import IntentRouting.Proofs.Intent.Itinerary
import IntentRouting.Proofs.Intent.Link
import Mathlib.Logic.Relation

/-!
# Package and selector at any depth

An intent has a package or a selector or neither, but never both. Changes see to it in different ways:
the one that sets a package or a selector is refused, filling in skips what does not fit, and a link
drops a selector beside a package. Intents are nested in others, so an intent is safe only if whatever
it holds is (`Intent.IsExclusive`). A change adds nothing to what an intent holds but what the change is
given (`Intent.hasPart_apply`), and a link holds no intent but its selector.

So no intent that is made of changes and links holds one with both (`Intent.IsMade.exclusive_throughout`).
-/

namespace IntentRouting

/-- A value holds an intent that it is, and a bundle those that are held under its names. -/
inductive Value.Holds : Value → Intent → Prop
  | intent (inner : Intent) : Value.Holds (.intent inner) inner
  | bundle {bundle : Bundle} {entry : String × Value} {inner : Intent}
      (member : entry ∈ bundle.entries) (holds : entry.2.Holds inner) :
      Value.Holds (.bundle bundle) inner

namespace Bundle

variable {bundle other : Bundle} {inner : Intent} {key : String} {value : Value}
  {entry : String × Value} {entries : List (String × Value)}

def Holds (bundle : Bundle) (inner : Intent) : Prop :=
  ∃ entry ∈ bundle.entries, entry.2.Holds inner

theorem mem_insertEntry (member : entry ∈ insertEntry key value entries) :
    entry = (key, value) ∨ entry ∈ entries := by
  induction entries with
  | nil => exact .inl (List.mem_singleton.1 member)
  | cons first entries ih =>
      rw [insertEntry] at member
      split at member
      · exact (List.mem_cons.1 member).imp_right (List.mem_cons_of_mem first)
      · rcases List.mem_cons.1 member with rfl | later
        · exact .inr (List.mem_cons_self ..)
        · exact (ih later).imp_right (List.mem_cons_of_mem first)

theorem Holds.of_insert (holds : (bundle.insert key value).Holds inner) :
    bundle.Holds inner ∨ value.Holds inner := by
  rcases holds with ⟨entry, member, holds⟩
  rcases mem_insertEntry member with rfl | before
  · exact .inr holds
  · exact .inl ⟨entry, before, holds⟩

theorem Holds.of_erase (holds : (bundle.erase key).Holds inner) : bundle.Holds inner := by
  rcases holds with ⟨entry, member, holds⟩
  exact ⟨entry, (List.mem_filter.1 member).1, holds⟩

theorem Holds.of_fillMissing (holds : (bundle.fillMissing other).Holds inner) :
    bundle.Holds inner ∨ other.Holds inner := by
  rcases other with ⟨entries⟩
  rw [fillMissing] at holds
  induction entries generalizing bundle with
  | nil => exact .inl holds
  | cons first entries ih =>
      rw [List.foldl_cons] at holds
      rcases ih holds with before | ⟨entry, member, holds⟩
      · split at before
        · exact .inl before
        · rcases before.of_insert with before | put
          · exact .inl before
          · exact .inr ⟨first, List.mem_cons_self .., put⟩
      · exact .inr ⟨entry, List.mem_cons_of_mem first member, holds⟩

end Bundle

namespace Intent

variable {intent after inner : Intent} {change : Change} {flags : LinkFlags}

section Parts

/-- An intent is a part of another one as its selector, in an item of its clip or in an extra. -/
inductive HasPart : Intent → Intent → Prop
  | selector {outer inner : Intent} (given : inner ∈ outer.selector) : outer.HasPart inner
  | item {outer inner : Intent} {item : ClipItem} (member : item ∈ outer.items)
      (given : inner ∈ item.intent) : outer.HasPart inner
  | extra {outer inner : Intent} (holds : outer.extras.Holds inner) : outer.HasPart inner

/-- Whether an intent is another one or is nested in it, at any depth. -/
def Holds : Intent → Intent → Prop := Relation.ReflTransGen HasPart

/-- No intent that this one holds has both a package and a selector. -/
def IsExclusive (intent : Intent) : Prop :=
  ∀ inner, intent.Holds inner → inner.package = none ∨ inner.selector = none

theorem isExclusive_iff : intent.IsExclusive ↔
    (intent.package = none ∨ intent.selector = none) ∧
      ∀ inner, intent.HasPart inner → inner.IsExclusive := by
  constructor
  · intro exclusive
    refine ⟨exclusive intent .refl, ?_⟩
    exact fun part isPart inner holds => exclusive inner (.head isPart holds)
  · rintro ⟨own, parts⟩ inner holds
    rcases Relation.ReflTransGen.cases_head_iff.1 holds with rfl | ⟨part, isPart, holds⟩
    · exact own
    · exact parts part isPart inner holds

theorem IsExclusive.of_holds (exclusive : intent.IsExclusive) (holds : intent.Holds inner) :
    inner.IsExclusive :=
  fun innermost further => exclusive innermost (holds.trans further)

/-- What is nested in an intent whose extras alone were changed. -/
theorem HasPart.before_or_held (part : after.HasPart inner) (intent : Intent)
    (selector : after.selector = intent.selector) (clip : after.clip = intent.clip) :
    intent.HasPart inner ∨ after.extras.Holds inner := by
  cases part with
  | selector given => exact .inl (.selector (selector ▸ given))
  | item member given => exact .inl (.item (by rwa [items, ← clip]) given)
  | extra holds => exact .inr holds

theorem HasPart.congr (part : after.HasPart inner) (selector : after.selector = intent.selector)
    (clip : after.clip = intent.clip) (extras : after.extras = intent.extras) :
    intent.HasPart inner := by
  rcases part.before_or_held intent selector clip with before | holds
  · exact before
  · exact .extra (extras ▸ holds)

theorem IsExclusive.congr (exclusive : intent.IsExclusive) (package : after.package = intent.package)
    (selector : after.selector = intent.selector) (clip : after.clip = intent.clip)
    (extras : after.extras = intent.extras) : after.IsExclusive := by
  rw [isExclusive_iff] at exclusive ⊢
  rw [package, selector]
  exact ⟨exclusive.1, fun inner part => exclusive.2 inner (part.congr selector clip extras)⟩

theorem IsExclusive.with_data (exclusive : intent.IsExclusive) (data : Option Uri) :
    IsExclusive { intent with data } := by
  apply exclusive.congr <;> rfl

end Parts

section Changes

/-- The intents that a change is given, by themselves, in a value or in a clip. -/
inductive Change.Gives : Change → Intent → Prop
  | selector (other : Intent) : Change.Gives (.selector (some other)) other
  | template (template : Intent) (allow : FillInFlags) : Change.Gives (.fillIn template allow) template
  | extra {key : String} {value : Value} {inner : Intent} (holds : value.Holds inner) :
      Change.Gives (.putExtra key value) inner
  | item {clip : Clip} {item : ClipItem} {inner : Intent} (member : item ∈ clip.items)
      (given : inner ∈ item.intent) : Change.Gives (.clip (some clip)) inner

theorem HasPart.of_fillIn {template : Intent} {allow : FillInFlags}
    (part : (intent.fillIn template allow).2.HasPart inner) :
    intent.HasPart inner ∨ template.HasPart inner := by
  cases part with
  | selector given =>
      rcases intent.selector_fillIn template allow with same | same
      · exact .inr (.selector (same ▸ given))
      · exact .inl (.selector (same ▸ given))
  | item member given =>
      simp only [fillIn, items] at member
      split at member
      · exact .inr (.item member given)
      · exact .inl (.item member given)
  | extra holds => exact holds.of_fillMissing.imp .extra .extra

/-- What is nested in an intent after a change was held by it before, or by what the change is given. -/
theorem hasPart_apply (applied : intent.apply change = .ok after) (part : after.HasPart inner) :
    intent.Holds inner ∨ ∃ given, change.Gives given ∧ given.Holds inner := by
  cases change with
  | action _ | data _ | normalizedData _ | type _ | normalizedType _ | dataAndType _ _
    | normalizedDataAndType _ _ | identifier _ | addCategory _ | removeCategory _ | component _
    | className _ _ | flags _ | addFlags _ | removeFlags _ | bounds _ =>
      -- neither the selector nor the clip nor the extras are touched
      cases applied
      exact .inl (.single (part.congr rfl rfl rfl))
  | package name =>
      simp only [apply, setPackage] at applied
      split at applied
      · cases applied
      · cases applied
        exact .inl (.single (part.congr rfl rfl rfl))
  | selector other =>
      simp only [apply, setSelector] at applied
      split at applied
      · cases applied
      cases applied
      cases part with
      | selector given =>
          obtain rfl : other = some inner := given
          exact .inr ⟨inner, .selector inner, .refl⟩
      | item member given => exact .inl (.single (.item member given))
      | extra holds => exact .inl (.single (.extra holds))
  | putExtra key value =>
      cases applied
      rcases part.before_or_held intent rfl rfl with before | holds
      · exact .inl (.single before)
      rcases holds.of_insert with before | put
      · exact .inl (.single (.extra before))
      · exact .inr ⟨inner, .extra put, .refl⟩
  | removeExtra key =>
      cases applied
      rcases part.before_or_held intent rfl rfl with before | holds
      · exact .inl (.single before)
      · exact .inl (.single (.extra holds.of_erase))
  | clip clip =>
      cases applied
      cases part with
      | selector given => exact .inl (.single (.selector given))
      | item member given =>
          cases clip with
          | none => cases member
          | some clip => exact .inr ⟨inner, .item member given, .refl⟩
      | extra holds => exact .inl (.single (.extra holds))
  | fillIn template allow =>
      cases applied
      rcases part.of_fillIn with before | taken
      · exact .inl (.single before)
      · exact .inr ⟨template, .template template allow, .single taken⟩
  | cloneFilter =>
      cases applied
      cases part with
      | selector given => exact .inl (.single (.selector given))
      | item member _ => cases member
      | extra holds =>
          rcases holds with ⟨_, member, _⟩
          cases member
  | matchingView =>
      cases applied
      cases selected : intent.selector with
      | none =>
          rw [matchingView, selected] at part
          exact .inl (.single part)
      | some other =>
          rw [matchingView, selected] at part
          exact .inl (.head (.selector selected) (.single part))

theorem IsExclusive.apply (exclusive : intent.IsExclusive)
    (given : ∀ other, change.Gives other → other.IsExclusive)
    (applied : intent.apply change = .ok after) : after.IsExclusive := by
  rw [isExclusive_iff]
  constructor
  · have own := exclusive intent .refl
    cases change with
    | package name => exact exclusive_setPackage applied
    | selector other => exact exclusive_setSelector applied
    | fillIn template allow =>
        cases applied
        exact exclusive_fillIn own template allow
    | matchingView =>
        cases applied
        cases selected : intent.selector with
        | none =>
            rw [matchingView, selected]
            exact own
        | some other =>
            rw [matchingView, selected]
            exact exclusive other (.single (.selector selected))
    | _ =>
        -- neither the package nor the selector is touched
        cases applied
        exact own
  · intro inner part
    rcases hasPart_apply applied part with before | ⟨other, isGiven, holds⟩
    · exact exclusive.of_holds before
    · exact (given other isGiven).of_holds holds

/-- The intent after a change, or as it is if the change is refused. -/
def attempt (intent : Intent) (change : Change) : Intent :=
  match intent.apply change with
  | .ok after => after
  | .error _ => intent

theorem IsExclusive.attempt (exclusive : intent.IsExclusive)
    (given : ∀ other, change.Gives other → other.IsExclusive) :
    (intent.attempt change).IsExclusive := by
  rw [Intent.attempt]
  split
  · rename_i after applied
    exact exclusive.apply given applied
  · exact exclusive

/-- Only a package beside a selector and a selector beside a package are refused. -/
theorem apply_refused_iff : (∃ conflict, intent.apply change = .error conflict) ↔
    (∃ name, change = .package (some name) ∧ intent.selector ≠ none) ∨
      ∃ other, change = .selector (some other) ∧ intent.package ≠ none := by
  cases change with
  | package name =>
      cases name with
      | none => simp [apply, setPackage]
      | some name => cases selected : intent.selector <;> simp [apply, setPackage, selected]
  | selector other =>
      cases other with
      | none => simp [apply, setSelector]
      | some other => cases named : intent.package <;> simp [apply, setSelector, named]
  | _ => simp [apply]

end Changes

section Links

/-- Whether no other intent is nested in an intent. -/
def IsPlain (intent : Intent) : Prop := ∀ inner, ¬ intent.HasPart inner

theorem IsPlain.isExclusive (plain : intent.IsPlain) : intent.IsExclusive := by
  rw [isExclusive_iff]
  refine ⟨.inr ?_, fun inner part => absurd part (plain inner)⟩
  cases selected : intent.selector with
  | none => rfl
  | some other => exact absurd (.selector selected) (plain other)

/-- The values that links write are of simple types. -/
theorem not_holds_of_readTagged? {tag : Char} {text : String} {value : Value}
    (read : readTagged? tag text = some (some value)) (inner : Intent) : ¬ value.Holds inner := by
  intro holds
  rw [readTagged?.eq_def] at read
  dsimp only at read
  cases holds with
  | intent => grind [Option.map_eq_some_iff]
  | bundle => grind [Option.map_eq_some_iff]

theorem IsPlain.changed {change : Intent → Intent} (plain : intent.IsPlain)
    (keeps : Parsed.Keeps change) : (change intent).IsPlain := by
  intro inner part
  rcases part.before_or_held intent (keeps.selector intent) (keeps.clip intent) with before | holds
  · exact plain inner before
  rcases keeps.extras intent with same | ⟨tag, text, key, value, read, put⟩
  · exact plain inner (.extra (same ▸ holds))
  · rw [put] at holds
    rcases holds.of_insert with before | holds
    · exact plain inner (.extra before)
    · exact not_holds_of_readTagged? read inner holds

theorem IsPlain.congr (plain : intent.IsPlain) (selector : after.selector = intent.selector)
    (clip : after.clip = intent.clip) (extras : after.extras = intent.extras) : after.IsPlain :=
  fun inner part => plain inner (part.congr selector clip extras)

theorem isPlain_empty : empty.IsPlain := by
  intro inner part
  cases part with
  | selector given => cases given
  | item member _ => cases member
  | extra holds =>
      rcases holds with ⟨_, member, _⟩
      cases member

theorem isPlain_ofAction (action : String) : (ofAction action).IsPlain :=
  isPlain_empty.congr rfl rfl rfl

theorem IsPlain.restricted (plain : intent.IsPlain) (flags : LinkFlags) :
    (restricted flags intent).IsPlain := by
  rw [Intent.restricted]
  split
  · exact plain
  · exact plain.congr rfl rfl rfl

/-- Whether nothing is nested in the intent, nor in the selector, that entries describe. -/
structure Parsed.IsPlain (parsed : Parsed) : Prop where
  intent : parsed.intent.IsPlain
  selector : ∀ selector ∈ parsed.selector, selector.IsPlain

namespace Parsed

variable {parsed after : Parsed} {entries : List Char} {base : Intent}

theorem IsPlain.update {change : Intent → Intent} (plain : parsed.IsPlain) (keeps : Keeps change) :
    (parsed.update change).IsPlain := by
  rcases parsed with ⟨intent, _ | selector, scheme⟩
  · exact ⟨plain.intent.changed keeps, plain.selector⟩
  · refine ⟨plain.intent, ?_⟩
    rintro _ ⟨⟩
    exact (plain.selector selector rfl).changed keeps

theorem IsPlain.applyScheme {value : String} (plain : parsed.IsPlain)
    (applied : parsed.applyScheme value = .ok after) : after.IsPlain := by
  rw [Parsed.applyScheme] at applied
  split at applied
  · cases applied
    exact ⟨plain.intent, plain.selector⟩
  · rename_i selector selected
    cases read : Uri.parse (value ++ ":") with
    | error cause => simp [read, Except.map] at applied
    | ok data =>
        simp only [read, Except.map, Except.ok.injEq] at applied
        subst applied
        refine ⟨plain.intent, ?_⟩
        rintro _ ⟨⟩
        exact (plain.selector selector selected).congr rfl rfl rfl

theorem isPlain_of_readFragment (plain : base.IsPlain)
    (read : readFragment entries base = .ok parsed) : parsed.IsPlain := by
  refine holds_applyAll (motive := IsPlain) ?selects ?reads ⟨plain, by rintro _ ⟨⟩⟩ read
  case selects =>
    intro _ plain
    refine ⟨plain.intent, ?_⟩
    rintro _ ⟨⟩
    exact isPlain_empty
  case reads =>
    intro _ _ _ _ plain applied
    exact holds_applyText (motive := IsPlain) (fun _ keeps => plain.update keeps)
      (fun _ _ applied => plain.applyScheme applied) applied

/-- Finishing drops the selector beside a package, and otherwise it is all that is nested. -/
theorem IsPlain.isExclusive_finish (plain : parsed.IsPlain) (flags : LinkFlags) :
    (parsed.finish flags).IsExclusive := by
  have own := plain.intent.restricted flags
  simp only [finish]
  split
  · exact own.isExclusive
  · rename_i selector selected
    split
    · exact own.isExclusive
    · rename_i noPackage
      rw [isExclusive_iff]
      refine ⟨.inl (Option.not_isSome_iff_eq_none.1 noPackage), ?_⟩
      intro inner part
      cases part with
      | selector given =>
          cases given
          exact ((plain.selector selector selected).restricted flags).isExclusive
      | item member given => exact absurd (.item member given) (own inner)
      | extra holds => exact absurd (.extra holds) (own inner)

end Parsed

variable {text : String}

theorem isExclusive_of_ofPlainLink (read : ofPlainLink text flags = .ok intent) :
    intent.IsExclusive := by
  cases cut : cutFragment? text.toList with
  | none =>
      rcases (ofPlainLink_eq_ok_iff_of_none cut).1 read with ⟨data, _, rfl⟩
      exact (isPlain_ofAction Action.view).isExclusive.with_data data
  | some parts =>
      rcases (ofPlainLink_eq_ok_iff cut).1 read with ⟨parsed, data, fragment, _, rfl⟩
      have plain := Parsed.isPlain_of_readFragment (isPlain_ofAction Action.view) fragment
      exact (plain.isExclusive_finish flags).with_data _

theorem isExclusive_of_readAppEntries {entries : Option (List Char)} {data : Option Uri}
    (read : readAppEntries entries data flags = .ok intent) : intent.IsExclusive := by
  cases entries with
  | none =>
      cases read
      exact (isPlain_ofAction _).isExclusive
  | some entries =>
      simp only [readAppEntries] at read
      generalize based : ofAction (if data.isSome then Action.view else Action.main) = base at read
      have plainBase : base.IsPlain := based ▸ isPlain_ofAction _
      cases fragment : readFragment entries base with
      | error cause => simp [fragment, Except.map] at read
      | ok parsed =>
          simp only [fragment, Except.map, Except.ok.injEq] at read
          subst read
          exact (Parsed.isPlain_of_readFragment plainBase fragment).isExclusive_finish flags

theorem IsExclusive.withPackage (exclusive : intent.IsExclusive) (package : String) :
    (intent.withPackage package).IsExclusive := by
  rw [Intent.withPackage]
  split
  · rename_i bare
    rw [Bool.and_eq_true, Option.isNone_iff_eq_none, Option.isNone_iff_eq_none] at bare
    rw [isExclusive_iff] at exclusive ⊢
    exact ⟨.inr bare.2, fun inner part => exclusive.2 inner (part.congr rfl rfl rfl)⟩
  · exact exclusive

theorem isExclusive_of_ofLink (read : ofLink text flags = .ok intent) : intent.IsExclusive := by
  rw [ofLink] at read
  split at read
  · cases read
  split at read
  · rcases (ofAppLink_eq_ok_iff rfl).1 read with
      ⟨_, package, data, described, _, _, _, _, entriesRead, rfl⟩
    have exclusive := isExclusive_of_readAppEntries entriesRead
    exact (exclusive.with_data data).withPackage package
  · exact isExclusive_of_ofPlainLink read

end Links

section Made

/-- Intents that changes make from the empty one and from links. What a change is given is made as well,
and so is what is taken out of such an intent. -/
inductive IsMade : Intent → Prop
  | empty : IsMade .empty
  | link {text : String} {flags : LinkFlags} {intent : Intent}
      (read : ofLink text flags = .ok intent) : intent.IsMade
  | change {intent : Intent} (change : Change) (made : intent.IsMade)
      (given : ∀ other, change.Gives other → other.IsMade) : (intent.attempt change).IsMade
  | extras {intent : Intent} (extras : Bundle) (made : intent.IsMade)
      (given : ∀ other, extras.Holds other → other.IsMade) : IsMade { intent with extras }
  | part {outer inner : Intent} (made : outer.IsMade) (part : outer.HasPart inner) : inner.IsMade

theorem IsMade.isExclusive (made : intent.IsMade) : intent.IsExclusive := by
  induction made with
  | empty => exact isPlain_empty.isExclusive
  | link read => exact isExclusive_of_ofLink read
  | change change _ _ exclusive given => exact exclusive.attempt given
  | @extras intent extras _ _ exclusive given =>
      rw [isExclusive_iff] at exclusive ⊢
      refine ⟨exclusive.1, ?_⟩
      intro inner part
      rcases part.before_or_held intent rfl rfl with before | holds
      · exact exclusive.2 inner before
      · exact given inner holds
  | part _ part exclusive => exact exclusive.of_holds (.single part)

/-- However an intent is made, neither the intent nor any that is nested in it has both a package and a
selector. A change of it is refused exactly if it would set one of them beside the other one, and then
leaves the intent as it is. -/
theorem IsMade.exclusive_throughout (made : intent.IsMade) :
    (∀ inner, intent.Holds inner → inner.package = none ∨ inner.selector = none) ∧
      ∀ change,
        ((∃ conflict, intent.apply change = .error conflict) ↔
          (∃ name, change = .package (some name) ∧ intent.selector ≠ none) ∨
            ∃ other, change = .selector (some other) ∧ intent.package ≠ none) ∧
        ∀ conflict, intent.apply change = .error conflict → intent.attempt change = intent := by
  refine ⟨made.isExclusive, fun change => ⟨apply_refused_iff, ?_⟩⟩
  intro conflict refused
  rw [attempt, refused]

end Made

end Intent

namespace Sharing

open Intent

/-- A link to whatever the mail program sends: its selector has a package. -/
def mailLink : String := "#Intent;SEL;action=android.intent.action.SEND;package=com.mail;end"

/-- The link is read with its selector, and no package is set beside it. -/
theorem mailLink_takes_no_package : ∃ intent selector,
    ofLink mailLink .empty = .ok intent ∧ intent.selector = some selector ∧
      selector.package = some "com.mail" ∧ intent.IsMade ∧
        intent.package = none ∧ selector.selector = none ∧
          intent.attempt (.package (some "com.notes")) = intent := by
  have reads : ((ofLink mailLink .empty).toOption.bind (·.selector)).map (·.package) =
      some (some "com.mail") := by
    decide +kernel
  cases read : ofLink mailLink .empty with
  | error cause =>
      rw [read] at reads
      cases reads
  | ok intent =>
      rw [read, Except.toOption, Option.bind_some] at reads
      obtain ⟨selector, selected, named⟩ := Option.map_eq_some_iff.1 reads
      have made : intent.IsMade := .link read
      obtain ⟨exclusive, refusals⟩ := made.exclusive_throughout
      have noPackage : intent.package = none :=
        (exclusive intent .refl).resolve_right (by simp [selected])
      have noSelector : selector.selector = none :=
        (exclusive selector (.single (.selector selected))).resolve_left (by simp [named])
      obtain ⟨conflict, refused⟩ := (refusals (.package (some "com.notes"))).1.2
        (.inl ⟨"com.notes", rfl, by simp [selected]⟩)
      exact ⟨intent, selector, rfl, selected, named, made, noPackage, noSelector,
        (refusals _).2 conflict refused⟩

end Sharing

end IntentRouting
