import IntentRouting.Intent.FillIn
import IntentRouting.Proofs.Intent.Effects
import IntentRouting.Proofs.Intent.Link
import IntentRouting.Proofs.Permission.Delivery

/-!
# What a link cannot hand out

Who follows a link delivers an intent that someone else wrote. A careful reader does not accept the
flags that hand out access to URIs: it reads what an accepting reader does, but without these flags
in the intent and in its selector (`ofLink_careful`). Completing such an intent from another one
adds their flags up, and takes its selector if any. So no such intent makes a dispatch grant
anything.
-/

namespace IntentRouting

namespace Intent

variable {intent template : Intent} {flags : LinkFlags} {text : String}

section Careful

/-- An intent without the flags that decide about access, which its selector loses as well. -/
def withoutGrants (intent : Intent) : Intent :=
  { intent.removeFlags IntentFlags.grantMask with
    selector := intent.selector.map (·.removeFlags IntentFlags.grantMask) }

theorem withoutGrants_of_plain (noFlags : intent.flags = .empty)
    (noSelector : intent.selector = none) :
    intent.withoutGrants = intent := by
  have removed : (.empty : IntentFlags) \ IntentFlags.grantMask = .empty := by decide
  cases intent
  simp only at noFlags noSelector
  simp only [withoutGrants, removeFlags, noFlags, noSelector, removed, Option.map_none]

theorem withoutGrants_withPackage (intent : Intent) (package : String) :
    (intent.withPackage package).withoutGrants = intent.withoutGrants.withPackage package := by
  have condition : (intent.withoutGrants.package.isNone && intent.withoutGrants.selector.isNone) =
      (intent.package.isNone && intent.selector.isNone) := by
    simp only [withoutGrants, removeFlags, Option.isNone_map]
  rw [withPackage, withPackage, condition]
  split
  · rfl
  · rfl

variable (careful : flags.contains LinkFlags.allowUnsafe = false)

include careful

theorem finish_careful {parsed : Parsed} (noSelector : parsed.intent.selector = none) :
    parsed.finish flags = (parsed.finish LinkFlags.allowUnsafe).withoutGrants := by
  have accepts : LinkFlags.allowUnsafe.contains LinkFlags.allowUnsafe = true := rfl
  have removes (intent : Intent) :
      restricted flags intent = intent.removeFlags IntentFlags.grantMask := by
    simp [restricted, careful]
  have keeps (intent : Intent) : restricted LinkFlags.allowUnsafe intent = intent := by
    simp [restricted, accepts]
  rcases parsed with ⟨intent, selector, scheme⟩
  have alone : intent.withoutGrants = intent.removeFlags IntentFlags.grantMask := by
    rw [withoutGrants, show intent.selector = none from noSelector, Option.map_none, ← noSelector]
    rfl
  cases selector with
  | none => simp only [Parsed.finish, removes, keeps, alone]
  | some selector =>
      have package : (intent.removeFlags IntentFlags.grantMask).package = intent.package := rfl
      simp only [Parsed.finish, removes, keeps, package]
      split
      · exact alone.symm
      · rfl

theorem readAppEntries_careful (entries : Option (List Char)) (data : Option Uri) :
    readAppEntries entries data flags =
      (readAppEntries entries data LinkFlags.allowUnsafe).map withoutGrants := by
  cases entries with
  | none => exact congrArg Except.ok (withoutGrants_of_plain rfl rfl).symm
  | some entries =>
      let base := ofAction (if data.isSome then Action.view else Action.main)
      show (readFragment entries base).map _ = ((readFragment entries base).map _).map withoutGrants
      cases fragment : readFragment entries base with
      | error cause => rfl
      | ok parsed =>
          have within := within_of_readFragment rfl rfl fragment
          exact congrArg Except.ok (finish_careful careful within.selector)

theorem ofAppLink_careful (text : String) :
    ofAppLink text flags = (ofAppLink text LinkFlags.allowUnsafe).map withoutGrants := by
  rw [ofAppLink_eq, ofAppLink_eq]
  cases Uri.parse (String.ofList (appParts text.toList).1) with
  | error cause => rfl
  | ok app =>
      dsimp only
      cases app.authority.filter (· != "") with
      | none => rfl
      | some package =>
          dsimp only
          cases readData? (segmentText? app.path.toList app.query) with
          | error cause => rfl
          | ok data =>
              dsimp only
              rw [readAppEntries_careful careful]
              cases readAppEntries (appParts text.toList).2 data LinkFlags.allowUnsafe with
              | error cause => rfl
              | ok described =>
                  exact congrArg Except.ok
                    (withoutGrants_withPackage { described with data } package).symm

theorem ofPlainLink_careful (text : String) :
    ofPlainLink text flags = (ofPlainLink text LinkFlags.allowUnsafe).map withoutGrants := by
  rw [ofPlainLink, ofPlainLink]
  cases cutFragment? text.toList with
  | none =>
      dsimp only
      cases Uri.parse text with
      | error cause => rfl
      | ok data => exact congrArg Except.ok (withoutGrants_of_plain rfl rfl).symm
  | some parts =>
      rcases parts with ⟨head, entries⟩
      dsimp only
      cases fragment : readFragment entries (ofAction Action.view) with
      | error cause => rfl
      | ok parsed =>
          have within := within_of_readFragment rfl rfl fragment
          have finished := finish_careful careful within.selector
          dsimp only
          cases readData? (dataText? head parsed.scheme) with
          | error cause => rfl
          | ok found =>
              rw [finished]
              cases found with
              | none => rfl
              | some data => rfl

/-- A careful reader reads what an accepting one does, less the flags that decide about access. -/
theorem ofLink_careful (text : String) :
    ofLink text flags = (ofLink text LinkFlags.allowUnsafe).map withoutGrants := by
  rw [ofLink, ofLink, ofAppLink_careful careful, ofPlainLink_careful careful]
  split
  · rfl
  · split
    · rfl
    · rfl

end Careful

section Linked

/-- Whether neither an intent nor its selector has a flag that decides about access. -/
structure HasNoGrants (intent : Intent) : Prop where
  flags : ∀ place ∈ IntentFlags.grantMask, place ∉ intent.flags
  selector : ∀ other ∈ intent.selector, ∀ place ∈ IntentFlags.grantMask, place ∉ other.flags

theorem notMem_flags_removeFlags {removed : IntentFlags} {place : Fin 32}
    (member : place ∈ removed) : place ∉ (intent.removeFlags removed).flags := by
  simp [removeFlags, member]

theorem hasNoGrants_withoutGrants (intent : Intent) : intent.withoutGrants.HasNoGrants := by
  refine ⟨fun _ inMask => notMem_flags_removeFlags inMask, ?_⟩
  intro other given
  rcases Option.map_eq_some_iff.1 given with ⟨selector, _, rfl⟩
  exact fun _ inMask => notMem_flags_removeFlags inMask

theorem hasNoGrants_of_ofLink {flags : LinkFlags}
    (careful : flags.contains LinkFlags.allowUnsafe = false)
    (read : ofLink text flags = .ok intent) : intent.HasNoGrants := by
  rw [ofLink_careful careful] at read
  cases accepted : ofLink text LinkFlags.allowUnsafe with
  | error cause =>
      rw [accepted] at read
      cases read
  | ok full =>
      rw [accepted] at read
      cases read
      exact hasNoGrants_withoutGrants full

theorem HasNoGrants.fillIn (noGrants : intent.HasNoGrants) (ofTemplate : template.HasNoGrants)
    (allow : FillInFlags) : (intent.fillIn template allow).2.HasNoGrants := by
  constructor
  · intro place inMask member
    rcases FlagSet.mem_union.1 member with own | taken
    · exact noGrants.flags place inMask own
    · exact ofTemplate.flags place inMask taken
  · intro other given
    rcases intent.selector_fillIn template allow with same | same
    · exact ofTemplate.selector other (same ▸ given)
    · exact noGrants.selector other (same ▸ given)

/-- Intents that careful readers read from links, and that are completed from other such intents. -/
inductive IsLinked : Intent → Prop
  | read {text : String} {flags : LinkFlags} {intent : Intent}
      (careful : flags.contains LinkFlags.allowUnsafe = false)
      (read : ofLink text flags = .ok intent) : intent.IsLinked
  | fillIn {intent template : Intent} (linked : intent.IsLinked) (ofTemplate : template.IsLinked)
      (allow : FillInFlags) : (intent.fillIn template allow).2.IsLinked

theorem IsLinked.hasNoGrants (linked : intent.IsLinked) : intent.HasNoGrants := by
  induction linked with
  | read careful read => exact hasNoGrants_of_ofLink careful read
  | fillIn _ _ allow noGrants ofTemplate => exact noGrants.fillIn ofTemplate allow

theorem HasNoGrants.requestsGrant_eq_false (noGrants : intent.HasNoGrants) :
    intent.flags.requestsGrant = false := by
  rw [← Bool.not_eq_true, IntentFlags.requestsGrant, FlagSet.intersects_iff]
  rintro ⟨place, asked, member⟩
  have inMask : place ∈ IntentFlags.grantMask := by
    simp only [IntentFlags.grantMask, FlagSet.mem_union]
    exact .inl (.inl (FlagSet.mem_union.1 asked))
  exact noGrants.flags place inMask member

/-- Neither an intent that comes from links nor its selector has a flag that decides about access,
and dispatching the intent grants nothing to anyone. -/
theorem IsLinked.hands_out_nothing (linked : intent.IsLinked) :
    intent.HasNoGrants ∧ ∀ (authority : Authority) now caller receiver,
      authority.dispatch now caller intent receiver = ⟨.ok [], authority, []⟩ := by
  refine ⟨linked.hasNoGrants, ?_⟩
  intro authority now caller receiver
  rw [Authority.dispatch, isEmpty_modes_ofIntentFlags, linked.hasNoGrants.requestsGrant_eq_false]
  rfl

end Linked

end Intent

namespace Notes

open Intent

/-- A link to the note that asks for all access to it, and for some of it in its selector. -/
def linkToNote : String := "content://notes/1#Intent;launchFlags=0xc3;SEL;launchFlags=3;end"

/-- Nothing is handed out when the owner of the note follows the link to it. -/
theorem linkToNote_hands_out_nothing :
    ∃ intent, ofLink linkToNote .empty = .ok intent ∧ intent.data = some note ∧
      intent.selector.isSome = true ∧ intent.IsLinked ∧ intent.HasNoGrants ∧
        let before := (start 512).register provider
        before.dispatch (moment 1) owner intent viewer = ⟨.ok [], before, []⟩ := by
  have careful : (.empty : LinkFlags).contains LinkFlags.allowUnsafe = false := by decide
  have reads : ((ofLink linkToNote .empty).toOption.map fun intent =>
      (intent.data, intent.selector.isSome)) = some (some note, true) := by
    decide +kernel
  cases read : ofLink linkToNote .empty with
  | error cause =>
      rw [read] at reads
      cases reads
  | ok intent =>
      rw [read, Except.toOption, Option.map_some, Option.some.injEq, Prod.mk.injEq] at reads
      have linked : intent.IsLinked := .read careful read
      rcases linked.hands_out_nothing with ⟨noGrants, nothing⟩
      exact ⟨intent, rfl, reads.1, reads.2, linked, noGrants, nothing _ (moment 1) owner viewer⟩

end Notes

end IntentRouting
