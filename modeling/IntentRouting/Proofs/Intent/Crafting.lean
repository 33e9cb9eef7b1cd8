import IntentRouting.Proofs.Intent.Genuine

/-!
# Everything that programs make

Intents come from changes, links and documents, bundles from puts and removals, and values and clips from
their parts; and what is nested in any of them can be taken out and used again. So the five kinds of
things are made together (`Intent.IsCrafted`). Whatever is made like this is genuine
(`Intent.IsCrafted.isGenuine`).
-/

namespace IntentRouting

mutual

/-- Intents that a program can make. -/
inductive Intent.IsCrafted : Intent → Prop
  | empty : Intent.IsCrafted .empty
  | link {text : String} {flags : LinkFlags} {intent : Intent}
      (read : Intent.ofLink text flags = .ok intent) : intent.IsCrafted
  | document {json : Json} {intent : Intent} (read : Intent.ofJson? json = some intent) :
      intent.IsCrafted
  | change {before after : Intent} (change : Intent.Change) (crafted : before.IsCrafted)
      (uris : ∀ uri ∈ change.uris, uri.IsRead)
      (intents : ∀ other ∈ change.intents, other.IsCrafted)
      (values : ∀ value ∈ change.values, value.IsCrafted)
      (clips : ∀ clip ∈ change.clips, clip.IsCrafted)
      (applied : before.apply change = .ok after) : after.IsCrafted
  /-- The extras of an intent can be changed in place. -/
  | extras {intent : Intent} (extras : Bundle) (crafted : intent.IsCrafted)
      (given : extras.IsCrafted) : Intent.IsCrafted { intent with extras }
  | selector {outer intent : Intent} (crafted : outer.IsCrafted)
      (given : intent ∈ outer.selector) : intent.IsCrafted
  | ofValue {intent : Intent} (crafted : Value.IsCrafted (.intent intent)) : intent.IsCrafted
  | ofItem {item : ClipItem} {intent : Intent} (crafted : item.IsCrafted)
      (given : intent ∈ item.intent) : intent.IsCrafted

inductive Bundle.IsCrafted : Bundle → Prop
  | empty : Bundle.IsCrafted .empty
  | document {json : Json} {bundle : Bundle} (read : Bundle.ofJson? json = some bundle) :
      bundle.IsCrafted
  | insert {bundle : Bundle} {value : Value} (key : String) (crafted : bundle.IsCrafted)
      (given : value.IsCrafted) : (bundle.insert key value).IsCrafted
  | erase {bundle : Bundle} (key : String) (crafted : bundle.IsCrafted) :
      (bundle.erase key).IsCrafted
  | fillMissing {bundle other : Bundle} (crafted : bundle.IsCrafted) (given : other.IsCrafted) :
      (bundle.fillMissing other).IsCrafted
  | ofIntent {intent : Intent} (crafted : intent.IsCrafted) : intent.extras.IsCrafted
  | ofValue {bundle : Bundle} (crafted : Value.IsCrafted (.bundle bundle)) : bundle.IsCrafted

inductive Value.IsCrafted : Value → Prop
  | plain {value : Value} (plain : value.isPlain = true) : value.IsCrafted
  | uri {uri : Uri} (read : uri.IsRead) : Value.IsCrafted (.uri uri)
  | intent {intent : Intent} (crafted : intent.IsCrafted) : Value.IsCrafted (.intent intent)
  | bundle {bundle : Bundle} (crafted : bundle.IsCrafted) : Value.IsCrafted (.bundle bundle)
  | ofBundle {bundle : Bundle} {entry : String × Value} (crafted : bundle.IsCrafted)
      (member : entry ∈ bundle.entries) : entry.2.IsCrafted

inductive Clip.IsCrafted : Clip → Prop
  | of {clip : Clip} (items : ∀ item ∈ clip.items, item.IsCrafted) : clip.IsCrafted
  | ofIntent {intent : Intent} {clip : Clip} (crafted : intent.IsCrafted)
      (given : clip ∈ intent.clip) : clip.IsCrafted

inductive ClipItem.IsCrafted : ClipItem → Prop
  | of {item : ClipItem} (uri : ∀ uri ∈ item.uri, uri.IsRead)
      (intent : ∀ intent ∈ item.intent, intent.IsCrafted) : item.IsCrafted
  | ofClip {clip : Clip} {item : ClipItem} (crafted : clip.IsCrafted)
      (member : item ∈ clip.items) : item.IsCrafted

end

/-- A change that is given no parts needs nothing else. -/
theorem Intent.IsCrafted.changed {before after : Intent} (crafted : before.IsCrafted)
    (change : Intent.Change) (uris : change.uris = []) (intents : change.intents = [])
    (values : change.values = []) (clips : change.clips = [])
    (applied : before.apply change = .ok after) : after.IsCrafted :=
  .change change crafted (by simp [uris]) (by simp [intents]) (by simp [values]) (by simp [clips])
    applied

mutual

/-- Whatever a program makes is genuine, and so is whatever it takes out again. -/
theorem Intent.IsCrafted.isGenuine {intent : Intent} (crafted : intent.IsCrafted) :
    intent.IsGenuine :=
  match crafted with
  | .empty => Intent.isGenuine_empty
  | .link read => Intent.isGenuine_of_ofLink read
  | .document read => Intent.isGenuine_of_decode? read
  | .change _ before uris intents values clips applied =>
      before.isGenuine.apply uris (fun other given => (intents other given).isGenuine)
        (fun value given => (values value given).isGenuine)
        (fun clip given => (clips clip given).isGenuine) applied
  | .extras _ before given =>
      .of before.isGenuine.data before.isGenuine.selector given.isGenuine before.isGenuine.clip
  | .selector outer given => outer.isGenuine.selector _ given
  | .ofValue value => value.isGenuine.of_intent
  | .ofItem item given => item.isGenuine.intent _ given

theorem Bundle.IsCrafted.isGenuine {bundle : Bundle} (crafted : bundle.IsCrafted) :
    bundle.IsGenuine :=
  match crafted with
  | .empty => Bundle.isGenuine_empty
  | .document read => Bundle.isGenuine_of_decode? read
  | .insert key before given => before.isGenuine.insert given.isGenuine key
  | .erase key before => before.isGenuine.erase key
  | .fillMissing before given => before.isGenuine.fillMissing given.isGenuine
  | .ofIntent intent => intent.isGenuine.extras
  | .ofValue value => value.isGenuine.of_bundle

theorem Value.IsCrafted.isGenuine {value : Value} (crafted : value.IsCrafted) :
    value.IsGenuine :=
  match crafted with
  | .plain isPlain => .plain isPlain
  | .uri read => .uri read
  | .intent content => .intent content.isGenuine
  | .bundle content => .bundle content.isGenuine
  | .ofBundle bundle member => bundle.isGenuine.values _ member

theorem Clip.IsCrafted.isGenuine {clip : Clip} (crafted : clip.IsCrafted) : clip.IsGenuine :=
  match crafted with
  | .of items => .of fun item member => (items item member).isGenuine
  | .ofIntent intent given => intent.isGenuine.clip clip given

theorem ClipItem.IsCrafted.isGenuine {item : ClipItem} (crafted : item.IsCrafted) :
    item.IsGenuine :=
  match crafted with
  | .of uri intent => .of uri fun other given => (intent other given).isGenuine
  | .ofClip clip member => clip.isGenuine.items item member

end

end IntentRouting
