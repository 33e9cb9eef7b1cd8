import IntentRouting.Error

/-!
# Events

What changes in the registry and among the grants is announced as an event. Events are delivered to
the channels of a bus. A channel queues events for its handles, which share the queue, so an event is
received by one of them. A channel whose handles are all closed is noticed and dropped when the next
event is emitted.
-/

namespace IntentRouting

/-- The announcement of a change. -/
inductive Event where
  | packageInstalled (package : String) (handlers : Nat)
  | packageRemoved (package : String)
  | componentEnabledChanged (component : Component) (enabled : Bool)
  | granted (uri : Uri) (grantee : Nat) (modes : Modes)
  /-- Without a grantee, the modes were revoked from all. -/
  | revoked (uri : Uri) (grantee : Option Nat) (modes : Modes)
  | persisted (uri : Uri) (grantee : Nat) (modes : Modes)
  | released (uri : Uri) (grantee : Nat) (modes : Modes)
deriving DecidableEq

/-! ## The event bus -/

/-- The queue that some handles share. -/
structure EventBus.Channel (ε : Type) where
  queue : List ε
  openHandles : Nat
  /-- Whether the bus still delivers to the channel. -/
  subscribed : Bool

/-- Channels, and the handles that were ever given out: each is open on a channel or closed. -/
structure EventBus (ε : Type) where
  channels : List (EventBus.Channel ε)
  handles : List (Option Nat)

namespace EventBus

variable {ε : Type}

def empty : EventBus ε := ⟨[], []⟩

/-- A bus with one more channel, and a handle for it. -/
def subscribe (bus : EventBus ε) : Nat × EventBus ε :=
  (bus.handles.length,
    ⟨bus.channels ++ [⟨[], 1, true⟩], bus.handles ++ [some bus.channels.length]⟩)

/-- The channel on which a handle is open. -/
def channelOf? (bus : EventBus ε) (handle : Nat) : Option Nat := (bus.handles[handle]?).join

/-- A bus with another handle for the channel of an open handle. -/
def clone? (bus : EventBus ε) (handle : Nat) : Option (Nat × EventBus ε) :=
  (bus.channelOf? handle).map fun channel =>
    (bus.handles.length,
      ⟨bus.channels.modify channel fun c => { c with openHandles := c.openHandles + 1 },
        bus.handles ++ [some channel]⟩)

def close (bus : EventBus ε) (handle : Nat) : EventBus ε :=
  match bus.channelOf? handle with
  | none => bus
  | some channel =>
      ⟨bus.channels.modify channel fun c => { c with openHandles := c.openHandles - 1 },
        bus.handles.set handle none⟩

/-- Delivers an event to a channel, or drops the channel if nobody is left to receive. -/
def Channel.deliver (event : ε) (channel : Channel ε) : Channel ε :=
  if !channel.subscribed then channel
  else if channel.openHandles = 0 then { channel with subscribed := false }
  else { channel with queue := channel.queue ++ [event] }

/-- The number of channels that the bus delivers to. -/
def subscriberCount (bus : EventBus ε) : Nat := bus.channels.countP (·.subscribed)

/-- Delivers an event to all channels, and counts them. -/
def emit (bus : EventBus ε) (event : ε) : Nat × EventBus ε :=
  let bus := { bus with channels := bus.channels.map (Channel.deliver event) }
  (bus.subscriberCount, bus)

/-- Takes all events from the queue of a handle, if it is open. -/
def drain? (bus : EventBus ε) (handle : Nat) : Option (List ε) × EventBus ε :=
  match bus.channelOf? handle with
  | none => (none, bus)
  | some channel =>
      ((bus.channels[channel]?).map (·.queue),
        { bus with channels := bus.channels.modify channel fun c => { c with queue := [] } })

/-- Takes the first event from the queue of a handle. -/
def receive? (bus : EventBus ε) (handle : Nat) : Option ε × EventBus ε :=
  match bus.channelOf? handle with
  | none => (none, bus)
  | some channel =>
      (((bus.channels[channel]?).bind (·.queue.head?)),
        { bus with channels := bus.channels.modify channel fun c => { c with queue := c.queue.tail } })

end EventBus

end IntentRouting
