import IntentRouting.Permission.Authority

/-!
# Granting on dispatch

An intent that is delivered can carry access with it: its receiver is granted access to the content
that the intent reaches, which is its data, the URIs of its clip, and what the intents in its clip
reach. Only the flags of the intent itself say which access; extras, selectors and the flags of
nested intents do not count.
-/

namespace IntentRouting

mutual

/-- The URIs that an intent reaches, in order. -/
def Intent.reached : Intent → List Uri
  | ⟨_, data, _, _, _, _, _, _, _, _, clip, _⟩ => data.toList ++ Clip.optionReached clip

def Clip.optionReached : Option Clip → List Uri
  | none => []
  | some clip => clip.reached

def Clip.reached : Clip → List Uri
  | ⟨_, _, items⟩ => Clip.itemsReached items

def Clip.itemsReached : List ClipItem → List Uri
  | [] => []
  | item :: items => item.reached ++ Clip.itemsReached items

def ClipItem.reached : ClipItem → List Uri
  | ⟨_, uri, intent⟩ => uri.toList ++ Intent.optionReached intent

def Intent.optionReached : Option Intent → List Uri
  | none => []
  | some intent => intent.reached

end

/-- The content that an intent reaches, in order and without repetition. -/
def Intent.reachedContent (intent : Intent) : List Uri :=
  (intent.reached.filter Uri.isContent).eraseDups

namespace Authority

/-- Grants access to one URI after the other, up to the first that cannot be granted. -/
def grantEach (authority : Authority) (now : Timestamp) (grantor : Identity) (flags : GrantFlags)
    (grantee : Identity) : List Uri → Outcome (List Grant)
  | [] => ⟨.ok [], authority, []⟩
  | uri :: uris =>
      match authority.grant now grantor uri flags grantee with
      | ⟨.error error, authority, events⟩ => ⟨.error error, authority, events⟩
      | ⟨.ok grant, authority, events⟩ =>
          let rest := grantEach authority now grantor flags grantee uris
          ⟨rest.answer.map (grant :: ·), rest.authority, events ++ rest.events⟩

/-- Grants a receiver what an intent carries. -/
def dispatch (authority : Authority) (now : Timestamp) (caller : Identity) (intent : Intent)
    (receiver : Identity) : Outcome (List Grant) :=
  let flags := GrantFlags.ofIntentFlags intent.flags
  if flags.modes.isEmpty then ⟨.ok [], authority, []⟩
  else authority.grantEach now caller flags receiver intent.reachedContent

end Authority

end IntentRouting
