import IntentRouting.FlagSet

/-!
# Modes of access

What a grant allows: reading, writing, both or nothing. The flags of a grant are these two and two
more, that the grantee may keep the access and that it extends to everything beneath the URI; they
have the same bits as the flags of an intent that ask for them.
-/

namespace IntentRouting

def ModeFlag.vocabulary : FlagVocabulary := ⟨[("READ", 0x1), ("WRITE", 0x2)]⟩

abbrev Modes := FlagSet ModeFlag.vocabulary

namespace Modes

def read : Modes := ⟨0x1⟩

def write : Modes := ⟨0x2⟩

def readWrite : Modes := read ∪ write

def describe (modes : Modes) : String :=
  match modes.contains read, modes.contains write with
  | true, true => "read/write"
  | true, false => "read"
  | false, true => "write"
  | false, false => "no"

end Modes

/-- What can be asked for when access is granted. -/
def GrantFlag.vocabulary : FlagVocabulary :=
  ⟨[("READ", 0x1), ("WRITE", 0x2), ("PERSISTABLE", 0x40), ("PREFIX", 0x80)]⟩

/-- A set of what is asked for when access is granted. -/
abbrev GrantFlags := FlagSet GrantFlag.vocabulary

namespace GrantFlags

/-- The grantee may keep the access. -/
def persistable : GrantFlags := ⟨0x40⟩

/-- The access extends to everything beneath the URI. -/
def beneath : GrantFlags := ⟨0x80⟩

/-- The part of the flags of an intent that is about access. -/
def ofIntentFlags (flags : IntentFlags) : GrantFlags := FlagSet.ofBits flags.grants.bits

/-- The flags that ask for some modes and nothing else. -/
def ofModes (modes : Modes) : GrantFlags := FlagSet.ofBits modes.bits

def modes (flags : GrantFlags) : Modes := FlagSet.ofBits flags.bits

/-- Whether the access extends to everything beneath the URI. -/
def isPrefix (flags : GrantFlags) : Bool := flags.contains beneath

def isPersistable (flags : GrantFlags) : Bool := flags.contains persistable

end GrantFlags

end IntentRouting
