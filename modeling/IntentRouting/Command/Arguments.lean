import IntentRouting.Permission.Identity

/-!
# Arguments

The words of the command line are the name of a command, options with or without a value, and what
the command is about. Options may stand anywhere; a value follows its option as the next word or
after an equals sign, and after two hyphens no word is an option.
-/

namespace IntentRouting.Command

/-- What the command line asks for. -/
inductive Task where
  | resolve (manifests : List String) (link : String) (mimeType : Option String)
      (all anyCategory : Bool)
  | inspect (link : String)
  | mime (types : List String)
  | grants (uid : Option Nat) (store : Option String)
deriving DecidableEq, Repr

/-- What the command line says. -/
structure Arguments where
  configuration : Option String
  task : Task
deriving DecidableEq, Repr

/-- Why the command line cannot be understood. -/
inductive UsageFault where
  | noCommand
  | unknownCommand (name : String)
  | unknownOption (name : String)
  | noValue (option : String)
  | needlessValue (option : String)
  | repeated (option : String)
  | missing (name : String)
  | tooMany (word : String)
  | badNumber (option value : String)
deriving DecidableEq, Repr

def UsageFault.message : UsageFault → String
  | noCommand => "no command is given"
  | unknownCommand name => s!"unknown command '{name}'"
  | unknownOption name => s!"unknown option '{name}'"
  | noValue option => s!"option '{option}' needs a value"
  | needlessValue option => s!"option '{option}' takes no value"
  | repeated option => s!"option '{option}' is given more than once"
  | missing name => s!"{name} is missing"
  | tooMany word => s!"unexpected argument '{word}'"
  | badNumber option value => s!"option '{option}' needs a number, not '{value}'"

namespace Arguments

/-- An option by its long name. -/
structure OptionForm where
  name : String
  letter : Option Char
  takesValue : Bool
  /-- The commands that know the option; without any, all do. -/
  commands : List String
deriving DecidableEq, Repr

def optionForms : List OptionForm :=
  [⟨"config", some 'c', true, []⟩, ⟨"verbose", some 'v', false, []⟩,
    ⟨"manifest", some 'm', true, ["resolve"]⟩, ⟨"all", none, false, ["resolve"]⟩,
    ⟨"type", none, true, ["resolve"]⟩, ⟨"any-category", none, false, ["resolve"]⟩,
    ⟨"uid", none, true, ["grants"]⟩, ⟨"store", none, true, ["grants"]⟩]

/-- The words of the command line taken apart: options by their long names, and all other words. -/
structure Words where
  options : List (String × Option String)
  plain : List String
deriving DecidableEq, Repr

/-- The option that a word names, and the value that stands in the word itself. -/
def optionOf? (word : List Char) : Option (Option OptionForm × Option String) :=
  match word with
  | '-' :: '-' :: rest =>
      let (name, value) := Text.cut '=' rest
      some (optionForms.find? fun form => form.name = String.ofList name, value.map String.ofList)
  | ['-', letter] => some (optionForms.find? fun form => form.letter = some letter, none)
  | _ => none

def readWords : List String → Except UsageFault Words
  | [] => .ok ⟨[], []⟩
  | word :: rest =>
      if word = "--" then .ok ⟨[], rest⟩
      else
        match optionOf? word.toList with
        | none => (readWords rest).map fun words => { words with plain := word :: words.plain }
        | some (none, _) => .error (.unknownOption word)
        | some (some form, value) =>
            if !form.takesValue then
              if value.isSome then .error (.needlessValue form.name)
              else
                (readWords rest).map fun words =>
                  { words with options := (form.name, none) :: words.options }
            else
              match value, rest with
              | some value, rest =>
                  (readWords rest).map fun words =>
                    { words with options := (form.name, some value) :: words.options }
              | none, [] => .error (.noValue form.name)
              | none, value :: rest =>
                  (readWords rest).map fun words =>
                    { words with options := (form.name, some value) :: words.options }

namespace Words

def values (words : Words) (name : String) : List String :=
  words.options.filterMap fun option => if option.1 = name then option.2 else none

def has (words : Words) (name : String) : Bool := words.options.any (·.1 = name)

/-- The value of an option that may be given once. -/
def value? (words : Words) (name : String) : Except UsageFault (Option String) :=
  match words.values name with
  | [] => .ok none
  | [value] => .ok (some value)
  | _ => .error (.repeated name)

def single (name : String) : List String → Except UsageFault String
  | [] => .error (.missing name)
  | [word] => .ok word
  | _ :: word :: _ => .error (.tooMany word)

/-- The first option that a command does not know. -/
def stray? (words : Words) (command : String) : Option String :=
  (words.options.find? fun option =>
    optionForms.any fun form =>
      form.name = option.1 && !form.commands.isEmpty && !form.commands.contains command).map (·.1)

end Words

def readUid : Option String → Except UsageFault (Option Nat)
  | none => .ok none
  | some text =>
      match Integer.parse? idBounds text with
      | some n => .ok (some n.toNat)
      | none => .error (.badNumber "uid" text)

def readTask (words : Words) (command : String) (rest : List String) : Except UsageFault Task := do
  if command = "resolve" then
    let link ← Words.single "the intent" rest
    let manifests := words.values "manifest"
    if manifests.isEmpty then throw (.missing "a manifest")
    return .resolve manifests link (← words.value? "type") (words.has "all") (words.has "any-category")
  else if command = "inspect" then return .inspect (← Words.single "the intent" rest)
  else if command = "mime" then
    if rest.isEmpty then throw (.missing "a type")
    return .mime rest
  else if command = "grants" then
    match rest with
    | [] => return .grants (← readUid (← words.value? "uid")) (← words.value? "store")
    | word :: _ => throw (.tooMany word)
  else throw (.unknownCommand command)

def parse (words : List String) : Except UsageFault Arguments := do
  let words ← readWords words
  match words.plain with
  | [] => throw .noCommand
  | command :: rest =>
      let task ← readTask words command rest
      match words.stray? command with
      | some option => throw (.unknownOption option)
      | none => return ⟨← words.value? "config", task⟩

end Arguments

end IntentRouting.Command
