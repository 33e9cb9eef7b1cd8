import IntentRouting.Command
import IntentRouting.Command.Arguments

/-!
# The program

Reads the files that a command needs, runs the command and prints its text. Everything that is
decided is decided by `Command`, `Command.Arguments` and `Configuration`.
-/

namespace IntentRouting.Program

/-- The number of processors, as far as the system lists them. -/
def processors : IO Nat := do
  let path := "/proc/cpuinfo"
  try
    let lines ← IO.FS.lines path
    return max 1 (lines.toList.countP fun line => line.startsWith "processor")
  catch _ => return 1

def readFile? (path : String) : IO Command.TextFile := do
  try
    return ⟨path, some (← IO.FS.readFile path)⟩
  catch
    | .noFileOrDirectory .. => return ⟨path, none⟩
    | error => throw error

/-- A base directory of the system: the one of a variable, else one beneath the home directory. -/
def baseDirectory (name beneath : String) : IO String := do
  match ← IO.getEnv name with
  | some path => if path.startsWith "/" then return path
  | none => pure ()
  return Configuration.joinPath ((← IO.getEnv "HOME").getD "/") beneath

/-- The configuration of a file, which is written with the defaults if it is not there. -/
def loadConfiguration (path : String) : IO (Except Error Configuration) := do
  match (← readFile? path).text with
  | some text => return Configuration.parse text
  | none =>
      match Text.cutLast? '/' path.toList with
      | some (directory, _) => IO.FS.createDirAll (String.ofList directory)
      | none => pure ()
      IO.FS.writeFile path (Configuration.default.text (← processors))
      return .ok .default

def run (configuration : Configuration) : Command.Task → IO (Command.Result String)
  | .resolve manifests link mimeType all anyCategory => do
      return Command.resolve {
        manifests := ← manifests.mapM readFile?
        link
        mimeType
        all
        defaultOnly := configuration.resolver.defaultOnly && !anyCategory }
  | .inspect link => return Command.inspect link
  | .mime types => return .ok (Command.normalizeTypes types)
  | .grants uid store => do
      let home ← baseDirectory "XDG_DATA_HOME" ".local/share"
      let path := store.getD (configuration.storePath home)
      return Command.listGrants (← readFile? path) uid

def describe (failure : Command.Failure) : String :=
  match failure.context with
  | none => failure.error.message
  | some context => context ++ "\n\nCaused by:\n    " ++ failure.error.message

/-- Runs the program; the result is its exit code. -/
def start (words : List String) : IO UInt32 := do
  match Command.Arguments.parse words with
  | .error fault =>
      IO.eprintln ("error: " ++ fault.message)
      return 2
  | .ok arguments =>
      let home ← baseDirectory "XDG_CONFIG_HOME" ".config"
      match ← loadConfiguration (arguments.configuration.getD (Configuration.file home)) with
      | .error error =>
          IO.eprintln ("Error: " ++ error.message)
          return 1
      | .ok configuration =>
          match ← run configuration arguments.task with
          | .ok text =>
              IO.print text
              return 0
          | .error failure =>
              IO.eprintln ("Error: " ++ describe failure)
              return 1

end IntentRouting.Program

def main (words : List String) : IO UInt32 := IntentRouting.Program.start words
