/-!
# Settings

What the configuration file sets: the prompt and its colouring, where history and the
event log go, aliases, variables exported to every session, and commands run at start.
A map or list the file leaves out, or sets to null, is absent rather than empty.

`builtin` is the configuration used when there is no file.
-/
namespace JobShell

structure Settings where
  prompt : String := ""
  color : String := ""
  historyFile : String := ""
  historyLimit : Int := 0
  eventLog : String := ""
  aliases : Option (List (String × String)) := none
  environment : Option (List (String × String)) := none
  startup : Option (List String) := none
  deriving Repr, Inhabited

namespace Settings

/-- The configuration used when there is no configuration file. -/
def builtin : Settings :=
  { prompt := "ushell:\\w\\$ ", color := "auto", historyFile := "history", historyLimit := 1000,
    aliases := some [("la", "myls -a"), ("ll", "myls -l")], environment := some [],
    startup := some [] }

def isAbsolutePath (s : String) : Bool := s.startsWith "/"

/-- Where history is kept: an absolute name as it is; a relative one would be relative
to the configuration directory, which an in-memory configuration does not have. -/
def historyPath (s : Settings) : String :=
  if isAbsolutePath s.historyFile then s.historyFile else ""

/-- Whether events are logged. -/
def logsEvents (s : Settings) : Bool := !s.eventLog.isEmpty

end Settings

end JobShell
