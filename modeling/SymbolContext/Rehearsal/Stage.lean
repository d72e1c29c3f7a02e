import SymbolContext.Query.Definitions
import SymbolContext.Query.References
import SymbolContext.Rehearsal.Link
import SymbolContext.Rehearsal.StandIn
import SymbolContext.Server.Session

/-!
# A session on stage

A session with a scripted server over files in memory.
-/

namespace SymbolContext.Rehearsal

/-- The servers of a rehearsal name no capabilities that could be wrong. -/
instance : Server.Capabilities := ⟨Server.Capabilities.unread⟩

/-- **The link to the server, the files, and the remarks made.** -/
structure Stage where
  link : Link
  files : Files := []
  remarks : List Diagnostic := []

namespace Stage

/-- Something that happens on the link. -/
def onLink {α : Type} (f : StateM Link α) : StateM Stage α := fun s =>
  let (a, link) := f s.link
  (a, { s with link })

/-- The channel to the server. -/
def channel : Rpc.Channel (StateM Stage) where
  request := fun method params limit => onLink (Link.channel.request method params limit)
  notify := fun method params => onLink (Link.channel.notify method params)

/-- What a session needs. -/
def means (limit : Duration) : Server.Session.Means (StateM Stage) where
  channel := channel
  limit := limit
  readText := fun path => return (← get).files.readText path

/-- A line for the log. -/
def log (line : LogLine) : StateM Stage Unit := onLink (modify fun l => l.say [line])

/-- A remark. -/
def remark (d : Diagnostic) : StateM Stage Unit :=
  modify fun s => { s with remarks := s.remarks ++ [d] }

/-- The surroundings of a query in a session. -/
def surroundings (limit : Duration) : Surroundings (StateT Server.Session (StateM Stage)) where
  toBackend := Server.Session.backend (means limit)
  readText := fun path => (means limit).readText path
  note := fun d => remark d

end Stage

end SymbolContext.Rehearsal
