import Xsmp.Client.SaveQueue
import Xsmp.Launch.Command
import Xsmp.Message.FromClient
import Xsmp.Message.FromManager
import Xsmp.Property.Store
import Xsmp.Session.Operation

/-!
# Participants

A participant is what the manager knows about a connected client: its
identifier, its properties and the saves it was asked for. It turns calls of the
session into messages, answers by itself what the session need not know, and
reports the rest to the session.
-/

namespace Xsmp

structure Participant where
  key : ClientKey
  /-- The identifier it is registered under. -/
  clientId : Option String := none
  properties : PropertyStore := .empty
  saves : SaveQueue := .empty
  /-- How the client is shown to the user. -/
  label : String

/-- What a participant does about something. -/
structure Reaction where
  participant : Participant
  /-- The messages sent to the client. -/
  sent : List ManagerMessage := []
  /-- What is reported to the session. -/
  reported : Option ClientEvent := none

/-- Why a client was not restarted. -/
inductive RestartError where
  | noRestartCommand
  | refused (command : String) (cause : HostError)
  deriving DecidableEq

namespace RestartError

def message : RestartError → String
  | .noRestartCommand => "client has no restart command"
  | .refused command cause => "failed to spawn `" ++ command ++ "`: " ++ cause.message

end RestartError

namespace Participant

/-- The label of a client: its key, its program and its identifier. -/
def labelOf (key : ClientKey) (program clientId : Option String) : String :=
  "#" ++ toString key ++ " [" ++ program.getD "?" ++ " " ++ clientId.getD "?" ++ "]"

/-- A client that has just connected. -/
def new (key : ClientKey) : Participant where
  key
  label := labelOf key none none

variable (participant : Participant)

def relabel : Participant :=
  { participant with
    label := labelOf participant.key participant.properties.program? participant.clientId }

/-- The message that asks for a save. A client may talk to the user only when the session
ends. -/
def saveMessage : SaveType → ManagerMessage
  | .local => .saveYourself .local false .none false
  | .global => .saveYourself .global true .any false
  | .both => .saveYourself .both true .any false

/-- Ask for a save, now or when the client has done with the one before. -/
def requestSave (type : SaveType) : Reaction :=
  let (now, saves) := participant.saves.request type
  { participant := { participant with saves }, sent := now.toList.map saveMessage }

def refusal (reason : String) : ManagerMessage := .registrationRefused reason

/-- A call of the session. A restart is not for the client itself. -/
def called : ClientCall → Reaction
  | .registered clientId resumed =>
    let registered := relabel { participant with clientId := some clientId }
    let reply := ManagerMessage.registerClientReply clientId
    if resumed then { participant := registered, sent := [reply] }
    else
      let saving := registered.requestSave .local
      { saving with sent := reply :: saving.sent }
  | .restart => { participant }
  | .saveState => participant.requestSave .local
  | .saveYourself full => participant.requestSave (if full then .both else .global)
  | .saveYourselfPhase2 => { participant, sent := [.saveYourselfPhase2] }
  | .interact => { participant, sent := [.interact] }
  | .shutdownCancelled => { participant, sent := [.shutdownCancelled] }
  | .die => { participant, sent := [.die] }

def saveDone : Reaction :=
  let ((finished, now), saves) := participant.saves.complete
  let follow := now.toList.map saveMessage
  let participant := { participant with saves }
  if finished = some .local then
    { participant, sent := .saveComplete :: follow, reported := some .savedState }
  else { participant, sent := follow, reported := some .saveYourselfDone }

/-- Set properties in the order of the message. -/
def setProperties (properties : List Property) : Participant :=
  let changed :=
    { participant with properties := properties.foldl PropertyStore.set participant.properties }
  if properties.any (·.name == Property.programName) then changed.relabel else changed

def deleteProperties (names : List String) : Participant :=
  let changed :=
    { participant with properties := names.foldl PropertyStore.erase participant.properties }
  if names.contains Property.programName then changed.relabel else changed

def received : ClientMessage → Reaction
  | .registerClient _ => { participant }
  | .interactRequest _ => { participant, reported := some .requestInteraction }
  | .interactDone cancelShutdown =>
    { participant, reported := some (.interactionDone cancelShutdown) }
  | .saveYourselfRequest _ shutdown _ _ isGlobal =>
    match shutdown, isGlobal with
    | true, true => { participant, reported := some .requestLogout }
    | false, false => participant.requestSave .local
    | _, _ => { participant }
  | .saveYourselfPhase2Request =>
    if participant.saves.current = some .local then
      { participant, sent := [.saveYourselfPhase2] }
    else { participant, reported := some .requestPhase2 }
  | .saveYourselfDone _ => participant.saveDone
  | .closeConnection _ => { participant, reported := some .disconnected }
  | .setProperties properties => { participant := participant.setProperties properties }
  | .deleteProperties names => { participant := participant.deleteProperties names }
  | .getProperties => { participant, sent := [.propertiesReply participant.properties.toList] }

/-- The command that restarts the client, if the host starts it. -/
def restart (finder : ProgramFinder) (networkId : Option String) : Except RestartError Command :=
  match participant.properties.restartArguments? with
  | none => .error .noRestartCommand
  | some arguments =>
    let command : Command := { arguments, networkId }
    match command.start finder with
    | .ok () => .ok command
    | .error cause => .error (.refused (Text.quoteCommand arguments) cause)

end Participant

end Xsmp
