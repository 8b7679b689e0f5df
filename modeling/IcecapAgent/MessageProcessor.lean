import IcecapAgent.CommandExecutor

/- The processor routes a command to its handler by the command's type. A handler
   checks the payload, runs the executor and enqueues one event; where a check
   fails it logs and returns.

   The state it works on is the outbox and, as a history, the calls of game
   functions. The id of an event is drawn at random when the event is created: it
   is the parameter `eventId`, and a command creates at most one event. The
   context is never null here: the constructor refuses a null one.

   The end of this module says what a command leaves behind: one event with its
   operation id when it passes the checks of its handler (`Answerable`), and
   nothing at all otherwise. -/
namespace Icecap.Core

/-- What the processor works on: the outbox, and the game calls made so far. -/
structure Processing where
  outbox : List OutgoingMessage
  calls : List GameCall
  deriving DecidableEq, Repr

/-! ## `EventPublisher` -/

def createLuaVariableReadEvent (originalCommand : IncomingMessage) (result eventId : Bytes) : OutgoingMessage :=
  ⟨eventId, originalCommand.operationId, .luaVariableRead, some result⟩

/-- The message is not put into the event. -/
def createErrorEvent (originalCommand : IncomingMessage) (_errorMessage eventId : Bytes) : OutgoingMessage :=
  ⟨eventId, originalCommand.operationId, .operationFailed, none⟩

def createSuccessEvent (originalCommand : IncomingMessage) (eventId : Bytes) : OutgoingMessage :=
  ⟨eventId, originalCommand.operationId, .operationSucceeded, none⟩

/-! ## `MessageProcessor` -/

section
variable (game : GameFunctions) (eventId : Bytes)

/-- `MessageProcessor::enqueueEvent`. -/
def enqueueEvent (p : Processing) (event : OutgoingMessage) : Processing :=
  { p with outbox := p.outbox ++ [event] }

/-- How the handlers of Lua code and of clicks end: with the event of success or of
failure. -/
def enqueueVerdict (p : Processing) (command : IncomingMessage) (success : Bool) (errorMessage : Bytes) :
    Processing :=
  if success then enqueueEvent p (createSuccessEvent command eventId)
  else enqueueEvent p (createErrorEvent command errorMessage eventId)

/-- `MessageProcessor::handleLuaExecuteCommand`. -/
def handleLuaExecuteCommand (command : IncomingMessage) (p : Processing) : Processing :=
  match command.luaExecutePayload with
  | none => p
  | some payload =>
    let (success, calls) := executeLuaCode game payload.executableCode (literal "source")
    let p := { p with calls := p.calls ++ calls }
    enqueueVerdict eventId p command success (literal "Lua execution failed")

/-- `MessageProcessor::handleLuaReadVariableCommand`. -/
def handleLuaReadVariableCommand (command : IncomingMessage) (p : Processing) : Processing :=
  match command.luaReadVariablePayload with
  | none => p
  | some payload =>
    let (result, calls) := readLuaVariable game payload.variableName
    let p := { p with calls := p.calls ++ calls }
    enqueueEvent p (createLuaVariableReadEvent command result eventId)

/-- `MessageProcessor::handleClickToMoveCommand`. -/
def handleClickToMoveCommand (command : IncomingMessage) (p : Processing) : Processing :=
  match command.clickToMovePayload with
  | none => p
  | some payload =>
    -- the address is narrowed to a `uintptr_t` before it is checked
    let playerBaseAddress := payload.playerBaseAddress.toUInt32
    if playerBaseAddress == 0 then p
    else
      match payload.position with
      | none => p
      | some position =>
        let (success, calls) :=
          executeClickToMove game playerBaseAddress position payload.action payload.precision
        let p := { p with calls := p.calls ++ calls }
        enqueueVerdict eventId p command success (literal "ClickToMove execution failed")

/-- `MessageProcessor::processCommand`. -/
def processCommand (command : IncomingMessage) (p : Processing) : Processing :=
  match command.type with
  | .luaExecute => handleLuaExecuteCommand game eventId command p
  | .luaReadVariable => handleLuaReadVariableCommand game eventId command p
  | .clickToMove => handleClickToMoveCommand game eventId command p
  | .other _ => p

/-- `MessageProcessor::getNextOutgoingEvent`; `none` when it raises. -/
def getNextOutgoingEvent (p : Processing) : Option (OutgoingMessage × Processing) :=
  match p.outbox with
  | [] => none
  | event :: rest => some (event, { p with outbox := rest })

/-! ## What a command leaves behind -/

/-- The command passes the checks of its handler: its type is known, its payload is
there, and a click has a player address and a position. -/
def Answerable (command : IncomingMessage) : Prop :=
  match command.type with
  | .luaExecute => command.luaExecutePayload.isSome
  | .luaReadVariable => command.luaReadVariablePayload.isSome
  | .clickToMove =>
    ∃ payload, command.clickToMovePayload = some payload ∧ payload.playerBaseAddress.toUInt32 ≠ 0 ∧
      payload.position.isSome
  | .other _ => False

end

section
variable {game : GameFunctions} {eventId : Bytes} {command : IncomingMessage} {p : Processing}

theorem enqueueVerdict_eq (success : Bool) (errorMessage : Bytes) :
    enqueueVerdict eventId p command success errorMessage =
      { p with outbox := p.outbox ++
        [⟨eventId, command.operationId, if success then .operationSucceeded else .operationFailed, none⟩] } := by
  cases success <;> rfl

theorem processCommand_luaExecute {payload : LuaExecutePayload} (ht : command.type = .luaExecute)
    (hp : command.luaExecutePayload = some payload) :
    let r := executeLuaCode game payload.executableCode (literal "source")
    processCommand game eventId command p =
      ⟨p.outbox ++ [⟨eventId, command.operationId,
        if r.1 then .operationSucceeded else .operationFailed, none⟩], p.calls ++ r.2⟩ := by
  simp only [processCommand, ht, handleLuaExecuteCommand, hp, enqueueVerdict_eq]

theorem processCommand_luaReadVariable {payload : LuaReadVariablePayload} (ht : command.type = .luaReadVariable)
    (hp : command.luaReadVariablePayload = some payload) :
    let r := readLuaVariable game payload.variableName
    processCommand game eventId command p =
      ⟨p.outbox ++ [⟨eventId, command.operationId, .luaVariableRead, some r.1⟩], p.calls ++ r.2⟩ := by
  simp only [processCommand, ht, handleLuaReadVariableCommand, hp, enqueueEvent, createLuaVariableReadEvent]

theorem processCommand_clickToMove {payload : ClickToMovePayload} {position : Position}
    (ht : command.type = .clickToMove) (hp : command.clickToMovePayload = some payload)
    (haddress : payload.playerBaseAddress.toUInt32 ≠ 0) (hposition : payload.position = some position) :
    let r := executeClickToMove game payload.playerBaseAddress.toUInt32 position payload.action payload.precision
    processCommand game eventId command p =
      ⟨p.outbox ++ [⟨eventId, command.operationId,
        if r.1 then .operationSucceeded else .operationFailed, none⟩], p.calls ++ r.2⟩ := by
  simp only [processCommand, ht, handleClickToMoveCommand, hp, hposition, beq_iff_eq, haddress, if_false,
    enqueueVerdict_eq]

theorem processCommand_unanswerable (h : ¬ Answerable command) : processCommand game eventId command p = p := by
  unfold Answerable at h
  simp only [processCommand]
  cases ht : command.type with
  | luaExecute =>
    simp only [ht, Bool.not_eq_true, Option.isSome_eq_false_iff, Option.isNone_iff_eq_none] at h
    simp only [handleLuaExecuteCommand, h]
  | luaReadVariable =>
    simp only [ht, Bool.not_eq_true, Option.isSome_eq_false_iff, Option.isNone_iff_eq_none] at h
    simp only [handleLuaReadVariableCommand, h]
  | clickToMove =>
    simp only [ht] at h
    simp only [handleClickToMoveCommand]
    cases hp : command.clickToMovePayload with
    | none => rfl
    | some payload =>
      by_cases haddress : payload.playerBaseAddress.toUInt32 = 0
      · simp [haddress]
      · cases hposition : payload.position with
        | none => simp [hposition]
        | some position => exact absurd ⟨payload, hp, haddress, by simp [hposition]⟩ h
  | other value => rfl

theorem processCommand_answerable (h : Answerable command) :
    ∃ event, event.operationId = command.operationId ∧
      (processCommand game eventId command p).outbox = p.outbox ++ [event] := by
  unfold Answerable at h
  cases ht : command.type with
  | luaExecute =>
    simp only [ht, Option.isSome_iff_exists] at h
    obtain ⟨payload, hp⟩ := h
    exact ⟨_, rfl, by rw [processCommand_luaExecute ht hp]⟩
  | luaReadVariable =>
    simp only [ht, Option.isSome_iff_exists] at h
    obtain ⟨payload, hp⟩ := h
    exact ⟨_, rfl, by rw [processCommand_luaReadVariable ht hp]⟩
  | clickToMove =>
    simp only [ht, Option.isSome_iff_exists] at h
    obtain ⟨payload, hp, haddress, position, hposition⟩ := h
    exact ⟨_, rfl, by rw [processCommand_clickToMove ht hp haddress hposition]⟩
  | other value => simp [ht] at h

theorem getNextOutgoingEvent_some {event : OutgoingMessage} {p' : Processing}
    (h : getNextOutgoingEvent p = some (event, p')) :
    p.outbox = event :: p'.outbox ∧ p'.calls = p.calls := by
  unfold getNextOutgoingEvent at h
  split at h
  · simp at h
  · rename_i event' rest hout
    obtain ⟨rfl, rfl⟩ : event' = event ∧ { p with outbox := rest } = p' := by simpa using h
    exact ⟨hout, rfl⟩

/-- Whatever the command, the events already in the outbox stay, and at most one is
added, with the command's operation id. -/
theorem processCommand_outbox (game : GameFunctions) (eventId : Bytes) (command : IncomingMessage)
    (p : Processing) :
    ∃ events, (processCommand game eventId command p).outbox = p.outbox ++ events ∧
      (events.map (·.operationId)).Sublist [command.operationId] := by
  by_cases h : Answerable command
  · obtain ⟨event, hid, hout⟩ := processCommand_answerable (p := p) h
    exact ⟨[event], hout, by simp [hid]⟩
  · exact ⟨[], by rw [processCommand_unanswerable h, List.append_nil], by simp⟩

end

end Icecap.Core
