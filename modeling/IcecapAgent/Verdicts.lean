import IcecapAgent.MessageProcessor

/- What the controller is told about a command.

   1. `command_verdict` — exactly the commands that pass the checks of their handler
      are answered, each by one event with its operation id. The others are logged
      and dropped (`command_unanswered`).
   2. `truthful_iff` — when the answer is true. Two things spoil it. Strings go to
      the game NUL-terminated, so code or a name with a NUL inside is cut off on
      the way, while the answer speaks of the whole. And reading a variable has one
      answer only: an empty name and an exception of `GetText` are reported as a
      variable that was read and is empty (`truthful_fails`). -/
namespace Icecap.Core

section
variable (game : GameFunctions) (eventId : Bytes) (command : IncomingMessage) (p : Processing)

/-- **Every answerable command is answered**, once and under its operation id, and
no other command is; the events already in the outbox stay. -/
theorem command_verdict :
    (Answerable command → ∃ event, event.operationId = command.operationId ∧
      (processCommand game eventId command p).outbox = p.outbox ++ [event]) ∧
    (¬ Answerable command → (processCommand game eventId command p).outbox = p.outbox) :=
  ⟨processCommand_answerable, fun h => by rw [processCommand_unanswerable h]⟩

/-- A command of a type the agent does not know gets no answer. -/
theorem command_unanswered :
    ¬ ∀ game eventId command p, ∃ event, event.operationId = command.operationId ∧
      (processCommand game eventId command p).outbox = p.outbox ++ [event] := by
  intro h
  obtain ⟨event, -, hout⟩ := h obligingGame [] ⟨[], [], .other 99, none, none, none⟩ ⟨[], []⟩
  simp [processCommand] at hout

/-! ## True answers -/

/-- The executor rejects its input, or the game call throws or reports failure. -/
def ExecutionFails : Prop :=
  match command.type with
  | .luaExecute => ∀ payload, command.luaExecutePayload = some payload →
      payload.executableCode = [] ∨ game.dostring (cStr payload.executableCode) (literal "source") ≠ some 0
  | .luaReadVariable => ∀ payload, command.luaReadVariablePayload = some payload →
      payload.variableName = [] ∨ game.getText (cStr payload.variableName) = none
  | .clickToMove => ∀ payload position, command.clickToMovePayload = some payload →
      payload.position = some position →
      game.clickToMove payload.playerBaseAddress.toUInt32 payload.action guidBuf (clickPos position)
        payload.precision ≠ some true
  | .other _ => False

/-- The event appended for the command does not report a failure as a success, and
reports Lua code as executed, or a variable as read, only when the game function was
called once and saw the whole string. -/
def Truthful : Prop :=
  ∀ event calls, (processCommand game eventId command p).outbox = p.outbox ++ [event] →
    (processCommand game eventId command p).calls = p.calls ++ calls →
    (ExecutionFails game command → event.type = .operationFailed) ∧
    (command.type = .luaExecute → event.type = .operationSucceeded →
      ∃ payload, command.luaExecutePayload = some payload ∧
        calls = [.dostring payload.executableCode (literal "source")]) ∧
    (event.type = .luaVariableRead →
      ∃ payload, command.luaReadVariablePayload = some payload ∧ calls = [.getText payload.variableName])

/-- No NUL hides a part of the code from a `Dostring` that succeeds; a variable name
is not empty, has no NUL, and `GetText` does not throw on it. -/
def Plain : Prop :=
  match command.type with
  | .luaExecute => ∀ payload, command.luaExecutePayload = some payload →
      0 ∉ payload.executableCode ∨ game.dostring (cStr payload.executableCode) (literal "source") ≠ some 0
  | .luaReadVariable => ∀ payload, command.luaReadVariablePayload = some payload →
      payload.variableName ≠ [] ∧ 0 ∉ payload.variableName ∧ game.getText (cStr payload.variableName) ≠ none
  | .clickToMove => True
  | .other _ => True

end

section
variable {game : GameFunctions} {eventId : Bytes} {command : IncomingMessage} {p : Processing}

theorem truthful_of_result {event : OutgoingMessage} {calls : List GameCall}
    (h : processCommand game eventId command p = ⟨p.outbox ++ [event], p.calls ++ calls⟩) :
    Truthful game eventId command p ↔
      (ExecutionFails game command → event.type = .operationFailed) ∧
      (command.type = .luaExecute → event.type = .operationSucceeded →
        ∃ payload, command.luaExecutePayload = some payload ∧
          calls = [.dostring payload.executableCode (literal "source")]) ∧
      (event.type = .luaVariableRead →
        ∃ payload, command.luaReadVariablePayload = some payload ∧ calls = [.getText payload.variableName]) := by
  refine ⟨?_, ?_⟩
  · intro ht
    exact ht event calls (by rw [h]) (by rw [h])
  · intro ht event' calls' he hc
    rw [h] at he hc
    obtain rfl : event = event' := by simpa using he
    obtain rfl : calls = calls' := by simpa using hc
    exact ht

theorem cStr_source : cStr (literal "source") = literal "source" := by decide

theorem truthful_luaExecute {payload : LuaExecutePayload} (ht : command.type = .luaExecute)
    (hp : command.luaExecutePayload = some payload) :
    Truthful game eventId command p ↔
      0 ∉ payload.executableCode ∨ game.dostring (cStr payload.executableCode) (literal "source") ≠ some 0 := by
  rw [truthful_of_result (processCommand_luaExecute ht hp)]
  have hfails : ExecutionFails game command ↔ payload.executableCode = [] ∨
      game.dostring (cStr payload.executableCode) (literal "source") ≠ some 0 := by
    simp [ExecutionFails, ht, hp]
  cases hr : (executeLuaCode game payload.executableCode (literal "source")).1 with
  | false =>
    -- the failure is reported, and there is nothing more to ask
    have hfail : ¬ (payload.executableCode ≠ [] ∧
        game.dostring (cStr payload.executableCode) (cStr (literal "source")) = some 0) := by
      rw [← executeLuaCode_success, hr]
      simp
    rw [cStr_source] at hfail
    refine ⟨?_, ?_⟩
    · intro _
      by_cases hcode : payload.executableCode = []
      · exact .inl (by simp [hcode])
      · exact .inr fun hzero => hfail ⟨hcode, hzero⟩
    · intro _
      simp
  | true =>
    obtain ⟨hcode, hzero⟩ := executeLuaCode_success.mp hr
    rw [cStr_source] at hzero
    rw [executeLuaCode_calls hcode, hfails, cStr_source]
    simp [ht, hp, hcode, hzero, cStr_eq_iff]

theorem truthful_luaReadVariable {payload : LuaReadVariablePayload} (ht : command.type = .luaReadVariable)
    (hp : command.luaReadVariablePayload = some payload) :
    Truthful game eventId command p ↔
      payload.variableName ≠ [] ∧ 0 ∉ payload.variableName ∧ game.getText (cStr payload.variableName) ≠ none := by
  rw [truthful_of_result (processCommand_luaReadVariable ht hp)]
  have hfails : ExecutionFails game command ↔
      payload.variableName = [] ∨ game.getText (cStr payload.variableName) = none := by
    simp [ExecutionFails, ht, hp]
  rw [hfails]
  by_cases hname : payload.variableName = []
  · simp [hname]
  · rw [readLuaVariable_calls hname]
    simp only [hname, false_or, reduceCtorEq, imp_false, ht, hp, Option.some.injEq, exists_eq_left',
      List.cons.injEq, GameCall.getText.injEq, and_true, cStr_eq_iff, false_imp_iff, true_and, ne_eq,
      not_false_eq_true, forall_const]
    exact and_comm

theorem truthful_clickToMove {payload : ClickToMovePayload} {position : Position}
    (ht : command.type = .clickToMove) (hp : command.clickToMovePayload = some payload)
    (haddress : payload.playerBaseAddress.toUInt32 ≠ 0) (hposition : payload.position = some position) :
    Truthful game eventId command p := by
  rw [truthful_of_result (processCommand_clickToMove ht hp haddress hposition)]
  refine ⟨fun hfails => ?_, fun hlua => ?_, fun hread => ?_⟩
  · simp only [ExecutionFails, ht] at hfails
    have hfalse : ¬ (executeClickToMove game payload.playerBaseAddress.toUInt32 position payload.action
        payload.precision).1 = true := by
      rw [executeClickToMove_success]
      exact fun h => hfails payload position hp hposition h.2
    rw [if_neg hfalse]
  · simp [ht] at hlua
  · dsimp only at hread
    split at hread <;> simp at hread

/-- **When answers are true**: for every command that reaches an executor and every
behaviour of the game functions, exactly when the command is plain. -/
theorem truthful_iff (game : GameFunctions) (eventId : Bytes) (command : IncomingMessage) (p : Processing)
    (h : Answerable command) : Truthful game eventId command p ↔ Plain game command := by
  unfold Answerable at h
  simp only [Plain]
  cases ht : command.type with
  | luaExecute =>
    simp only [ht, Option.isSome_iff_exists] at h
    obtain ⟨payload, hp⟩ := h
    rw [truthful_luaExecute ht hp]
    simp [hp]
  | luaReadVariable =>
    simp only [ht, Option.isSome_iff_exists] at h
    obtain ⟨payload, hp⟩ := h
    rw [truthful_luaReadVariable ht hp]
    simp [hp]
  | clickToMove =>
    simp only [ht, Option.isSome_iff_exists] at h
    obtain ⟨payload, hp, haddress, position, hposition⟩ := h
    exact iff_of_true (truthful_clickToMove ht hp haddress hposition) trivial
  | other value => simp [ht] at h

end

theorem truthful_iff_return :
    Truthful obligingGame [] ⟨[], [], .luaExecute, some ⟨[65]⟩, none, none⟩ ⟨[], []⟩ :=
  (truthful_iff obligingGame [] ⟨[], [], .luaExecute, some ⟨[65]⟩, none, none⟩ ⟨[], []⟩
    (by simp [Answerable])).mpr (by simp [Plain])

/-- An empty variable name is rejected by the executor and reported as read. -/
theorem truthful_fails :
    ¬ ∀ game eventId command p, Answerable command → Truthful game eventId command p := by
  intro h
  have ht := h obligingGame [] ⟨[], [], .luaReadVariable, none, some ⟨[]⟩, none⟩ ⟨[], []⟩ (by simp [Answerable])
  have hfailed := (ht ⟨[], [], .luaVariableRead, some []⟩ [] rfl rfl).1 (by simp [ExecutionFails])
  simp at hfailed

end Icecap.Core
