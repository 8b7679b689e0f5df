import Mathlib.Logic.Function.Basic
import IcecapAgent.MessageProcessor
import IcecapAgent.TcpServer

/- The agent as a whole: three threads over two queues.

   The server thread pushes commands to the inbox (`serverStep`). The render thread
   is the game's: at every `HookedEndScene` it takes at most one command from the
   inbox and processes it, which may append an event to the outbox. The outgoing
   thread swaps the outbox out, and serializes, encodes and sends the events of the
   batch one by one. Besides, anyone may call `getNextOutgoingEvent`.

   A step is one statement of one thread, or one section under a mutex. The render
   thread holds the inbox mutex from the pop to the end of `processCommand`, so a
   push waits meanwhile. `m_currentClient` is read anew where the source reads it,
   and `send` is called once per step with any answer it can give.

   Kept beside the state, as history: the commands processed; the events appended
   to the outbox, removed from it, and handled by the outgoing thread; the calls of
   `sendData` with the bytes accepted during each; the bytes accepted on the last
   connection of each socket handle, and whether a frame broke off on it. -/
namespace Icecap
open Icecap.Core Icecap.Transport StepRun

/-! ## The render thread -/

/-- Where the render thread is: outside, or in `processCommand` under the inbox mutex. -/
inductive RenderPc where
  | idle
  | processing (command : IncomingMessage)
  deriving DecidableEq, Repr

/-- A call of `HookedEndScene`, and how the `processCommand` in it ends: it returns,
or an exception leaves it before or after the event is enqueued. -/
inductive RenderAct where
  | endScene
  | returns (game : GameFunctions) (eventId : Bytes)
  | throws (game : GameFunctions) (eventId : Bytes) (enqueued : Bool)

/-! ## The outgoing thread -/

/-- The statement the outgoing thread is at. `localQueue` is the batch it swapped
out; while an event is sent it is still at its front. -/
inductive OutgoingPc where
  /-- the test of `m_running` in `outgoingMessageThreadMain` -/
  | looping
  /-- the test of `m_currentClient` there -/
  | checking
  /-- the tests at the start of `processOutgoingMessages` -/
  | guarding
  | swapping
  | draining (localQueue : List OutgoingMessage)
  /-- in the loop of `sendData` -/
  | sending (event : OutgoingMessage) (rest : List OutgoingMessage) (clientSocket : Socket) (data : Bytes)
      (totalSent : Nat)
  | sleeping
  | finished
  deriving DecidableEq, Repr

/-- The events of the batch that are not handled yet. -/
def OutgoingPc.localQueue : OutgoingPc → List OutgoingMessage
  | .draining localQueue => localQueue
  | .sending event rest _ _ _ => event :: rest
  | _ => []

/-- What `send` answers: a count of bytes, or `SOCKET_ERROR`. -/
inductive SendResult where
  | sent (count : Nat)
  | socketError
  deriving DecidableEq, Repr

inductive OutgoingAct where
  | go
  | send (result : SendResult)
  deriving DecidableEq, Repr

/-- A finished call of `sendData`: its event and socket, the bytes `send` accepted
during it, and what it returned. -/
structure SendCall where
  event : OutgoingMessage
  socket : Socket
  accepted : Bytes
  result : Bool
  deriving DecidableEq, Repr

/-- The condition of the loop of `sendData`. -/
def sendsMore (length totalSent : Nat) : Bool := (totalSent : Int) < toInt length

/-- The number of bytes that `sendData` asks `send` to take. -/
def sendRequest (length totalSent : Nat) : Int := toInt (length - totalSent)

theorem sendsMore_iff {length totalSent : Nat} (h : length ≤ maxSize) :
    sendsMore length totalSent = true ↔ totalSent < length := by
  simp only [sendsMore]
  rw [toInt_of_lt h, decide_eq_true_iff, Int.ofNat_lt]

theorem sendRequest_eq {length totalSent : Nat} (h : length ≤ maxSize) :
    sendRequest length totalSent = ((length - totalSent : Nat) : Int) :=
  toInt_of_lt (by omega)

/-- `encodeMessage`, with the length check of the `append` in it. -/
def encodeChecked (payload : Bytes) : Except StdError Bytes :=
  if maxSize < 4 + payload.length then .error .lengthError else .ok (encodeMessage payload)

/-! ## The agent -/

structure Agent where
  server : ServerState
  render : RenderPc
  work : Processing
  outgoing : OutgoingPc
  processed : List IncomingMessage
  appended : List OutgoingMessage
  removed : List OutgoingMessage
  taken : List OutgoingMessage
  handled : List OutgoingMessage
  accepted : Bytes
  sendCalls : List SendCall
  wire : Socket → Bytes
  torn : Socket → Bool

inductive AgentAct where
  | server (a : ServerAct)
  | render (a : RenderAct)
  | getNext
  | outgoing (a : OutgoingAct)

namespace Agent

/-- The threads just started on empty queues. -/
def boot (tcp : TcpServer) (manager : NetworkManager) : Agent where
  server := .boot tcp manager []
  render := .idle
  work := ⟨[], []⟩
  outgoing := .looping
  processed := []
  appended := []
  removed := []
  taken := []
  handled := []
  accepted := []
  sendCalls := []
  wire _ := []
  torn _ := false

/-- An accepted socket is a new connection, to which nothing was sent yet. -/
def openWire (s : Agent) : ServerAct → Agent
  | .accept client =>
    { s with wire := Function.update s.wire client [], torn := Function.update s.torn client false }
  | _ => s

theorem openWire_eq (s : Agent) (a : ServerAct) : ∃ wire torn, s.openWire a = { s with wire, torn } := by
  cases a <;> exact ⟨_, _, rfl⟩

/-- `processCommand` ends and leaves `work`. -/
def afterProcessing (s : Agent) (work : Processing) : Agent :=
  { s with
    render := .idle
    work
    appended := s.appended ++ work.outbox.drop s.work.outbox.length }

/-- `sendData` ends, and the event is popped from the batch. -/
def afterSendData (s : Agent) (event : OutgoingMessage) (rest : List OutgoingMessage) (socket : Socket)
    (result : Bool) : Agent :=
  { s with
    outgoing := .draining rest
    handled := s.handled ++ [event]
    accepted := []
    sendCalls := s.sendCalls ++ [⟨event, socket, s.accepted, result⟩] }

end Agent

/-- A step of `HookedEndScene`, called with a context set. -/
def renderStep (s : Agent) : RenderAct → Option Agent
  | .endScene =>
    match s.render, s.server.inbox with
    | .processing _, _ => none
    | .idle, [] => some s
    | .idle, command :: rest =>
      some { s with
        server := { s.server with inbox := rest }
        render := .processing command
        processed := s.processed ++ [command] }
  | .returns game eventId =>
    match s.render with
    | .idle => none
    | .processing command => some (s.afterProcessing (processCommand game eventId command s.work))
  | .throws game eventId enqueued =>
    match s.render with
    | .idle => none
    | .processing command =>
      let work := processCommand game eventId command s.work
      some (s.afterProcessing (if enqueued then work else { work with outbox := s.work.outbox }))

section
variable (parse : Bytes → Option IncomingMessage) (serialize : OutgoingMessage → Option Bytes)

/-- One turn of the loop of `processOutgoingMessages` up to the loop of `sendData`. -/
def drainTurn (s : Agent) (event : OutgoingMessage) (rest : List OutgoingMessage) : Agent :=
  match serialize event with
  | none => { s with outgoing := .draining rest, handled := s.handled ++ [event] }
  | some serialized =>
    match encodeChecked serialized with
    | .error _ =>
      -- caught in `outgoingMessageThreadMain`; the batch is gone
      { s with outgoing := .looping, handled := s.handled ++ event :: rest }
    | .ok encoded =>
      let clientSocket := s.server.manager.currentClient
      if clientSocket == invalidSocket || encoded.length == 0 then s.afterSendData event rest clientSocket false
      else { s with outgoing := .sending event rest clientSocket encoded 0, accepted := [] }

/-- One answer of `send` in the loop of `sendData`. -/
def sendTurn (s : Agent) (event : OutgoingMessage) (rest : List OutgoingMessage) (clientSocket : Socket)
    (data : Bytes) (totalSent : Nat) : SendResult → Option Agent
  | .socketError =>
    some { s.afterSendData event rest clientSocket false with
      torn := if totalSent = 0 then s.torn else Function.update s.torn clientSocket true }
  | .sent count =>
    if 0 < count ∧ (count : Int) ≤ sendRequest data.length totalSent then
      let bytes := (data.drop totalSent).take count
      some { s with
        outgoing := .sending event rest clientSocket data (totalSent + count)
        accepted := s.accepted ++ bytes
        wire := Function.update s.wire clientSocket (s.wire clientSocket ++ bytes) }
    else none

/-- A step of `outgoingMessageThreadMain` and what it calls. -/
def outgoingStep (s : Agent) (a : OutgoingAct) : Option Agent :=
  let manager := s.server.manager
  match s.outgoing, a with
  | .looping, .go => some { s with outgoing := if manager.running then .checking else .finished }
  | .checking, .go =>
    some { s with outgoing := if manager.currentClient != invalidSocket then .guarding else .sleeping }
  | .guarding, .go =>
    some { s with outgoing :=
      if !manager.running || !manager.outboxQueue || !manager.outboxMutex ||
        manager.currentClient == invalidSocket then .sleeping else .swapping }
  | .swapping, .go =>
    some { s with
      outgoing := .draining s.work.outbox
      work := { s.work with outbox := [] }
      removed := s.removed ++ s.work.outbox }
  | .draining [], .go => some { s with outgoing := .sleeping }
  | .draining (event :: rest), .go => some (drainTurn serialize s event rest)
  | .sending event rest clientSocket data totalSent, .go =>
    if sendsMore data.length totalSent then none else some (s.afterSendData event rest clientSocket true)
  | .sending event rest clientSocket data totalSent, .send result =>
    if sendsMore data.length totalSent then sendTurn s event rest clientSocket data totalSent result else none
  | .sleeping, .go => some { s with outgoing := .looping }
  | _, _ => none

/-- A step of the agent. -/
def agentStep (s : Agent) : AgentAct → Option Agent
  | .server a =>
    match serverStep parse s.server a with
    | none => none
    | some server =>
      -- a push waits for the inbox mutex
      if s.render ≠ .idle ∧ server.inbox ≠ s.server.inbox then none
      else some { s.openWire a with server }
  | .render a => renderStep s a
  | .getNext =>
    match getNextOutgoingEvent s.work with
    | none => some s
    | some (event, work) => some { s with work, removed := s.removed ++ [event], taken := s.taken ++ [event] }
  | .outgoing a => outgoingStep serialize s a

end

/-! ## What a step can do -/

section
variable {parse : Bytes → Option IncomingMessage} {serialize : OutgoingMessage → Option Bytes} {s s' : Agent}

/-- The moves of the outgoing thread: it holds no batch and goes on; it swaps the
outbox out; an event of the batch does not serialize, makes the encoder throw, is
refused by `sendData`, or begins to be sent; `send` accepts some of its bytes or
fails; or all of it was sent. -/
inductive OutgoingMove (serialize : OutgoingMessage → Option Bytes) (s : Agent) : OutgoingAct → Agent → Prop where
  | quiet {a : OutgoingAct} (pc : OutgoingPc) (hfrom : s.outgoing.localQueue = []) (hto : pc.localQueue = []) :
      OutgoingMove serialize s a { s with outgoing := pc }
  | swap (hpc : s.outgoing = .swapping) :
      OutgoingMove serialize s .go { s with
        outgoing := .draining s.work.outbox
        work := { s.work with outbox := [] }
        removed := s.removed ++ s.work.outbox }
  | skip (event : OutgoingMessage) (rest : List OutgoingMessage) (hpc : s.outgoing = .draining (event :: rest))
      (hser : serialize event = none) :
      OutgoingMove serialize s .go { s with outgoing := .draining rest, handled := s.handled ++ [event] }
  | raise (event : OutgoingMessage) (rest : List OutgoingMessage) (hpc : s.outgoing = .draining (event :: rest))
      {payload : Bytes} (hser : serialize event = some payload) (hbig : maxSize < 4 + payload.length) :
      OutgoingMove serialize s .go { s with outgoing := .looping, handled := s.handled ++ event :: rest }
  | refuse (event : OutgoingMessage) (rest : List OutgoingMessage) (hpc : s.outgoing = .draining (event :: rest))
      {payload : Bytes} (hser : serialize event = some payload) :
      OutgoingMove serialize s .go (s.afterSendData event rest s.server.manager.currentClient false)
  | begin (event : OutgoingMessage) (rest : List OutgoingMessage) (hpc : s.outgoing = .draining (event :: rest))
      {payload : Bytes} (hser : serialize event = some payload)
      (hfits : (encodeMessage payload).length ≤ maxSize) :
      OutgoingMove serialize s .go { s with
        outgoing := .sending event rest s.server.manager.currentClient (encodeMessage payload) 0
        accepted := [] }
  | accept (event : OutgoingMessage) (rest : List OutgoingMessage) (clientSocket : Socket) (data : Bytes)
      (totalSent count : Nat) (hpc : s.outgoing = .sending event rest clientSocket data totalSent)
      (hpos : 0 < count) (hcount : (count : Int) ≤ sendRequest data.length totalSent) :
      OutgoingMove serialize s (.send (.sent count)) { s with
        outgoing := .sending event rest clientSocket data (totalSent + count)
        accepted := s.accepted ++ (data.drop totalSent).take count
        wire := Function.update s.wire clientSocket
          (s.wire clientSocket ++ (data.drop totalSent).take count) }
  | fail (event : OutgoingMessage) (rest : List OutgoingMessage) (clientSocket : Socket) (data : Bytes)
      (totalSent : Nat) (hpc : s.outgoing = .sending event rest clientSocket data totalSent)
      (hmore : sendsMore data.length totalSent = true) :
      OutgoingMove serialize s (.send .socketError) { s.afterSendData event rest clientSocket false with
        torn := if totalSent = 0 then s.torn else Function.update s.torn clientSocket true }
  | complete (event : OutgoingMessage) (rest : List OutgoingMessage) (clientSocket : Socket) (data : Bytes)
      (totalSent : Nat) (hpc : s.outgoing = .sending event rest clientSocket data totalSent)
      (hall : sendsMore data.length totalSent = false) :
      OutgoingMove serialize s .go (s.afterSendData event rest clientSocket true)

theorem drainTurn_move {event : OutgoingMessage} {rest : List OutgoingMessage}
    (hpc : s.outgoing = .draining (event :: rest)) :
    OutgoingMove serialize s .go (drainTurn serialize s event rest) := by
  simp only [drainTurn]
  split
  · rename_i hser
    exact .skip event rest hpc hser
  · rename_i payload hser
    simp only [encodeChecked]
    by_cases hbig : maxSize < 4 + payload.length
    · rw [if_pos hbig]
      exact .raise event rest hpc hser hbig
    · rw [if_neg hbig]
      dsimp only
      split
      · exact .refuse event rest hpc hser
      · exact .begin event rest hpc hser (by rw [encodeMessage_length]; omega)

theorem sendTurn_move {event : OutgoingMessage} {rest : List OutgoingMessage} {clientSocket : Socket}
    {data : Bytes} {totalSent : Nat} {result : SendResult}
    (hpc : s.outgoing = .sending event rest clientSocket data totalSent)
    (hmore : sendsMore data.length totalSent = true)
    (h : sendTurn s event rest clientSocket data totalSent result = some s') :
    OutgoingMove serialize s (.send result) s' := by
  cases result with
  | socketError =>
    obtain rfl := Option.some.inj h
    exact .fail event rest clientSocket data totalSent hpc hmore
  | sent count =>
    simp only [sendTurn] at h
    split at h
    · rename_i hcount
      obtain rfl := Option.some.inj h
      exact .accept event rest clientSocket data totalSent count hpc hcount.1 hcount.2
    · simp at h

theorem outgoingStep_move {a : OutgoingAct} (h : outgoingStep serialize s a = some s') :
    OutgoingMove serialize s a s' := by
  unfold outgoingStep at h
  split at h
  case h_1 hpc =>
    obtain rfl := Option.some.inj h
    exact .quiet _ (by rw [hpc]; rfl) (by split <;> rfl)
  case h_2 hpc =>
    obtain rfl := Option.some.inj h
    exact .quiet _ (by rw [hpc]; rfl) (by split <;> rfl)
  case h_3 hpc =>
    obtain rfl := Option.some.inj h
    exact .quiet _ (by rw [hpc]; rfl) (by split <;> rfl)
  case h_4 hpc =>
    obtain rfl := Option.some.inj h
    exact .swap hpc
  case h_5 hpc =>
    obtain rfl := Option.some.inj h
    exact .quiet _ (by rw [hpc]; rfl) rfl
  case h_6 event rest hpc =>
    obtain rfl := Option.some.inj h
    exact drainTurn_move hpc
  case h_7 event rest clientSocket data totalSent hpc =>
    split at h
    · simp at h
    · rename_i hall
      obtain rfl := Option.some.inj h
      exact .complete event rest clientSocket data totalSent hpc (by simpa using hall)
  case h_8 event rest clientSocket data totalSent result hpc =>
    split at h
    · rename_i hmore
      exact sendTurn_move hpc hmore h
    · simp at h
  case h_9 hpc =>
    obtain rfl := Option.some.inj h
    exact .quiet _ (by rw [hpc]; rfl) rfl
  case h_10 => simp at h

/-- What the outgoing thread leaves alone: the other threads, the history of the outbox
and the game. It leaves the outbox alone as well or swaps it out, and what it holds as
a batch it handles in order. -/
structure OutgoingFrame (s s' : Agent) : Prop where
  server : s'.server = s.server
  render : s'.render = s.render
  processed : s'.processed = s.processed
  appended : s'.appended = s.appended
  taken : s'.taken = s.taken
  batch :
    (s'.work = s.work ∧ s'.removed = s.removed ∧
      s'.handled ++ s'.outgoing.localQueue = s.handled ++ s.outgoing.localQueue) ∨
    (s'.work.outbox = [] ∧ s'.removed = s.removed ++ s.work.outbox ∧ s.outgoing.localQueue = [] ∧
      s'.handled ++ s'.outgoing.localQueue = s.handled ++ s.work.outbox)

theorem outgoingStep_frame {a : OutgoingAct} (h : outgoingStep serialize s a = some s') : OutgoingFrame s s' := by
  -- every move but the swap changes the batch and its own history only
  have kept (pc : OutgoingPc) (handled : List OutgoingMessage) (accepted : Bytes) (sendCalls : List SendCall)
      (wire : Socket → Bytes) (torn : Socket → Bool)
      (hbatch : handled ++ pc.localQueue = s.handled ++ s.outgoing.localQueue) :
      OutgoingFrame s { s with outgoing := pc, handled, accepted, sendCalls, wire, torn } :=
    ⟨rfl, rfl, rfl, rfl, rfl, .inl ⟨rfl, rfl, hbatch⟩⟩
  cases outgoingStep_move h with
  | quiet pc hfrom hto => exact kept pc _ _ _ _ _ (by rw [hfrom, hto])
  | swap hpc => exact ⟨rfl, rfl, rfl, rfl, rfl, .inr ⟨rfl, rfl, by rw [hpc]; rfl, rfl⟩⟩
  | skip event rest hpc hser => exact kept _ _ _ _ _ _ (by simp [hpc, OutgoingPc.localQueue])
  | raise event rest hpc hser hbig => exact kept _ _ _ _ _ _ (by simp [hpc, OutgoingPc.localQueue])
  | refuse event rest hpc hser =>
    exact kept (.draining rest) (s.handled ++ [event]) _ _ _ _ (by simp [hpc, OutgoingPc.localQueue])
  | begin event rest hpc hser hfits => exact kept _ _ _ _ _ _ (by simp [hpc, OutgoingPc.localQueue])
  | accept event rest clientSocket data totalSent count hpc hpos hcount =>
    exact kept _ _ _ _ _ _ (by simp [hpc, OutgoingPc.localQueue])
  | fail event rest clientSocket data totalSent hpc hmore =>
    exact kept (.draining rest) (s.handled ++ [event]) _ _ _ _ (by simp [hpc, OutgoingPc.localQueue])
  | complete event rest clientSocket data totalSent hpc hall =>
    exact kept (.draining rest) (s.handled ++ [event]) _ _ _ _ (by simp [hpc, OutgoingPc.localQueue])

/-- The moves of the render thread: nothing is in the inbox, a command is taken from
it, or `processCommand` ends and has appended at most one event, with the command's
operation id. -/
inductive RenderMove (s : Agent) : Agent → Prop where
  | quiet : RenderMove s s
  | pop (command : IncomingMessage) (rest : List IncomingMessage) (hpc : s.render = .idle)
      (hinbox : s.server.inbox = command :: rest) :
      RenderMove s { s with
        server := { s.server with inbox := rest }
        render := .processing command
        processed := s.processed ++ [command] }
  | done (command : IncomingMessage) (work : Processing) (events : List OutgoingMessage)
      (hpc : s.render = .processing command) (hwork : work.outbox = s.work.outbox ++ events)
      (hids : (events.map (·.operationId)).Sublist [command.operationId]) :
      RenderMove s { s with render := .idle, work, appended := s.appended ++ events }

theorem renderStep_move {a : RenderAct} (h : renderStep s a = some s') : RenderMove s s' := by
  have done (command : IncomingMessage) (work : Processing) (events : List OutgoingMessage)
      (hpc : s.render = .processing command) (hwork : work.outbox = s.work.outbox ++ events)
      (hids : (events.map (·.operationId)).Sublist [command.operationId]) :
      RenderMove s (s.afterProcessing work) := by
    have hdrop : work.outbox.drop s.work.outbox.length = events := by rw [hwork, List.drop_left]
    simp only [Agent.afterProcessing]
    rw [hdrop]
    exact .done command work events hpc hwork hids
  cases a with
  | endScene =>
    simp only [renderStep] at h
    split at h
    · simp at h
    · obtain rfl := Option.some.inj h
      exact .quiet
    · rename_i command rest hpc hinbox
      obtain rfl := Option.some.inj h
      exact .pop command rest hpc hinbox
  | returns game eventId =>
    simp only [renderStep] at h
    split at h
    · simp at h
    · rename_i command hpc
      obtain rfl := Option.some.inj h
      obtain ⟨events, hwork, hids⟩ := processCommand_outbox game eventId command s.work
      exact done command _ events hpc hwork hids
  | throws game eventId enqueued =>
    simp only [renderStep] at h
    split at h
    · simp at h
    · rename_i command hpc
      obtain rfl := Option.some.inj h
      -- the exception came after the event was enqueued, or before
      cases enqueued with
      | true =>
        obtain ⟨events, hwork, hids⟩ := processCommand_outbox game eventId command s.work
        exact done command _ events hpc hwork hids
      | false => exact done command _ [] hpc (by simp) (by simp)

/-- A step of the server thread, with what it does to the connections. -/
theorem agentStep_server {a : ServerAct} (h : agentStep parse serialize s (.server a) = some s') :
    ∃ server, serverStep parse s.server a = some server ∧ s' = { s.openWire a with server } := by
  simp only [agentStep] at h
  split at h
  · simp at h
  · rename_i server hserver
    split at h
    · simp at h
    · exact ⟨server, hserver, (Option.some.inj h).symm⟩

/-- What the other threads leave alone: the batch of the outgoing thread and what it
did with it. What was removed from the outbox stays removed. -/
structure Agent.Beside (s s' : Agent) : Prop where
  outgoing : s'.outgoing = s.outgoing
  handled : s'.handled = s.handled
  accepted : s'.accepted = s.accepted
  sendCalls : s'.sendCalls = s.sendCalls
  removed : s.removed <+: s'.removed

/-- A step is one of the outgoing thread, or leaves its batch alone. -/
theorem agentStep_cases {a : AgentAct} (h : agentStep parse serialize s a = some s') :
    (∃ b, a = .outgoing b ∧ outgoingStep serialize s b = some s') ∨ s.Beside s' := by
  have beside {t : Agent} (hremoved : s.removed <+: t.removed) (ho : t.outgoing = s.outgoing)
      (hh : t.handled = s.handled) (ha : t.accepted = s.accepted) (hc : t.sendCalls = s.sendCalls) :
      s.Beside t := ⟨ho, hh, ha, hc, hremoved⟩
  cases a with
  | server a =>
    obtain ⟨server, -, rfl⟩ := agentStep_server h
    obtain ⟨wire, torn, hopen⟩ := s.openWire_eq a
    rw [hopen]
    exact .inr (beside List.prefix_rfl rfl rfl rfl rfl)
  | render a => cases renderStep_move h <;> exact .inr (beside List.prefix_rfl rfl rfl rfl rfl)
  | getNext =>
    simp only [agentStep] at h
    split at h
    · obtain rfl := Option.some.inj h
      exact .inr (beside List.prefix_rfl rfl rfl rfl rfl)
    · obtain rfl := Option.some.inj h
      exact .inr (beside (List.prefix_append _ _) rfl rfl rfl rfl)
  | outgoing b => exact .inl ⟨b, rfl, h⟩

end

end Icecap
