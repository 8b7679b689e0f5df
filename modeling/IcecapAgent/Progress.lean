import IcecapAgent.Delivery
import IcecapAgent.Serial
import IcecapAgent.Serving

/- What every thread gets done, however the others are scheduled.

   `stopServer` resets both running flags and then waits for the two threads: without a
   bound for the outgoing thread, which it joins, and for five seconds for the server
   thread. Each thread pays for its steps out of what it has left to do, so the waits end
   as soon as the calls into the operating system return.

   1. `outgoing_joins` — a stopped outgoing thread goes through the batch it holds, and
      whatever it still swaps out, and ends; before that it can always go on;
   2. `server_joins` — a stopped server thread ends after the chunk it is given last, and
      at most one client more;
   3. `endScene_serves` — a command waits for as many calls of `HookedEndScene` as there
      are commands in front of it. -/
namespace Icecap
open Icecap.Core Icecap.Transport StepRun

/-! ## The outgoing thread -/

section
variable (serialize : OutgoingMessage → Option Bytes)

/-- The steps that sending some events can take: one for every byte, and two for each. -/
def sendLoad : List OutgoingMessage → Nat
  | [] => 0
  | event :: events => (encoding serialize event).length + 2 + sendLoad events

/-- The steps the outgoing thread of a stopped manager has left, apart from what is still
in the outbox. -/
def OutgoingPc.toDo : OutgoingPc → Nat
  | .finished => 0
  | .looping => 1
  | .sleeping => 2
  | .draining localQueue => sendLoad serialize localQueue + 3
  | .sending _ rest _ data totalSent => data.length - totalSent + 1 + (sendLoad serialize rest + 3)
  | .guarding => 3
  | .swapping => 4
  | .checking => 4

def Agent.outgoingToDo (s : Agent) : Nat := s.outgoing.toDo serialize + sendLoad serialize s.work.outbox

/-- A step of the outgoing thread. -/
def AgentAct.isOutgoing : AgentAct → Bool
  | .outgoing _ => true
  | _ => false

end

section
variable {parse : Bytes → Option IncomingMessage} {serialize : OutgoingMessage → Option Bytes} {s s' : Agent}

theorem sendLoad_append (events events' : List OutgoingMessage) :
    sendLoad serialize (events ++ events') = sendLoad serialize events + sendLoad serialize events' := by
  induction events with
  | nil => simp [sendLoad]
  | cons event events ih =>
    rw [List.cons_append, sendLoad, sendLoad, ih]
    omega

theorem encoding_of_some {event : OutgoingMessage} {payload : Bytes} (h : serialize event = some payload) :
    encoding serialize event = encodeMessage payload := by
  rw [encoding, h]
  rfl

theorem sendRequest_le (length totalSent : Nat) : sendRequest length totalSent ≤ ((length - totalSent : Nat) : Int) := by
  unfold sendRequest toInt
  rw [Int.bmod_def]
  omega

theorem drainTurn_toDo {event : OutgoingMessage} {rest : List OutgoingMessage}
    (hpc : s.outgoing = .draining (event :: rest)) :
    1 + (drainTurn serialize s event rest).outgoingToDo serialize ≤ s.outgoingToDo serialize := by
  unfold drainTurn Agent.outgoingToDo
  rw [hpc]
  split
  · simp only [OutgoingPc.toDo, sendLoad]
    omega
  · rename_i payload hser
    simp only [encodeChecked]
    split
    · simp only [OutgoingPc.toDo, sendLoad]
      omega
    · rename_i encoded hencoded
      split at hencoded
      · simp at hencoded
      · -- the event begins to be sent, or its socket is refused
        obtain rfl : encodeMessage payload = encoded := by simpa using hencoded
        split
        · simp only [Agent.afterSendData, OutgoingPc.toDo, sendLoad]
          omega
        · simp only [OutgoingPc.toDo, sendLoad, encoding_of_some hser]
          omega

theorem sendTurn_toDo {event : OutgoingMessage} {rest : List OutgoingMessage} {clientSocket : Socket}
    {data : Bytes} {totalSent : Nat} {result : SendResult}
    (hpc : s.outgoing = .sending event rest clientSocket data totalSent)
    (h : sendTurn s event rest clientSocket data totalSent result = some s') :
    1 + s'.outgoingToDo serialize ≤ s.outgoingToDo serialize := by
  unfold Agent.outgoingToDo
  rw [hpc]
  cases result with
  | socketError =>
    obtain rfl := Option.some.inj h
    simp only [Agent.afterSendData, OutgoingPc.toDo]
    omega
  | sent count =>
    simp only [sendTurn] at h
    split at h
    · rename_i hcount
      obtain rfl := Option.some.inj h
      have hrequest := sendRequest_le data.length totalSent
      simp only [OutgoingPc.toDo]
      omega
    · simp at h

theorem outgoingStep_enabled (serialize : OutgoingMessage → Option Bytes) (h : s.outgoing ≠ .finished) :
    ∃ a s', outgoingStep serialize s a = some s' := by
  cases hpc : s.outgoing with
  | finished => exact absurd hpc h
  | draining localQueue =>
    cases localQueue with
    | nil => exact ⟨.go, _, by unfold outgoingStep; rw [hpc]⟩
    | cons event rest => exact ⟨.go, _, by unfold outgoingStep; rw [hpc]⟩
  | sending event rest clientSocket data totalSent =>
    by_cases hmore : sendsMore data.length totalSent = true
    · refine ⟨.send .socketError, ?_⟩
      unfold outgoingStep
      rw [hpc]
      dsimp only
      rw [if_pos hmore]
      exact ⟨_, rfl⟩
    · refine ⟨.go, ?_⟩
      unfold outgoingStep
      rw [hpc]
      dsimp only
      rw [if_neg hmore]
      exact ⟨_, rfl⟩
  | _ => exact ⟨.go, _, by unfold outgoingStep; rw [hpc]⟩

end

/-- The steps the thread of a stopped server has left: the loop of the data callback takes
one for every frame, and `recv` answers at most 4096 bytes. -/
def Transport.ServerState.toDo (s : ServerState) : Nat :=
  match s.pc with
  | .absent | .finished | .crashed _ => 0
  | .looping => 1
  | .clearing => 2
  | .closing _ => 3
  | .disconnecting _ => 4
  | .handling _ => 5
  | .connecting _ => 6
  | .storing _ => 7
  | .accepting => 8
  | .extracting _ _ => s.manager.receiveBuffer.length + 6
  | .delivering _ chunk => s.manager.receiveBuffer.length + chunk.length + 7
  | .receiving _ => s.manager.receiveBuffer.length + 4096 + 8

/-- A step of the server thread. -/
def AgentAct.isServer : AgentAct → Bool
  | .server _ => true
  | _ => false

section
variable {parse : Bytes → Option IncomingMessage} {serialize : OutgoingMessage → Option Bytes} {s s' : Agent}
  {server server' : ServerState}

theorem dataCallback_toDo {client : Socket} {chunk : Bytes} (hpc : server.pc = .delivering client chunk) :
    1 + (server.dataCallback client chunk).toDo ≤ server.toDo := by
  have hbefore : server.toDo = server.manager.receiveBuffer.length + chunk.length + 7 := by
    rw [ServerState.toDo, hpc]
  rw [hbefore]
  unfold ServerState.dataCallback
  dsimp only
  split
  · split
    · simp only [ServerState.toDo]
      omega
    · simp only [ServerState.toDo, NetworkManager.withBuffer_buffer, List.length_append]
      omega
  · simp only [ServerState.toDo]
    omega

theorem extractTurn_toDo {client : Socket} {frame : Bytes} (hpc : server.pc = .extracting client frame) :
    1 + (server.extractTurn parse client frame).toDo ≤ server.toDo := by
  have hbefore : server.toDo = server.manager.receiveBuffer.length + 6 := by
    rw [ServerState.toDo, hpc]
  rw [hbefore]
  unfold ServerState.extractTurn
  split
  · simp only [ServerState.toDo]
    omega
  · simp only [ServerState.toDo]
    omega
  · rename_i buffer frame' hextract
    have hshrinks := extractFrame_shrinks hextract
    simp only [ServerState.toDo, NetworkManager.withBuffer_buffer]
    omega

theorem serverGo_toDo (hstopped : server.tcp.running = false) (h : serverGo parse server = some server') :
    1 + server'.toDo ≤ server.toDo := by
  unfold serverGo at h
  cases hpc : server.pc with
  | delivering client chunk =>
    rw [hpc] at h
    obtain rfl := Option.some.inj h
    exact dataCallback_toDo hpc
  | extracting client frame =>
    rw [hpc] at h
    obtain rfl := Option.some.inj h
    exact extractTurn_toDo hpc
  | looping =>
    rw [hpc, hstopped] at h
    obtain rfl := Option.some.inj h
    simp [ServerState.toDo, hpc]
  | handling client =>
    rw [hpc, hstopped] at h
    obtain rfl := Option.some.inj h
    simp [ServerState.toDo, hpc]
  | storing client =>
    rw [hpc] at h
    obtain rfl := Option.some.inj h
    simp [ServerState.toDo, hpc]
  | connecting client =>
    rw [hpc] at h
    obtain rfl := Option.some.inj h
    simp [ServerState.toDo, hpc]
  | disconnecting client =>
    rw [hpc] at h
    obtain rfl := Option.some.inj h
    simp [ServerState.toDo, hpc]
  | closing client =>
    rw [hpc] at h
    obtain rfl := Option.some.inj h
    simp [ServerState.toDo, hpc]
  | clearing =>
    rw [hpc] at h
    obtain rfl := Option.some.inj h
    simp [ServerState.toDo, hpc]
  | _ =>
    rw [hpc] at h
    simp at h

/-- While the server is stopped, every step of its thread leaves it less to do. -/
theorem serverStep_toDo {a : ServerAct} (hstopped : server.tcp.running = false)
    (h : serverStep parse server a = some server') : 1 + server'.toDo ≤ server.toDo := by
  cases a with
  | go => exact serverGo_toDo hstopped h
  | accept client =>
    simp only [serverStep] at h
    split at h
    · rename_i hpc
      obtain rfl := Option.some.inj h
      by_cases hinvalid : client = invalidSocket
      · simp [ServerState.toDo, hpc, hinvalid]
      · simp [ServerState.toDo, hpc, hinvalid]
    · simp at h
  | recv result =>
    simp only [serverStep] at h
    split at h
    · rename_i client hpc
      cases result with
      | data chunk =>
        simp only [serverRecv] at h
        split at h
        · rename_i hlen
          obtain rfl := Option.some.inj h
          simp only [ServerState.toDo, hpc]
          omega
        · simp at h
      | closed =>
        obtain rfl := Option.some.inj h
        simp only [ServerState.toDo, hpc]
        omega
      | failed =>
        obtain rfl := Option.some.inj h
        simp only [ServerState.toDo, hpc]
        omega
    · simp at h

theorem serverStep_enabled (parse : Bytes → Option IncomingMessage) (h : server.pc.inLoop = true) :
    ∃ a server', serverStep parse server a = some server' := by
  cases hpc : server.pc with
  | accepting => exact ⟨.accept invalidSocket, _, by unfold serverStep; rw [hpc]⟩
  | receiving client => exact ⟨.recv .closed, _, by unfold serverStep; rw [hpc]; rfl⟩
  | absent => simp [hpc, ServerPc.inLoop] at h
  | finished => simp [hpc, ServerPc.inLoop] at h
  | crashed error => simp [hpc, ServerPc.inLoop] at h
  | _ => exact ⟨.go, _, by unfold serverStep serverGo; rw [hpc]⟩

theorem agentStep_tcpStopped {a : AgentAct} (hstopped : s.server.tcp.running = false)
    (h : agentStep parse serialize s a = some s') : s'.server.tcp.running = false := by
  rcases agentStep_serverPart h with ⟨b, -, hserver⟩ | ⟨-, inbox, hinbox⟩
  · exact (serverStep_tcpRunning hserver).trans hstopped
  · rw [hinbox]
    exact hstopped

theorem agentStep_serverToDo {a : AgentAct} (hstopped : s.server.tcp.running = false)
    (h : agentStep parse serialize s a = some s') :
    (if a.isServer then 1 else 0) + s'.server.toDo ≤ s.server.toDo := by
  rcases agentStep_serverPart h with ⟨b, rfl, hserver⟩ | ⟨hother, inbox, hinbox⟩
  · exact serverStep_toDo hstopped hserver
  · have hfree : a.isServer = false := by
      cases a with
      | server b => exact absurd rfl (hother b)
      | _ => rfl
    rw [hinbox, hfree]
    simp [ServerState.toDo]

/-- The render thread lets a step of the server thread through when it is outside
`processCommand`. -/
theorem agentStep_of_serverStep (serialize : OutgoingMessage → Option Bytes) {b : ServerAct} (hidle : s.render = .idle)
    (h : serverStep parse s.server b = some server') :
    ∃ t, agentStep parse serialize s (.server b) = some t := by
  simp only [agentStep, h, hidle, ne_eq, not_true_eq_false, false_and, if_false]
  exact ⟨_, rfl⟩

end

/-- **The wait for the server thread ends**: once the TCP server is stopped, over every
interleaving and for all answers of `accept` and `recv`, the thread takes no more steps
than the bytes it still has to look at and a constant; and as long as it is in its loop
it can take one, unless the render thread is holding the inbox. -/
theorem server_joins (parse : Bytes → Option IncomingMessage) (serialize : OutgoingMessage → Option Bytes)
    {s t : Agent} (hstopped : s.server.tcp.running = false) {acts : List AgentAct}
    (hrun : run (agentStep parse serialize) s acts = some t) :
    acts.countP AgentAct.isServer ≤ s.server.toDo ∧
      (t.server.pc.inLoop = true → t.render = .idle →
        ∃ a t', agentStep parse serialize t (.server a) = some t') := by
  refine ⟨?_, ?_⟩
  · let Inv (s : Agent) : Prop := s.server.tcp.running = false
    have hkeep : ∀ s a s', Inv s → agentStep parse serialize s a = some s' → Inv s' :=
      fun s a s' h hs => agentStep_tcpStopped h hs
    have hpay : ∀ s a s', Inv s → agentStep parse serialize s a = some s' →
        (if a.isServer then 1 else 0) + s'.server.toDo + 0 ≤ s.server.toDo + 0 :=
      fun s a s' h hs => agentStep_serverToDo h hs
    have hpaid := run_pays hkeep hpay hrun hstopped
    omega
  · intro hloop hidle
    obtain ⟨a, server', hserver⟩ := serverStep_enabled parse hloop
    obtain ⟨t', ht'⟩ := agentStep_of_serverStep serialize hidle hserver
    exact ⟨a, t', ht'⟩

/-- `accept` still answers a client, which is not read from any more. -/
def lastClient : List AgentAct := .server (.accept 5) :: List.replicate 7 (.server .go)

/-- The thread waits in `accept` for a server that was stopped. -/
def stoppedInAccept : Agent :=
  { Agent.boot .fresh .fresh with server := { ServerState.boot .fresh .fresh [] with pc := .accepting } }

theorem server_joins_last_client :
    ∃ t, run (agentStep luaFrame operationOnly) stoppedInAccept lastClient = some t ∧
      lastClient.countP AgentAct.isServer ≤ 8 := by
  have hsome : (run (agentStep luaFrame operationOnly) stoppedInAccept lastClient).isSome = true := by decide +kernel
  obtain ⟨t, hrun⟩ := Option.isSome_iff_exists.mp hsome
  exact ⟨t, hrun, (server_joins luaFrame operationOnly (s := stoppedInAccept) rfl hrun).1⟩

/-! ## The render thread -/

/-- A call of `HookedEndScene`. -/
def AgentAct.isEndScene : AgentAct → Bool
  | .render .endScene => true
  | _ => false

section
variable {parse : Bytes → Option IncomingMessage} {serialize : OutgoingMessage → Option Bytes} {s s' : Agent}

/-- A call of `HookedEndScene` takes the first command; any other step leaves those that
wait in their places. -/
theorem agentStep_inbox {a : AgentAct} (h : agentStep parse serialize s a = some s') (n : Nat) :
    s.processed ++ s.server.inbox.take ((if a.isEndScene then 1 else 0) + n) <+:
      s'.processed ++ s'.server.inbox.take n := by
  have kept (hprocessed : s'.processed = s.processed) (hinbox : s.server.inbox <+: s'.server.inbox) :
      s.processed ++ s.server.inbox.take (0 + n) <+: s'.processed ++ s'.server.inbox.take n := by
    rw [hprocessed, Nat.zero_add, List.prefix_append_right_inj]
    exact hinbox.take n
  cases a with
  | server a =>
    obtain ⟨server, hserver, rfl⟩ := agentStep_server h
    obtain ⟨wire, torn, hopen⟩ := s.openWire_eq a
    obtain ⟨commands, hinbox, -⟩ := (serverStep_frame hserver).pushes
    apply kept
    · rw [hopen]
    · exact ⟨commands, hinbox.symm⟩
  | render a =>
    cases a with
    | endScene =>
      simp only [renderStep, agentStep] at h
      split at h
      · simp at h
      · rename_i hinbox
        obtain rfl := Option.some.inj h
        simp [hinbox]
      · rename_i command rest hpc hinbox
        obtain rfl := Option.some.inj h
        simp [hinbox, AgentAct.isEndScene, Nat.add_comm 1 n]
    | returns game eventId =>
      simp only [renderStep, agentStep] at h
      split at h
      · simp at h
      · obtain rfl := Option.some.inj h
        exact kept rfl List.prefix_rfl
    | throws game eventId enqueued =>
      simp only [renderStep, agentStep] at h
      split at h
      · simp at h
      · obtain rfl := Option.some.inj h
        exact kept rfl List.prefix_rfl
  | getNext =>
    simp only [agentStep] at h
    split at h <;> obtain rfl := Option.some.inj h <;> exact kept rfl List.prefix_rfl
  | outgoing a =>
    have hframe := outgoingStep_frame h
    exact kept hframe.processed (by rw [hframe.server])

theorem processed_of_run {acts : List AgentAct} (hrun : run (agentStep parse serialize) s acts = some s') :
    s.processed ++ s.server.inbox.take (acts.countP AgentAct.isEndScene) <+: s'.processed := by
  induction acts generalizing s with
  | nil =>
    obtain rfl : s = s' := by simpa using hrun
    simp
  | cons a acts ih =>
    obtain ⟨u, hu, hrest⟩ := run_cons.mp hrun
    rw [List.countP_cons, Nat.add_comm]
    exact (agentStep_inbox hu _).trans (ih hrest)

end

/-- **A bounded wait for the game**: from any state, over every interleaving, after `n`
calls of `HookedEndScene` the first `n` commands of the inbox were taken to be processed,
in order, after those taken before. -/
theorem endScene_serves (parse : Bytes → Option IncomingMessage) (serialize : OutgoingMessage → Option Bytes)
    {s t : Agent} {acts : List AgentAct} (hrun : run (agentStep parse serialize) s acts = some t) :
    s.processed ++ s.server.inbox.take (acts.countP AgentAct.isEndScene) <+: t.processed :=
  processed_of_run hrun

theorem endScene_serves_two_frames :
    ∃ s t, run (agentStep luaFrame operationOnly) (.boot .listening .started) twoFrames = some s ∧
      run (agentStep luaFrame operationOnly) s endScene = some t ∧
      s.processed ++ s.server.inbox.take 1 <+: t.processed := by
  have hsome : ((run (agentStep luaFrame operationOnly) (.boot .listening .started) twoFrames).bind
      (run (agentStep luaFrame operationOnly) · endScene)).isSome = true := by decide +kernel
  obtain ⟨t, hrun⟩ := Option.isSome_iff_exists.mp hsome
  obtain ⟨s, hs, ht⟩ := Option.bind_eq_some_iff.mp hrun
  exact ⟨s, t, hs, ht, endScene_serves luaFrame operationOnly ht⟩

end Icecap
