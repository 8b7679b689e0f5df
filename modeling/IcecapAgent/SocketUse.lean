import IcecapAgent.Agent

/- Which sockets the threads use, and when a socket is closed.

   Three threads hold copies of the handle of a client: the server thread in its local
   `clientSocket`, the outgoing thread in the argument of `sendData`, and whoever calls
   `TcpServer::stop` reads `m_clientSocket`. The handle of a closed socket may be given
   to a new connection, so sockets are told apart by the order in which they were
   accepted, and `Handles` says which socket each copy names.

   `closed_sockets_unused` — no `send`, `shutdown` or `closesocket` is called on a
   socket after it was closed, in every run in which the server thread closes no socket
   that `sendData` still has bytes for, `stop` does not come between `closesocket` and
   the clearing of `m_clientSocket`, and the wait in `stop` does not end with a client
   still stored. Each of these breaks the rule (`closed_socket_used`): `stop` reads
   `m_clientSocket` under the mutex, but `closesocket` is called outside it. -/
namespace Icecap
open Icecap.Core Icecap.Transport StepRun

/-- A call on an accepted socket. -/
inductive SocketCall where
  | send (socket : Nat)
  | shutdown (socket : Nat)
  | closesocket (socket : Nat)
  deriving DecidableEq, Repr

def SocketCall.socket : SocketCall → Nat
  | .send socket | .shutdown socket | .closesocket socket => socket

/-- Once `closesocket` was called on a socket, no later call is made on it. -/
def UnusedAfterClose (calls : List SocketCall) : Prop :=
  calls.Pairwise fun call later => call ≠ .closesocket later.socket

instance (calls : List SocketCall) : Decidable (UnusedAfterClose calls) :=
  inferInstanceAs (Decidable (List.Pairwise _ _))

/-- The socket that each copy of a handle names, by its place in the order of
acceptance. -/
structure Handles where
  /-- the number of sockets accepted so far -/
  accepted : Nat
  /-- the local `clientSocket` of `serverThreadMain` -/
  serving : Nat
  /-- `m_clientSocket` -/
  stored : Nat
  /-- `m_currentClient` -/
  current : Nat
  /-- the argument of `sendData` -/
  sending : Nat
  deriving DecidableEq, Repr

/-- A step of the agent passes copies on as it passes the handles on. -/
def Handles.after (h : Handles) (s : Agent) : AgentAct → Handles
  | .server (.accept client) =>
    if client = invalidSocket then h else { h with accepted := h.accepted + 1, serving := h.accepted }
  | .server .go =>
    match s.server.pc with
    | .storing _ => { h with stored := h.serving }
    | .connecting _ => if s.server.tcp.clientConnectedCallback then { h with current := h.serving } else h
    | _ => h
  | .outgoing .go =>
    match s.outgoing with
    | .draining (_ :: _) => { h with sending := h.current }
    | _ => h
  | _ => h

/-- The calls on sockets that a step of the agent makes. -/
def Handles.calls (h : Handles) (s : Agent) : AgentAct → List SocketCall
  | .server .go =>
    match s.server.pc with
    | .closing _ => [.closesocket h.serving]
    | _ => []
  | .outgoing (.send _) => [.send h.sending]
  | _ => []

/-! ## `TcpServer::stop` -/

/-- The statement a caller of `TcpServer::stop` is at. -/
inductive StopPc where
  /-- not called, or returned -/
  | outside
  /-- `m_running.store(false)` -/
  | marking
  /-- the first section under the mutex -/
  | shutting
  /-- in `WaitForSingleObject`, with the listener closed -/
  | waiting
  /-- the second section under the mutex -/
  | closing
  deriving DecidableEq, Repr

/-- A step of `TcpServer::stop`; the wait ends with the thread or after five seconds. -/
inductive StopAct where
  | go
  | waited (timedOut : Bool)
  deriving DecidableEq, Repr

structure SocketState where
  agent : Agent
  stop : StopPc
  handles : Handles
  calls : List SocketCall

inductive SocketAct where
  | agent (a : AgentAct)
  | stop (a : StopAct)

namespace SocketState

/-- As `startServer` leaves the agent; no client has come yet. -/
def boot : SocketState := ⟨.boot .listening .started, .outside, ⟨0, 0, 0, 0, 0⟩, []⟩

/-- The state with another `TcpServer`. -/
def withTcp (s : SocketState) (tcp : TcpServer) : SocketState :=
  { s with agent := { s.agent with server := { s.agent.server with tcp } } }

end SocketState

/-- One step of `TcpServer::stop`. -/
def stopStep (s : SocketState) : StopAct → Option SocketState
  | .go =>
    let tcp := s.agent.server.tcp
    match s.stop with
    | .outside => some { s with stop := if tcp.running then .marking else .outside }
    | .marking => some { s.withTcp { tcp with running := false } with stop := .shutting }
    | .shutting =>
      some { s with
        stop := .waiting
        calls := s.calls ++ if tcp.clientSocket ≠ invalidSocket then [.shutdown s.handles.stored] else [] }
    | .waiting => none
    | .closing =>
      if tcp.clientSocket ≠ invalidSocket then
        some { s.withTcp { tcp with clientSocket := invalidSocket } with
          stop := .outside
          calls := s.calls ++ [.closesocket s.handles.stored] }
      else some { s with stop := .outside }
  | .waited timedOut =>
    match s.stop with
    | .waiting => if timedOut ∨ s.agent.server.pc = .finished then some { s with stop := .closing } else none
    | _ => none

/-- A step of the agent, or of a call of `TcpServer::stop` beside it. -/
def socketStep (parse : Bytes → Option IncomingMessage) (serialize : OutgoingMessage → Option Bytes)
    (s : SocketState) (a : SocketAct) : Option SocketState :=
  if s.agent.server.pc.hasCrashed then none
  else
    match a with
    | .agent a =>
      (agentStep parse serialize s.agent a).map fun agent =>
        { s with
          agent
          handles := s.handles.after s.agent a
          calls := s.calls ++ s.handles.calls s.agent a }
    | .stop a => stopStep s a

/-- The outgoing thread is in the loop of `sendData` and has bytes left to send. -/
def OutgoingPc.sendsOn : OutgoingPc → Bool
  | .sending _ _ _ data totalSent => sendsMore data.length totalSent
  | _ => false

/-- The server thread is about to call `closesocket`. -/
def closesNext : ServerPc → Bool
  | .closing _ => true
  | _ => false

/-- The step closes no socket that `sendData` has bytes left for, reads no
`m_clientSocket` that was closed and not cleared yet, and does not find a client stored
when the wait of `stop` is over. -/
def Undisturbed (s : SocketState) : SocketAct → Prop
  | .agent (.server .go) =>
    closesNext s.agent.server.pc = true → s.agent.outgoing.sendsOn = true →
      s.handles.sending ≠ s.handles.serving
  | .stop .go =>
    (s.stop = .shutting → s.agent.server.pc ≠ .clearing) ∧
      (s.stop = .closing → s.agent.server.tcp.clientSocket = invalidSocket)
  | _ => True

instance (s : SocketState) : DecidablePred (Undisturbed s)
  | .agent (.server .go) => inferInstanceAs (Decidable (_ → _ → _))
  | .stop .go => inferInstanceAs (Decidable (_ ∧ _))
  | .agent (.server (.accept _)) | .agent (.server (.recv _)) | .agent (.render _) | .agent .getNext
  | .agent (.outgoing _) | .stop (.waited _) => isTrue trivial

/-! ## Which copies name an open socket -/

/-- The socket was accepted, and `closesocket` was not called on it. -/
def OpenSocket (h : Handles) (calls : List SocketCall) (socket : Nat) : Prop :=
  socket < h.accepted ∧ .closesocket socket ∉ calls

/-- The handles the server thread and its callbacks stored, by where the thread is: all
copies that are valid name the socket being served, and `m_clientSocket` alone outlives
`closesocket`. -/
def Placed (server : ServerState) (h : Handles) (calls : List SocketCall) : Prop :=
  match server.pc with
  | .storing client =>
    client ≠ invalidSocket ∧ OpenSocket h calls h.serving ∧
      server.tcp.clientSocket = invalidSocket ∧ server.manager.currentClient = invalidSocket
  | .connecting client =>
    client ≠ invalidSocket ∧ OpenSocket h calls h.serving ∧
      (server.tcp.clientSocket = client ∧ h.stored = h.serving) ∧ server.manager.currentClient = invalidSocket
  | .handling client | .receiving client | .delivering client _ | .extracting client _ | .disconnecting client =>
    client ≠ invalidSocket ∧ OpenSocket h calls h.serving ∧
      (server.tcp.clientSocket = client ∧ h.stored = h.serving) ∧
      (server.manager.currentClient = client ∧ h.current = h.serving)
  | .closing client =>
    client ≠ invalidSocket ∧ OpenSocket h calls h.serving ∧
      (server.tcp.clientSocket = client ∧ h.stored = h.serving) ∧ server.manager.currentClient = invalidSocket
  | .clearing => server.manager.currentClient = invalidSocket
  | .crashed _ => True
  | .absent | .looping | .accepting | .finished =>
    server.tcp.clientSocket = invalidSocket ∧ server.manager.currentClient = invalidSocket

/-- What holds of the copies and the calls in every state of a run. -/
structure Custody (server : ServerState) (outgoing : OutgoingPc) (h : Handles) (calls : List SocketCall) :
    Prop where
  wired : server.tcp.Wired
  unused : UnusedAfterClose calls
  closed_lt : ∀ socket, .closesocket socket ∈ calls → socket < h.accepted
  placed : Placed server h calls
  sending : outgoing.sendsOn = true → .closesocket h.sending ∉ calls

section
variable {parse : Bytes → Option IncomingMessage} {serialize : OutgoingMessage → Option Bytes}
  {calls : List SocketCall} {h : Handles}

theorem UnusedAfterClose.append {call : SocketCall} (hu : UnusedAfterClose calls)
    (hopen : .closesocket call.socket ∉ calls) : UnusedAfterClose (calls ++ [call]) := by
  apply List.pairwise_append.mpr
  refine ⟨hu, List.pairwise_singleton _ _, ?_⟩
  intro c hc later hlater
  rw [List.mem_singleton.mp hlater]
  rintro rfl
  exact hopen hc

theorem outgoingStep_send {s s' : Agent} {result : SendResult}
    (hs : outgoingStep serialize s (.send result) = some s') : s.outgoing.sendsOn = true := by
  unfold outgoingStep at hs
  cases hpc : s.outgoing with
  | sending event rest clientSocket data totalSent =>
    rw [hpc] at hs
    dsimp only at hs
    split at hs
    · rename_i hmore
      exact hmore
    · simp at hs
  | draining localQueue => cases localQueue <;> simp [hpc] at hs
  | _ => simp [hpc] at hs

theorem outgoingStep_sendsOn {s s' : Agent} {a : OutgoingAct} (hs : outgoingStep serialize s a = some s')
    (hon : s'.outgoing.sendsOn = true) :
    (s.outgoing.sendsOn = true ∧ ∃ result, a = .send result) ∨
    (a = .go ∧ s.server.manager.currentClient ≠ invalidSocket ∧
      ∃ event rest, s.outgoing = .draining (event :: rest)) := by
  have idle {pc : OutgoingPc} (hpc : pc.localQueue = []) : pc.sendsOn = false := by
    cases pc with
    | sending event rest clientSocket data totalSent => simp [OutgoingPc.localQueue] at hpc
    | _ => rfl
  cases outgoingStep_move hs with
  | quiet pc hfrom hto =>
    rw [idle hto] at hon
    simp at hon
  | @begin event rest hpc payload hser hfits =>
    refine .inr ⟨rfl, ?_, event, rest, hpc⟩
    intro hinvalid
    -- `sendData` would have refused the socket
    have hsmall : ¬ maxSize < 4 + payload.length := by
      rw [encodeMessage_length] at hfits
      omega
    have hturn : drainTurn serialize s event rest = s.afterSendData event rest invalidSocket false := by
      simp only [drainTurn, hser, encodeChecked]
      rw [if_neg hsmall]
      dsimp only
      rw [hinvalid, if_pos]
      simp
    have hgo : outgoingStep serialize s .go = some (drainTurn serialize s event rest) := by
      unfold outgoingStep
      rw [hpc]
    rw [hgo, hturn] at hs
    have hpc' := congrArg Agent.outgoing (Option.some.inj hs)
    simp only [Agent.afterSendData, reduceCtorEq] at hpc'
  | accept event rest clientSocket data totalSent count hpc hpos hcount =>
    exact .inl ⟨outgoingStep_send hs, _, rfl⟩
  | _ => simp [OutgoingPc.sendsOn, Agent.afterSendData] at hon

variable {s s' : Agent} {server : ServerState}

theorem Placed.of_calls {calls' : List SocketCall} (hp : Placed server h calls)
    (hsub : ∀ socket, .closesocket socket ∈ calls' → .closesocket socket ∈ calls) : Placed server h calls' := by
  have still {socket : Nat} (hopen : OpenSocket h calls socket) : OpenSocket h calls' socket :=
    ⟨hopen.1, fun hmem => hopen.2 (hsub socket hmem)⟩
  simp only [Placed] at hp ⊢
  cases hpc : server.pc <;> rw [hpc] at hp <;> first | exact ⟨hp.1, still hp.2.1, hp.2.2⟩ | exact hp

theorem Placed.current_open (hp : Placed server h calls) (hlive : server.pc.hasCrashed = false)
    (hvalid : server.manager.currentClient ≠ invalidSocket) : OpenSocket h calls h.current := by
  have announced (hcurrent : h.current = h.serving) (hopen : OpenSocket h calls h.serving) :
      OpenSocket h calls h.current := hcurrent ▸ hopen
  simp only [Placed] at hp
  cases hpc : server.pc with
  | handling client | receiving client | delivering client chunk | extracting client frame
  | disconnecting client =>
    rw [hpc] at hp
    exact announced hp.2.2.2.2 hp.2.1
  | crashed error => simp [hpc, ServerPc.hasCrashed] at hlive
  | storing client | connecting client | closing client =>
    rw [hpc] at hp
    exact absurd hp.2.2.2 hvalid
  | clearing =>
    rw [hpc] at hp
    exact absurd hp hvalid
  | absent | looping | accepting | finished =>
    rw [hpc] at hp
    exact absurd hp.2 hvalid

/-- `m_clientSocket` names an open socket, or none, except between `closesocket` and its
clearing. -/
theorem Placed.stored_open (hp : Placed server h calls) (hlive : server.pc.hasCrashed = false)
    (hpc : server.pc ≠ .clearing) (hvalid : server.tcp.clientSocket ≠ invalidSocket) :
    OpenSocket h calls h.stored := by
  have kept (hstored : h.stored = h.serving) (hopen : OpenSocket h calls h.serving) :
      OpenSocket h calls h.stored := hstored ▸ hopen
  simp only [Placed] at hp
  cases hserver : server.pc with
  | connecting client | handling client | receiving client | delivering client chunk
  | extracting client frame | disconnecting client | closing client =>
    rw [hserver] at hp
    exact kept hp.2.2.1.2 hp.2.1
  | crashed error => simp [hserver, ServerPc.hasCrashed] at hlive
  | clearing => exact absurd hserver hpc
  | storing client =>
    rw [hserver] at hp
    exact absurd hp.2.2.1 hvalid
  | absent | looping | accepting | finished =>
    rw [hserver] at hp
    exact absurd hp.1 hvalid

theorem Custody.server_go (hc : Custody s.server s.outgoing h calls)
    (hclose : closesNext s.server.pc = true → s.outgoing.sendsOn = true → h.sending ≠ h.serving)
    (hgo : serverGo parse s.server = some server) :
    Custody server s.outgoing (h.after s (.server .go)) (calls ++ h.calls s (.server .go)) := by
  have hw : server.tcp.Wired := serverStep_wired (a := .go) hgo hc.wired
  obtain ⟨wired, unused, closed_lt, placed, sending⟩ := hc
  -- a statement that makes no call on a socket
  have quiet (h' : Handles) (hafter : h.after s (.server .go) = h') (hcalls : h.calls s (.server .go) = [])
      (hacc : h'.accepted = h.accepted) (hsend : h'.sending = h.sending) (hplaced : Placed server h' calls) :
      Custody server s.outgoing (h.after s (.server .go)) (calls ++ h.calls s (.server .go)) := by
    rw [hafter, hcalls, List.append_nil]
    exact ⟨hw, unused, by rw [hacc]; exact closed_lt, hplaced, by rw [hsend]; exact sending⟩
  unfold Placed at placed
  unfold serverGo at hgo
  cases hpc : s.server.pc with
  | looping =>
    rw [hpc] at hgo placed
    obtain rfl := Option.some.inj hgo
    refine quiet h (by simp [Handles.after, hpc]) (by simp [Handles.calls, hpc]) rfl rfl ?_
    unfold Placed
    dsimp only
    split <;> rename_i hnext <;> split at hnext <;> simp at hnext <;> exact placed
  | storing client =>
    rw [hpc] at hgo placed
    obtain rfl := Option.some.inj hgo
    obtain ⟨hne, hopen, -, hcurrent⟩ := placed
    exact quiet { h with stored := h.serving } (by simp [Handles.after, hpc])
      (by simp [Handles.calls, hpc]) rfl rfl ⟨hne, hopen, ⟨rfl, rfl⟩, hcurrent⟩
  | connecting client =>
    rw [hpc] at hgo placed
    obtain rfl := Option.some.inj hgo
    obtain ⟨hne, hopen, hstored, -⟩ := placed
    refine quiet { h with current := h.serving } (by simp [Handles.after, hpc, wired.connected])
      (by simp [Handles.calls, hpc]) rfl rfl ?_
    simp only [Placed, ServerState.connectedCallback, wired.connected, if_true]
    exact ⟨hne, hopen, hstored, rfl, trivial⟩
  | handling client =>
    rw [hpc] at hgo placed
    obtain rfl := Option.some.inj hgo
    refine quiet h (by simp [Handles.after, hpc]) (by simp [Handles.calls, hpc]) rfl rfl ?_
    cases hrun : s.server.tcp.running <;> simpa [Placed, hrun] using placed
  | delivering client chunk =>
    rw [hpc] at hgo placed
    obtain rfl := Option.some.inj hgo
    refine quiet h (by simp [Handles.after, hpc]) (by simp [Handles.calls, hpc]) rfl rfl ?_
    simp only [ServerState.dataCallback, wired.data, if_true]
    split <;> exact placed
  | extracting client frame =>
    rw [hpc] at hgo placed
    obtain rfl := Option.some.inj hgo
    refine quiet h (by simp [Handles.after, hpc]) (by simp [Handles.calls, hpc]) rfl rfl ?_
    simp only [ServerState.extractTurn]
    split
    · trivial
    · exact placed
    · exact placed
  | disconnecting client =>
    rw [hpc] at hgo placed
    obtain rfl := Option.some.inj hgo
    obtain ⟨hne, hopen, hstored, hcurrent, -⟩ := placed
    refine quiet h (by simp [Handles.after, hpc]) (by simp [Handles.calls, hpc]) rfl rfl ?_
    simp only [Placed, ServerState.disconnectedCallback, wired.disconnected, if_true,
      NetworkManager.onClientDisconnected, hcurrent]
    exact ⟨hne, hopen, hstored, trivial⟩
  | closing client =>
    rw [hpc] at hgo placed hclose
    obtain rfl := Option.some.inj hgo
    obtain ⟨-, ⟨hlt, hopen⟩, -, hcurrent⟩ := placed
    have hafter : h.after s (.server .go) = h := by simp [Handles.after, hpc]
    have hcalls : h.calls s (.server .go) = [.closesocket h.serving] := by simp [Handles.calls, hpc]
    rw [hafter, hcalls]
    refine ⟨wired, unused.append hopen, ?_, hcurrent, ?_⟩
    · intro socket hmem
      rcases List.mem_append.mp hmem with hmem | hmem
      · exact closed_lt socket hmem
      · obtain rfl : socket = h.serving := by simpa using hmem
        exact hlt
    · intro hon hmem
      rcases List.mem_append.mp hmem with hmem | hmem
      · exact sending hon hmem
      · exact hclose rfl hon (by simpa using hmem)
  | clearing =>
    rw [hpc] at hgo placed
    obtain rfl := Option.some.inj hgo
    exact quiet h (by simp [Handles.after, hpc]) (by simp [Handles.calls, hpc]) rfl rfl ⟨rfl, placed⟩
  | _ =>
    rw [hpc] at hgo
    simp at hgo

theorem Custody.server_answer {a : ServerAct} (hc : Custody s.server s.outgoing h calls)
    (hne : a ≠ .go) (hs : serverStep parse s.server a = some server) :
    Custody server s.outgoing (h.after s (.server a)) (calls ++ h.calls s (.server a)) := by
  have hw : server.tcp.Wired := serverStep_wired hs hc.wired
  obtain ⟨wired, unused, closed_lt, placed, sending⟩ := hc
  have hcalls : h.calls s (.server a) = [] := by cases a <;> simp [Handles.calls] at hne ⊢
  rw [hcalls, List.append_nil]
  unfold Placed at placed
  cases a with
  | go => exact absurd rfl hne
  | accept client =>
    simp only [serverStep] at hs
    split at hs
    · rename_i hpc
      rw [hpc] at placed
      obtain rfl := Option.some.inj hs
      obtain ⟨hstored, hcurrent⟩ := placed
      by_cases hinvalid : client = invalidSocket
      · have hafter : h.after s (.server (.accept client)) = h := by simp [Handles.after, hinvalid]
        rw [hafter]
        refine ⟨wired, unused, closed_lt, ?_, sending⟩
        simpa [Placed, hinvalid] using ⟨hstored, hcurrent⟩
      · have hafter : h.after s (.server (.accept client)) =
            { h with accepted := h.accepted + 1, serving := h.accepted } := by simp [Handles.after, hinvalid]
        rw [hafter]
        refine ⟨wired, unused, fun socket hmem => ?_, ?_, sending⟩
        · exact Nat.lt_succ_of_lt (closed_lt socket hmem)
        · -- the new socket comes after all that were closed
          have hopen : OpenSocket { h with accepted := h.accepted + 1, serving := h.accepted } calls h.accepted :=
            ⟨Nat.lt_succ_self _, fun hmem => Nat.lt_irrefl _ (closed_lt _ hmem)⟩
          simp only [Placed, if_neg hinvalid]
          exact ⟨hinvalid, hopen, hstored, hcurrent⟩
    · simp at hs
  | recv result =>
    simp only [serverStep] at hs
    split at hs
    · rename_i client hpc
      rw [hpc] at placed
      have hafter : h.after s (.server (.recv result)) = h := by simp [Handles.after]
      rw [hafter]
      refine ⟨hw, unused, closed_lt, ?_, sending⟩
      cases result with
      | data chunk =>
        simp only [serverRecv] at hs
        split at hs
        · obtain rfl := Option.some.inj hs
          exact placed
        · simp at hs
      | closed =>
        obtain rfl := Option.some.inj hs
        exact placed
      | failed =>
        obtain rfl := Option.some.inj hs
        exact placed
    · simp at hs

theorem Custody.call {outgoing : OutgoingPc} {call : SocketCall} (hc : Custody server outgoing h calls)
    (hopen : .closesocket call.socket ∉ calls) (hcall : ∀ socket, call ≠ .closesocket socket) :
    Custody server outgoing h (calls ++ [call]) := by
  have hsub (socket : Nat) (hmem : SocketCall.closesocket socket ∈ calls ++ [call]) :
      .closesocket socket ∈ calls := by
    rcases List.mem_append.mp hmem with hmem | hmem
    · exact hmem
    · exact absurd (List.mem_singleton.mp hmem).symm (hcall socket)
  refine ⟨hc.wired, hc.unused.append hopen, ?_, hc.placed.of_calls hsub, ?_⟩
  · intro socket hmem
    exact hc.closed_lt socket (hsub socket hmem)
  · intro hon hmem
    exact hc.sending hon (hsub _ hmem)

theorem Custody.outgoing {a : OutgoingAct} (hc : Custody s.server s.outgoing h calls)
    (hlive : s.server.pc.hasCrashed = false) (hs : outgoingStep serialize s a = some s') :
    Custody s.server s'.outgoing (h.after s (.outgoing a)) (calls ++ h.calls s (.outgoing a)) := by
  cases a with
  | go =>
    have hcalls : calls ++ h.calls s (.outgoing .go) = calls := by simp [Handles.calls]
    have hsame : h.after s (.outgoing .go) = { h with sending := (h.after s (.outgoing .go)).sending } := by
      simp only [Handles.after]
      split <;> rfl
    rw [hcalls, hsame]
    refine ⟨hc.wired, hc.unused, hc.closed_lt, hc.placed, fun hon => ?_⟩
    rcases outgoingStep_sendsOn hs hon with ⟨-, result, hact⟩ | ⟨-, hvalid, event, rest, hpc⟩
    · simp at hact
    · -- the socket `sendData` is given is the current client
      simp only [Handles.after, hpc]
      exact (hc.placed.current_open hlive hvalid).2
  | send result =>
    have hcalls : h.calls s (.outgoing (.send result)) = [.send h.sending] := by simp [Handles.calls]
    have hafter : h.after s (.outgoing (.send result)) = h := by simp [Handles.after]
    have hopen : .closesocket h.sending ∉ calls := hc.sending (outgoingStep_send hs)
    rw [hcalls, hafter]
    have hcall : Custody s.server s.outgoing h (calls ++ [.send h.sending]) :=
      hc.call hopen (fun socket => by simp)
    exact ⟨hcall.wired, hcall.unused, hcall.closed_lt, hcall.placed, fun _ => by simpa using hopen⟩

theorem Custody.agent {a : AgentAct} (hc : Custody s.server s.outgoing h calls)
    (hlive : s.server.pc.hasCrashed = false)
    (hund : a = .server .go → closesNext s.server.pc = true → s.outgoing.sendsOn = true →
      h.sending ≠ h.serving)
    (hs : agentStep parse serialize s a = some s') :
    Custody s'.server s'.outgoing (h.after s a) (calls ++ h.calls s a) := by
  cases a with
  | server a =>
    obtain ⟨server, hserver, rfl⟩ := agentStep_server hs
    obtain ⟨wire, torn, hopen⟩ := s.openWire_eq a
    rw [hopen]
    by_cases hgo : a = .go
    · subst hgo
      exact hc.server_go (hund rfl) hserver
    · exact hc.server_answer hgo hserver
  | render a =>
    have hcalls : calls ++ h.calls s (.render a) = calls := by simp [Handles.calls]
    rw [hcalls]
    cases renderStep_move hs with
    | quiet => exact hc
    | pop command rest hpc hinbox => exact ⟨hc.wired, hc.unused, hc.closed_lt, hc.placed, hc.sending⟩
    | done command work events hpc hwork hids => exact hc
  | getNext =>
    have hcalls : calls ++ h.calls s .getNext = calls := by simp [Handles.calls]
    rw [hcalls]
    simp only [agentStep] at hs
    split at hs <;> obtain rfl := Option.some.inj hs <;> exact hc
  | outgoing a =>
    rw [(outgoingStep_frame hs).server]
    exact hc.outgoing hlive hs

/-! ## Runs -/

/-- The invariant of a run. -/
def SocketState.Kept (s : SocketState) : Prop :=
  Custody s.agent.server s.agent.outgoing s.handles s.calls

theorem stopStep_kept {s s' : SocketState} {a : StopAct} (hk : s.Kept)
    (hlive : s.agent.server.pc.hasCrashed = false) (hund : Undisturbed s (.stop a))
    (hs : stopStep s a = some s') : s'.Kept := by
  cases a with
  | waited timedOut =>
    simp only [stopStep] at hs
    split at hs
    · split at hs
      · obtain rfl := Option.some.inj hs
        exact hk
      · simp at hs
    · simp at hs
  | go =>
    obtain ⟨hshutting, hclosing⟩ := hund
    simp only [stopStep] at hs
    cases hpc : s.stop with
    | outside =>
      rw [hpc] at hs
      obtain rfl := Option.some.inj hs
      exact hk
    | marking =>
      rw [hpc] at hs
      obtain rfl := Option.some.inj hs
      exact ⟨⟨hk.wired.data, hk.wired.connected, hk.wired.disconnected⟩, hk.unused, hk.closed_lt, hk.placed,
        hk.sending⟩
    | shutting =>
      rw [hpc] at hs
      obtain rfl := Option.some.inj hs
      simp only [SocketState.Kept]
      by_cases hvalid : s.agent.server.tcp.clientSocket = invalidSocket
      · rw [if_neg (by simpa using hvalid), List.append_nil]
        exact hk
      · rw [if_pos hvalid]
        have hopen := hk.placed.stored_open hlive (hshutting hpc) hvalid
        exact Custody.call hk hopen.2 (fun socket => by simp)
    | waiting =>
      rw [hpc] at hs
      simp at hs
    | closing =>
      rw [hpc] at hs
      dsimp only at hs
      rw [if_neg (by simpa using hclosing hpc)] at hs
      obtain rfl := Option.some.inj hs
      exact hk

theorem socketStep_kept {s s' : SocketState} {a : SocketAct} (hk : s.Kept) (hund : Undisturbed s a)
    (hs : socketStep parse serialize s a = some s') : s'.Kept := by
  unfold socketStep at hs
  by_cases hcrash : s.agent.server.pc.hasCrashed = true
  · simp [hcrash] at hs
  · rw [if_neg hcrash] at hs
    have hlive : s.agent.server.pc.hasCrashed = false := by simpa using hcrash
    cases a with
    | agent a =>
      obtain ⟨agent, hagent, rfl⟩ := Option.map_eq_some_iff.mp hs
      apply Custody.agent hk hlive _ hagent
      rintro rfl
      exact hund
    | stop a => exact stopStep_kept hk hlive hund hs

end

/-- **A closed socket is not used**, in every interleaving of the server thread, the
outgoing thread and calls of `TcpServer::stop` whose steps are all undisturbed. -/
theorem closed_sockets_unused (parse : Bytes → Option IncomingMessage)
    (serialize : OutgoingMessage → Option Bytes) {acts : List SocketAct} {t : SocketState}
    (hrun : run (socketStep parse serialize) .boot acts = some t)
    (hund : Along (socketStep parse serialize) Undisturbed .boot acts) : UnusedAfterClose t.calls := by
  have hboot : SocketState.boot.Kept :=
    ⟨TcpServer.listening_wired, List.Pairwise.nil, by simp [SocketState.boot], ⟨rfl, rfl⟩,
      by simp [SocketState.boot, Agent.boot, OutgoingPc.sendsOn]⟩
  have hkept : t.Kept :=
    run_invariant_along (fun s a s' hk hu hs => socketStep_kept hk hu hs) hrun hund hboot
  exact hkept.unused

/-- Client 5 comes and goes; its socket is closed. -/
def comesAndGoes : List SocketAct :=
  [.go, .accept 5, .go, .go, .go, .recv .closed, .go, .go].map fun a => .agent (.server a)

/-- A call of `TcpServer::stop` up to its wait. -/
def stopCalled : List SocketAct := List.replicate 3 (.stop .go)

theorem closed_sockets_unused_cleared :
    ∃ t, run (socketStep (fun _ => none) fun _ => none) .boot
        (comesAndGoes ++ [.agent (.server .go)] ++ stopCalled ++ [.stop (.waited true), .stop .go]) = some t ∧
      UnusedAfterClose t.calls := by
  have hsome : (run (socketStep (fun _ => none) fun _ => none) .boot
      (comesAndGoes ++ [.agent (.server .go)] ++ stopCalled ++
        [.stop (.waited true), .stop .go])).isSome = true := by decide +kernel
  obtain ⟨t, hrun⟩ := Option.isSome_iff_exists.mp hsome
  exact ⟨t, hrun, closed_sockets_unused _ _ hrun (by decide +kernel)⟩

/-- **A closed socket can be used**: `stop` comes between `closesocket` and the clearing
of `m_clientSocket`, and shuts the closed socket down. -/
theorem closed_socket_used :
    ¬ ∀ parse serialize acts t, run (socketStep parse serialize) .boot acts = some t →
      UnusedAfterClose t.calls := by
  intro h
  have hend : (run (socketStep (fun _ => none) fun _ => none) .boot (comesAndGoes ++ stopCalled)).map
      (·.calls) = some [.closesocket 0, .shutdown 0] := by decide +kernel
  obtain ⟨t, hrun, hcalls⟩ := Option.map_eq_some_iff.mp hend
  have hunused := h _ _ _ t hrun
  rw [hcalls] at hunused
  revert hunused
  decide

end Icecap
