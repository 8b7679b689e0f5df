import IcecapAgent.Ledger
import IcecapAgent.StartServer

/- What the network holds of the system: Winsock, the listener, and two threads.

   `TcpServer::start` acquires Winsock, a socket and a thread one after the other, and
   `NetworkManager::startServer` a second thread; a failure on the way gives back what
   was acquired before it, each exit with its own list of calls. The value of
   `m_listenerSocket` survives such an exit although the socket is closed. `stop` and
   `stopServer` give back what a successful start acquired.

   The calls that starting and stopping make are written down in order, with what the
   system answers, and read as entries of a ledger. Those of the server thread are not among
   them. `stop` also makes two on the socket of a client, which the server thread accepted:
   of these the ledger checks only that Winsock is held (what can happen to the socket is in
   `SocketUse`).

   1. `network_balanced` — over every run of calls, whatever fails, no call is made on a
      listener, a handle or Winsock that was given back, none of them is given back twice
      and `std::terminate` is not called; a manager that does not run holds nothing, nor
      does one destroyed;
   2. `startNetwork_refines`, `stopNetwork_refines` — the calls set the flags as
      `startServer` and `stopServer` do. -/
namespace Icecap.Transport
open StepRun Ledger

/-- A `HANDLE` of the 32-bit build. -/
abbrev Handle := UInt32

/-- What is acquired and given back. -/
inductive NetworkResource where
  | winsock
  | socket (s : Socket)
  | handle (h : Handle)
  /-- the `std::thread` that sends -/
  | thread
  deriving DecidableEq, Repr

/-- A call that the network makes, and what is answered. -/
inductive NetworkCall where
  | wsaStartup (result : Int)
  | socket (result : Socket)
  | setsockopt (s : Socket)
  | bind (s : Socket) (port : UInt16) (ok : Bool)
  | listen (s : Socket) (ok : Bool)
  | closesocket (s : Socket)
  /-- `shutdown` of `m_clientSocket` -/
  | shutdownClient (s : Socket)
  /-- `closesocket` of `m_clientSocket` -/
  | closeClient (s : Socket)
  | wsaCleanup
  | createThread (result : Handle)
  | waitForSingleObject (h : Handle) (timeout : Nat)
  | closeHandle (h : Handle)
  /-- a `std::thread` is constructed -/
  | spawn (ok : Bool)
  | join
  /-- `std::terminate` -/
  | terminate
  /-- the error callback -/
  | report (error : String)
  deriving DecidableEq, Repr

/-- The entries of a call. All calls on sockets need Winsock. -/
def NetworkCall.entries : NetworkCall → List (Entry NetworkResource)
  | .wsaStartup result => if result = 0 then [.acquire .winsock] else []
  | .socket result => if result = invalidSocket then [.use .winsock] else [.use .winsock, .acquire (.socket result)]
  | .setsockopt s | .bind s _ _ | .listen s _ => [.use .winsock, .use (.socket s)]
  | .closesocket s => [.use .winsock, .release (.socket s)]
  | .shutdownClient _ | .closeClient _ => [.use .winsock]
  | .wsaCleanup => [.release .winsock]
  | .createThread result => if result = 0 then [] else [.acquire (.handle result)]
  | .waitForSingleObject h _ => [.use (.handle h)]
  | .closeHandle h => [.release (.handle h)]
  | .spawn ok => if ok then [.acquire .thread] else []
  | .join => [.release .thread]
  | .terminate | .report _ => []

/-- The manager and its server, with the members that hold resources, and the calls made
so far. -/
structure NetworkState where
  manager : NetworkManager
  tcp : TcpServer
  listenerSocket : Socket
  serverThread : Handle
  errorCallback : Bool
  /-- `m_outgoingMessageThread.joinable()` -/
  joinable : Bool
  calls : List NetworkCall
  deriving DecidableEq, Repr

/-- What the two sections of `TcpServer::stop` find in `m_clientSocket`, which the server
thread may have written just before. -/
structure StoredClients where
  shutting : Socket
  closing : Socket
  deriving DecidableEq, Repr

/-- What the system answers to one call of `startServer`. -/
structure NetworkAnswers where
  wsaStartup : Int
  socket : Socket
  bind : Bool
  listen : Bool
  createThread : Handle
  spawn : Bool
  /-- `WSAGetLastError()` or `GetLastError()` after the call that fails -/
  lastError : Int
  /-- for the `stop` after `spawn` failed -/
  stored : StoredClients
  deriving DecidableEq, Repr

namespace NetworkState

/-- As constructed. -/
def fresh : NetworkState := ⟨.fresh, .fresh, invalidSocket, 0, false, false, []⟩

def call (s : NetworkState) (c : NetworkCall) : NetworkState := { s with calls := s.calls ++ [c] }

/-- The error callback, where one is set. -/
def report (s : NetworkState) (error : String) : NetworkState :=
  if s.errorCallback then s.call (.report error) else s

def setRunning (s : NetworkState) (running : Bool) : NetworkState := { s with tcp := { s.tcp with running } }

/-- `m_running` of the manager is stored. -/
def setManaged (s : NetworkState) (running : Bool) : NetworkState := { s with manager := { s.manager with running } }

def setListenerSocket (s : NetworkState) (listenerSocket : Socket) : NetworkState := { s with listenerSocket }

def setServerThread (s : NetworkState) (serverThread : Handle) : NetworkState := { s with serverThread }

def setClientSocket (s : NetworkState) (clientSocket : Socket) : NetworkState :=
  { s with tcp := { s.tcp with clientSocket } }

/-- The queues and the callbacks are stored, as `startServer` does. -/
def wire (s : NetworkState) : NetworkState where
  manager := { s.manager with inboxQueue := true, inboxMutex := true, outboxQueue := true, outboxMutex := true }
  tcp := { s.tcp with dataCallback := true, clientConnectedCallback := true, clientDisconnectedCallback := true }
  listenerSocket := s.listenerSocket
  serverThread := s.serverThread
  errorCallback := true
  joinable := s.joinable
  calls := s.calls

/-- The callbacks are cleared, as `stopServer` does. -/
def unwire (s : NetworkState) : NetworkState where
  manager := s.manager
  tcp := { s.tcp with dataCallback := false, clientConnectedCallback := false, clientDisconnectedCallback := false }
  listenerSocket := s.listenerSocket
  serverThread := s.serverThread
  errorCallback := false
  joinable := s.joinable
  calls := s.calls

/-- The listener is closed and Winsock given back; the member keeps its value. -/
def unwind (s : NetworkState) : NetworkState := (s.call (.closesocket s.listenerSocket)).call .wsaCleanup

end NetworkState

/-- `TcpServer::start` from the options of the listener on. -/
def listenTcp (port : UInt16) (a : NetworkAnswers) (s : NetworkState) : Bool × NetworkState :=
  let s := (s.call (.setsockopt s.listenerSocket)).call (.bind s.listenerSocket port a.bind)
  if !a.bind then (false, (s.report ("bind() failed: " ++ toString a.lastError)).unwind)
  else
    let s := s.call (.listen s.listenerSocket a.listen)
    if !a.listen then (false, (s.report ("listen() failed: " ++ toString a.lastError)).unwind)
    else
      let s := ((s.setRunning true).call (.createThread a.createThread)).setServerThread a.createThread
      if s.serverThread == 0 then
        (false, ((s.report ("CreateThread failed: " ++ toString a.lastError)).setRunning false).unwind)
      else (true, s)

/-- `TcpServer::start`. -/
def startTcp (port : UInt16) (a : NetworkAnswers) (s : NetworkState) : Bool × NetworkState :=
  if s.tcp.running then (false, s.report "Server is already running")
  else
    let s := s.call (.wsaStartup a.wsaStartup)
    if a.wsaStartup != 0 then (false, s.report ("WSAStartup failed: " ++ toString a.wsaStartup))
    else
      let s := (s.call (.socket a.socket)).setListenerSocket a.socket
      if s.listenerSocket == invalidSocket then
        (false, (s.report ("socket() failed: " ++ toString a.lastError)).call .wsaCleanup)
      else listenTcp port a s

/-- The listener is closed, if there is one. -/
def closeListener (s : NetworkState) : NetworkState :=
  if s.listenerSocket != invalidSocket then
    (s.call (.closesocket s.listenerSocket)).setListenerSocket invalidSocket
  else s

/-- The server thread is waited for, five seconds at most, and its handle closed. -/
def closeThread (s : NetworkState) : NetworkState :=
  if s.serverThread != 0 then
    ((s.call (.waitForSingleObject s.serverThread 5000)).call (.closeHandle s.serverThread)).setServerThread 0
  else s

/-- The first section of `stop` under the mutex. -/
def shutdownClient (found : Socket) (s : NetworkState) : NetworkState :=
  let s := s.setClientSocket found
  if s.tcp.clientSocket != invalidSocket then s.call (.shutdownClient s.tcp.clientSocket) else s

/-- The second section of `stop` under the mutex. -/
def closeClient (found : Socket) (s : NetworkState) : NetworkState :=
  let s := s.setClientSocket found
  if s.tcp.clientSocket != invalidSocket then
    (s.call (.closeClient s.tcp.clientSocket)).setClientSocket invalidSocket
  else s

/-- `TcpServer::stop`. -/
def stopTcp (stored : StoredClients) (s : NetworkState) : NetworkState :=
  if !s.tcp.running then s
  else
    let s := shutdownClient stored.shutting (s.setRunning false)
    let s := closeThread (closeListener s)
    (closeClient stored.closing s).call .wsaCleanup

/-- A new `std::thread` is assigned to `m_outgoingMessageThread`, which must not own one. -/
def assignThread (s : NetworkState) : NetworkState :=
  { if s.joinable then s.call .terminate else s with joinable := true }

/-- `NetworkManager::startServer` once the server has started. -/
def startOutgoing (a : NetworkAnswers) (s : NetworkState) : Bool × NetworkState :=
  let s := (s.setManaged true).call (.spawn a.spawn)
  if !a.spawn then (false, stopTcp a.stored (s.setManaged false)) else (true, assignThread s)

/-- `NetworkManager::startServer`. -/
def startNetwork (port : UInt16) (a : NetworkAnswers) (s : NetworkState) : Bool × NetworkState :=
  if s.manager.running then (false, s)
  else
    let (listening, s) := startTcp port a s.wire
    if !listening then (false, s) else startOutgoing a s

/-- The outgoing thread is joined, if there is one. -/
def joinOutgoing (s : NetworkState) : NetworkState :=
  if s.joinable then { s.call .join with joinable := false } else s

/-- `NetworkManager::stopServer`. -/
def stopNetwork (stored : StoredClients) (s : NetworkState) : NetworkState :=
  if !s.manager.running then s
  else
    let s := stopTcp stored (joinOutgoing (s.setManaged false).unwire)
    { s with
      manager := { s.manager with
        currentClient := invalidSocket, receiveBuffer := []
        inboxQueue := false, outboxQueue := false, inboxMutex := false, outboxMutex := false } }

/-- `NetworkManager::~NetworkManager`, with the destructors of its members. -/
def destroyNetwork (first last : StoredClients) (s : NetworkState) : NetworkState :=
  let s := stopNetwork first s
  let s := if s.joinable then s.call .terminate else s
  stopTcp last s

inductive NetworkAct where
  | startServer (port : UInt16) (answers : NetworkAnswers)
  | stopServer (stored : StoredClients)
  /-- the server thread went on: what it left in the fields it writes -/
  | threads (clientSocket currentClient : Socket) (receiveBuffer : Bytes)

def networkStep (s : NetworkState) : NetworkAct → Option NetworkState
  | .startServer port answers => some (startNetwork port answers s).2
  | .stopServer stored => some (stopNetwork stored s)
  | .threads clientSocket currentClient receiveBuffer =>
    some { s with
      tcp := { s.tcp with clientSocket }
      manager := { s.manager with currentClient, receiveBuffer } }

/-- What a manager holds. -/
def NetworkState.holds (s : NetworkState) : Finset NetworkResource :=
  if s.manager.running then {.thread, .handle s.serverThread, .socket s.listenerSocket, .winsock} else ∅

/-! ## The books -/

/-- The calls are in order, and `held` is held after them. -/
def Booked (calls : List NetworkCall) (held : Finset NetworkResource) : Prop :=
  run enter ∅ (calls.flatMap NetworkCall.entries) = some held ∧ .terminate ∉ calls

section
variable {calls : List NetworkCall} {held held' : Finset NetworkResource} {s s' : NetworkState}

theorem booked_nil : Booked [] ∅ := ⟨rfl, List.not_mem_nil⟩

theorem Booked.call (h : Booked calls held) (c : NetworkCall) (hentries : run enter held c.entries = some held')
    (hterminate : c ≠ .terminate) : Booked (calls ++ [c]) held' := by
  obtain ⟨hrun, hclean⟩ := h
  refine ⟨?_, by simp [hclean, Ne.symm hterminate]⟩
  rw [List.flatMap_append, List.flatMap_singleton]
  exact run_append hrun hentries

@[simp] theorem call_calls (c : NetworkCall) : (s.call c).calls = s.calls ++ [c] := rfl
@[simp] theorem call_tcp (c : NetworkCall) : (s.call c).tcp = s.tcp := rfl
@[simp] theorem call_manager (c : NetworkCall) : (s.call c).manager = s.manager := rfl
@[simp] theorem call_joinable (c : NetworkCall) : (s.call c).joinable = s.joinable := rfl
@[simp] theorem call_listenerSocket (c : NetworkCall) : (s.call c).listenerSocket = s.listenerSocket := rfl

theorem report_eq (error : String) :
    s.report error = { s with calls := s.calls ++ if s.errorCallback then [.report error] else [] } := by
  rw [NetworkState.report]
  split
  · rfl
  · rw [List.append_nil]

@[simp] theorem report_tcp (error : String) : (s.report error).tcp = s.tcp := by rw [report_eq]
@[simp] theorem report_manager (error : String) : (s.report error).manager = s.manager := by rw [report_eq]
@[simp] theorem report_joinable (error : String) : (s.report error).joinable = s.joinable := by rw [report_eq]
@[simp] theorem report_listenerSocket (error : String) : (s.report error).listenerSocket = s.listenerSocket := by
  rw [report_eq]

@[simp] theorem unwind_tcp : s.unwind.tcp = s.tcp := rfl
@[simp] theorem unwind_manager : s.unwind.manager = s.manager := rfl
@[simp] theorem unwind_joinable : s.unwind.joinable = s.joinable := rfl

theorem Booked.report (h : Booked s.calls held) (error : String) : Booked (s.report error).calls held := by
  rw [NetworkState.report]
  split
  · exact h.call (.report error) rfl (by simp)
  · exact h

/-- The exits of `start` after the socket is made give back both resources. -/
theorem Booked.unwind (h : Booked s.calls {.socket s.listenerSocket, .winsock}) : Booked s.unwind.calls ∅ := by
  have hclosed : Booked (s.calls ++ [.closesocket s.listenerSocket]) {.winsock} :=
    h.call _ (by simp [NetworkCall.entries, run, enter]) (by simp)
  exact hclosed.call _ (by simp [NetworkCall.entries, run, enter]) (by simp)

/-! ## Starting and stopping -/

/-- What `TcpServer::start` does to a server that does not run: it acquires three resources
or none. -/
structure Started (s : NetworkState) (r : Bool × NetworkState) : Prop where
  booked : Booked r.2.calls (if r.1 then {.handle r.2.serverThread, .socket r.2.listenerSocket, .winsock} else ∅)
  running : r.2.tcp.running = r.1
  valid : r.1 = true → r.2.listenerSocket ≠ invalidSocket ∧ r.2.serverThread ≠ 0
  frame : r.2.manager = s.manager ∧ r.2.joinable = s.joinable

theorem Started.failed (hbooked : Booked s'.calls ∅) (hrunning : s'.tcp.running = false)
    (hframe : s'.manager = s.manager ∧ s'.joinable = s.joinable) : Started s (false, s') :=
  ⟨hbooked, hrunning, by simp, hframe⟩

theorem listenTcp_started (h : Booked s.calls {.socket s.listenerSocket, .winsock})
    (hvalid : s.listenerSocket ≠ invalidSocket) (hstopped : s.tcp.running = false) (port : UInt16)
    (a : NetworkAnswers) : Started s (listenTcp port a s) := by
  have used (s' : NetworkState) (c : NetworkCall) (hs : Booked s'.calls {.socket s.listenerSocket, .winsock})
      (hc : c.entries = [.use .winsock, .use (.socket s.listenerSocket)]) :
      Booked (s'.call c).calls {.socket s.listenerSocket, .winsock} :=
    hs.call c (by simp [hc, run, enter]) (by rintro rfl; simp [NetworkCall.entries] at hc)
  have hbound := used _ (.bind s.listenerSocket port a.bind) (used _ (.setsockopt s.listenerSocket) h rfl) rfl
  have hlistening := used _ (.listen s.listenerSocket a.listen) hbound rfl
  have hcreated (held' : Finset NetworkResource)
      (hentries : run enter {.socket s.listenerSocket, .winsock} (NetworkCall.createThread a.createThread).entries =
        some held') :=
    hlistening.call (.createThread a.createThread) hentries (by simp)
  unfold listenTcp
  dsimp only
  split
  · refine .failed (Booked.unwind ?_) (by simpa using hstopped) (by simp)
    rw [report_listenerSocket]
    exact hbound.report _
  split
  · refine .failed (Booked.unwind ?_) (by simpa using hstopped) (by simp)
    rw [report_listenerSocket]
    exact hlistening.report _
  split
  · rename_i hthread
    have hnull : a.createThread = 0 := eq_of_beq hthread
    have hmade := hcreated {.socket s.listenerSocket, .winsock} (by simp [NetworkCall.entries, hnull])
    refine .failed (Booked.unwind ?_) rfl ?_
    · dsimp only [NetworkState.setRunning]
      rw [report_listenerSocket]
      apply Booked.report
      exact hmade
    · simp [NetworkState.setRunning, NetworkState.setServerThread]
  · rename_i hthread
    have hthread : a.createThread ≠ 0 := fun hnull => hthread (beq_of_eq hnull)
    have hmade := hcreated {.handle a.createThread, .socket s.listenerSocket, .winsock}
      (by simp [NetworkCall.entries, hthread, run, enter])
    exact ⟨hmade, rfl, fun _ => ⟨hvalid, hthread⟩, rfl, rfl⟩

theorem startTcp_started (h : Booked s.calls ∅) (hstopped : s.tcp.running = false) (port : UInt16)
    (a : NetworkAnswers) : Started s (startTcp port a s) := by
  have hcall (held' : Finset NetworkResource)
      (hentries : run enter ∅ (NetworkCall.wsaStartup a.wsaStartup).entries = some held') :=
    h.call (.wsaStartup a.wsaStartup) hentries (by simp)
  unfold startTcp
  rw [if_neg (by simp [hstopped])]
  dsimp only
  split
  · rename_i hwsa
    have hfailed : a.wsaStartup ≠ 0 := by simpa using hwsa
    refine .failed (Booked.report ?_ _) (by simpa using hstopped) (by simp)
    exact hcall _ (by simp [NetworkCall.entries, hfailed])
  rename_i hwsa
  have hzero : a.wsaStartup = 0 := by simpa using hwsa
  have hwinsock := hcall {.winsock} (by simp [NetworkCall.entries, hzero, run, enter])
  split
  · rename_i hsocket
    have hinvalid : a.socket = invalidSocket := eq_of_beq hsocket
    have hmade : Booked (s.calls ++ [.wsaStartup a.wsaStartup] ++ [.socket a.socket]) {.winsock} :=
      hwinsock.call _ (by simp [NetworkCall.entries, hinvalid, run, enter]) (by simp)
    refine .failed ?_ (by simpa [NetworkState.setListenerSocket] using hstopped) (by simp [NetworkState.setListenerSocket])
    refine Booked.call (show Booked _ {.winsock} from Booked.report hmade _) .wsaCleanup ?_ (by simp)
    simp [NetworkCall.entries, run, enter]
  · rename_i hsocket
    have hvalid : a.socket ≠ invalidSocket := fun hinvalid => hsocket (beq_of_eq hinvalid)
    have hmade : Booked (s.calls ++ [.wsaStartup a.wsaStartup] ++ [.socket a.socket])
        {.socket a.socket, .winsock} :=
      hwinsock.call _ (by simp [NetworkCall.entries, hvalid, run, enter]) (by simp)
    obtain ⟨hbooked, hrunning, hvalid', hframe⟩ := listenTcp_started (s := (((s.call
      (.wsaStartup a.wsaStartup)).call (.socket a.socket)).setListenerSocket a.socket)) hmade hvalid hstopped port a
    exact ⟨hbooked, hrunning, hvalid', hframe⟩

theorem closeListener_eq (h : s.listenerSocket ≠ invalidSocket) :
    closeListener s = (s.call (.closesocket s.listenerSocket)).setListenerSocket invalidSocket :=
  if_pos (bne_iff_ne.mpr h)

theorem closeThread_eq (h : s.serverThread ≠ 0) :
    closeThread s =
      ((s.call (.waitForSingleObject s.serverThread 5000)).call (.closeHandle s.serverThread)).setServerThread 0 :=
  if_pos (bne_iff_ne.mpr h)

theorem shutdownClient_eq (found : Socket) :
    shutdownClient found s = { s.setClientSocket found with
      calls := s.calls ++ if found != invalidSocket then [.shutdownClient found] else [] } := by
  show (if found != invalidSocket then _ else _) = _
  split
  · rfl
  · rw [List.append_nil]
    rfl

theorem closeClient_eq (found : Socket) :
    closeClient found s = { s.setClientSocket invalidSocket with
      calls := s.calls ++ if found != invalidSocket then [.closeClient found] else [] } := by
  show (if found != invalidSocket then _ else _) = _
  split
  · rfl
  · rename_i hfound
    obtain rfl : found = invalidSocket := by simpa using hfound
    rw [List.append_nil]
    rfl

theorem Booked.client (h : Booked calls held) (hwinsock : .winsock ∈ held) {c : NetworkCall}
    (hc : c.entries = [.use .winsock]) (found : Socket) :
    Booked (calls ++ if found != invalidSocket then [c] else []) held := by
  split
  · refine h.call c ?_ (by rintro rfl; simp [NetworkCall.entries] at hc)
    simp [hc, run, enter, hwinsock]
  · rwa [List.append_nil]

theorem stopTcp_booked (stored : StoredClients)
    (h : Booked s.calls {.handle s.serverThread, .socket s.listenerSocket, .winsock})
    (hrunning : s.tcp.running = true) (hlistener : s.listenerSocket ≠ invalidSocket) (hthread : s.serverThread ≠ 0) :
    Booked (stopTcp stored s).calls ∅ := by
  unfold stopTcp
  rw [if_neg (by simp [hrunning]), shutdownClient_eq]
  dsimp only
  rw [closeListener_eq (by exact hlistener), closeThread_eq (by exact hthread), closeClient_eq]
  have hshut := h.client (by simp) (c := .shutdownClient stored.shutting) rfl stored.shutting
  have hclosed := hshut.call (.closesocket s.listenerSocket)
    (show run enter _ _ = some {.handle s.serverThread, .winsock} by
      simp [NetworkCall.entries, run, enter, Finset.erase_insert_of_ne]) (by simp)
  have hwaited := hclosed.call (.waitForSingleObject s.serverThread 5000)
    (show run enter _ _ = some {.handle s.serverThread, .winsock} by simp [NetworkCall.entries, run, enter])
    (by simp)
  have hended := hwaited.call (.closeHandle s.serverThread)
    (show run enter _ _ = some {.winsock} by simp [NetworkCall.entries, run, enter]) (by simp)
  have hclient := hended.client (by simp) (c := .closeClient stored.closing) rfl stored.closing
  exact hclient.call .wsaCleanup (show run enter _ _ = some ∅ by simp [NetworkCall.entries, run, enter]) (by simp)

/-- The rest of the state is left alone: the flags, the manager and the second thread. -/
def SameFlags (s s' : NetworkState) : Prop :=
  s'.tcp = s.tcp ∧ s'.manager = s.manager ∧ s'.joinable = s.joinable

theorem closeListener_flags (s : NetworkState) : SameFlags s (closeListener s) := by
  unfold closeListener
  split <;> exact ⟨rfl, rfl, rfl⟩

theorem closeThread_flags (s : NetworkState) : SameFlags s (closeThread s) := by
  unfold closeThread
  split <;> exact ⟨rfl, rfl, rfl⟩

theorem shutdownClient_flags (found : Socket) (s : NetworkState) :
    SameFlags (s.setClientSocket found) (shutdownClient found s) := by
  rw [shutdownClient_eq]
  exact ⟨rfl, rfl, rfl⟩

theorem closeClient_flags (found : Socket) (s : NetworkState) :
    SameFlags (s.setClientSocket invalidSocket) (closeClient found s) := by
  rw [closeClient_eq]
  exact ⟨rfl, rfl, rfl⟩

theorem stopTcp_flags (stored : StoredClients) (s : NetworkState) :
    (stopTcp stored s).tcp = s.tcp.stop ∧ (stopTcp stored s).manager = s.manager ∧
      (stopTcp stored s).joinable = s.joinable := by
  unfold stopTcp TcpServer.stop
  split
  · exact ⟨rfl, rfl, rfl⟩
  · dsimp only
    generalize hshut : shutdownClient stored.shutting (s.setRunning false) = s₁
    obtain ⟨htcp₁, hmanager₁, hjoinable₁⟩ := hshut ▸ shutdownClient_flags stored.shutting (s.setRunning false)
    obtain ⟨htcp₂, hmanager₂, hjoinable₂⟩ := closeListener_flags s₁
    obtain ⟨htcp₃, hmanager₃, hjoinable₃⟩ := closeThread_flags (closeListener s₁)
    obtain ⟨htcp, hmanager, hjoinable⟩ := closeClient_flags stored.closing (closeThread (closeListener s₁))
    refine ⟨?_, ?_, ?_⟩
    · rw [call_tcp, htcp]
      show { (closeThread (closeListener s₁)).tcp with clientSocket := invalidSocket } = _
      rw [htcp₃, htcp₂, htcp₁]
      rfl
    · exact hmanager.trans (hmanager₃.trans (hmanager₂.trans hmanager₁))
    · exact hjoinable.trans (hjoinable₃.trans (hjoinable₂.trans hjoinable₁))

/-- What holds between the calls of a manager: its books show what `holds` says. -/
structure NetworkState.Inv (s : NetworkState) : Prop where
  booked : Booked s.calls s.holds
  flags : s.tcp.running = s.manager.running ∧ s.joinable = s.manager.running
  valid : s.manager.running = true → s.listenerSocket ≠ invalidSocket ∧ s.serverThread ≠ 0

theorem fresh_inv : NetworkState.fresh.Inv := by
  refine ⟨booked_nil, ⟨rfl, rfl⟩, ?_⟩
  simp [NetworkState.fresh, NetworkManager.fresh]

theorem NetworkState.Inv.stopped (hbooked : Booked s.calls ∅) (hmanager : s.manager.running = false)
    (htcp : s.tcp.running = false) (hjoinable : s.joinable = false) : s.Inv := by
  refine ⟨?_, ⟨htcp.trans hmanager.symm, hjoinable.trans hmanager.symm⟩, by simp [hmanager]⟩
  rw [NetworkState.holds, hmanager]
  exact hbooked

theorem tcpStop_running (t : TcpServer) : t.stop.running = false := by
  cases h : t.running <;> simp [TcpServer.stop, h]

theorem startOutgoing_inv
    (hbooked : Booked s.calls {.handle s.serverThread, .socket s.listenerSocket, .winsock})
    (htcp : s.tcp.running = true) (hvalid : s.listenerSocket ≠ invalidSocket ∧ s.serverThread ≠ 0)
    (hjoinable : s.joinable = false) (a : NetworkAnswers) : (startOutgoing a s).2.Inv := by
  unfold startOutgoing
  dsimp only
  split
  · rename_i hspawn
    have hfailed : a.spawn = false := by simpa using hspawn
    have hmade : Booked (s.calls ++ [.spawn a.spawn]) {.handle s.serverThread, .socket s.listenerSocket, .winsock} :=
      hbooked.call _ (by simp [NetworkCall.entries, hfailed]) (by simp)
    obtain ⟨htcp', hmanager', hjoinable'⟩ :=
      stopTcp_flags a.stored (((s.setManaged true).call (.spawn a.spawn)).setManaged false)
    apply NetworkState.Inv.stopped
    · exact stopTcp_booked a.stored hmade htcp hvalid.1 hvalid.2
    · rw [hmanager']
      rfl
    · rw [htcp']
      exact tcpStop_running _
    · rw [hjoinable']
      exact hjoinable
  · rename_i hspawn
    have hmade : Booked (s.calls ++ [.spawn a.spawn])
        {.thread, .handle s.serverThread, .socket s.listenerSocket, .winsock} :=
      hbooked.call _ (by simp [NetworkCall.entries, show a.spawn = true by simpa using hspawn, run, enter]) (by simp)
    have hassign : assignThread ((s.setManaged true).call (.spawn a.spawn)) =
        { (s.setManaged true).call (.spawn a.spawn) with joinable := true } := by
      rw [assignThread, if_neg]
      show ¬ s.joinable = true
      simp [hjoinable]
    rw [hassign]
    exact ⟨hmade, ⟨htcp, rfl⟩, fun _ => hvalid⟩

theorem startNetwork_inv (h : s.Inv) (port : UInt16) (a : NetworkAnswers) : (startNetwork port a s).2.Inv := by
  unfold startNetwork
  split
  · exact h
  · rename_i hidle
    have hmanager : s.manager.running = false := by simpa using hidle
    obtain ⟨hbooked, ⟨htcp, hjoinable⟩, -⟩ := h
    rw [NetworkState.holds, hmanager] at hbooked
    rw [hmanager] at htcp hjoinable
    have hstarted := startTcp_started (s := s.wire) hbooked htcp port a
    cases hresult : startTcp port a s.wire with
    | mk listening s' =>
      rw [hresult] at hstarted
      obtain ⟨hbooked', hrunning, hvalid, hmanager', hjoinable'⟩ := hstarted
      cases listening with
      | false =>
        refine .stopped hbooked' ?_ hrunning (hjoinable'.trans hjoinable)
        exact (congrArg NetworkManager.running hmanager').trans hmanager
      | true => exact startOutgoing_inv hbooked' hrunning (hvalid rfl) (hjoinable'.trans hjoinable) a

theorem stopNetwork_inv (h : s.Inv) (stored : StoredClients) :
    (stopNetwork stored s).Inv ∧ (stopNetwork stored s).manager.running = false := by
  unfold stopNetwork
  split
  · rename_i hidle
    exact ⟨h, by simpa using hidle⟩
  · rename_i hrun
    have hmanager : s.manager.running = true := by simpa using hrun
    obtain ⟨hbooked, ⟨htcp, hjoinable⟩, hvalid⟩ := h
    rw [NetworkState.holds, hmanager] at hbooked
    rw [hmanager] at htcp hjoinable
    obtain ⟨hlistener, hthread⟩ := hvalid hmanager
    have hjoin : joinOutgoing (s.setManaged false).unwire =
        { (s.setManaged false).unwire.call .join with joinable := false } := if_pos hjoinable
    have hjoined : Booked (s.calls ++ [.join]) {.handle s.serverThread, .socket s.listenerSocket, .winsock} :=
      hbooked.call _ (by simp [NetworkCall.entries, run, enter]) (by simp)
    obtain ⟨htcp', hmanager', hjoinable'⟩ := stopTcp_flags stored (joinOutgoing (s.setManaged false).unwire)
    have hstopped : (stopTcp stored (joinOutgoing (s.setManaged false).unwire)).manager.running = false := by
      rw [hmanager', hjoin]
      rfl
    refine ⟨?_, hstopped⟩
    refine .stopped ?_ hstopped ?_ ?_
    · rw [hjoin]
      exact stopTcp_booked stored hjoined htcp hlistener hthread
    · dsimp only
      rw [htcp']
      exact tcpStop_running _
    · dsimp only
      rw [hjoinable', hjoin]

theorem networkStep_inv {a : NetworkAct} (h : s.Inv) (hs : networkStep s a = some s') : s'.Inv := by
  cases a with
  | startServer port answers =>
    obtain rfl := Option.some.inj hs
    exact startNetwork_inv h port answers
  | stopServer stored =>
    obtain rfl := Option.some.inj hs
    exact (stopNetwork_inv h stored).1
  | threads clientSocket currentClient receiveBuffer =>
    obtain rfl := Option.some.inj hs
    exact ⟨h.booked, h.flags, h.valid⟩

theorem destroyNetwork_booked (h : s.Inv) (first last : StoredClients) :
    Booked (destroyNetwork first last s).calls ∅ := by
  obtain ⟨⟨hbooked, ⟨htcp, hjoinable⟩, -⟩, hmanager⟩ := stopNetwork_inv h first
  rw [NetworkState.holds, hmanager] at hbooked
  rw [hmanager] at htcp hjoinable
  simpa [destroyNetwork, hjoinable, stopTcp, htcp] using hbooked

/-! ## The flags -/

/-- The answers as far as the flags depend on them. -/
def NetworkAnswers.flags (a : NetworkAnswers) : StartAnswers where
  listens := a.wsaStartup == 0 && a.socket != invalidSocket && a.bind && a.listen
  createsThread := a.createThread != 0
  startsOutgoing := a.spawn

theorem listenTcp_flags (hstopped : s.tcp.running = false) (port : UInt16) (a : NetworkAnswers) :
    (listenTcp port a s).1 = (a.bind && a.listen && a.createThread != 0) ∧
      (listenTcp port a s).2.tcp = { s.tcp with running := (listenTcp port a s).1 } ∧
      (listenTcp port a s).2.manager = s.manager := by
  have hsame : s.tcp = { s.tcp with running := false } := by rw [← hstopped]
  unfold listenTcp
  cases hbind : a.bind with
  | false => exact ⟨rfl, by simpa using hsame, by simp⟩
  | true =>
    cases hlisten : a.listen with
    | false => exact ⟨rfl, by simpa using hsame, by simp⟩
    | true =>
      dsimp only
      rw [if_neg (by simp), if_neg (by simp)]
      split
      · rename_i hthread
        have hnull : a.createThread = 0 := eq_of_beq hthread
        refine ⟨by simp [hnull], ?_, ?_⟩
        · simp [NetworkState.setRunning, NetworkState.setServerThread]
        · simp [NetworkState.setRunning, NetworkState.setServerThread]
      · rename_i hthread
        have hthread : a.createThread ≠ 0 := fun hnull => hthread (beq_of_eq hnull)
        exact ⟨by simp [hthread], rfl, rfl⟩

theorem tcpStart_of_stopped {tcp : TcpServer} (h : tcp.running = false) (a : StartAnswers) :
    tcp.start a = (a.listens && a.createsThread, { tcp with running := a.listens && a.createsThread }) := by
  have hsame : tcp = { tcp with running := false } := by rw [← h]
  cases hlistens : a.listens <;> cases hcreates : a.createsThread <;>
    simp [TcpServer.start, h, hlistens, hcreates, ← hsame]

theorem startTcp_refines (port : UInt16) (a : NetworkAnswers) (s : NetworkState) :
    (startTcp port a s).1 = (s.tcp.start a.flags).1 ∧ (startTcp port a s).2.tcp = (s.tcp.start a.flags).2 ∧
      (startTcp port a s).2.manager = s.manager := by
  cases hrunning : s.tcp.running with
  | true => simp [startTcp, TcpServer.start, hrunning]
  | false =>
    unfold startTcp
    rw [if_neg (by simp [hrunning])]
    dsimp only
    split
    · rename_i hwsa
      have hfailed : a.wsaStartup ≠ 0 := by simpa using hwsa
      simp [TcpServer.start, NetworkAnswers.flags, hrunning, hfailed]
    rename_i hwsa
    have hzero : a.wsaStartup = 0 := by simpa using hwsa
    split
    · rename_i hsocket
      have hinvalid : a.socket = invalidSocket := eq_of_beq hsocket
      simp [TcpServer.start, NetworkAnswers.flags, hrunning, hinvalid, NetworkState.setListenerSocket]
    · rename_i hsocket
      have hvalid : a.socket ≠ invalidSocket := fun hinvalid => hsocket (beq_of_eq hinvalid)
      obtain ⟨hresult, htcp, hmanager⟩ := listenTcp_flags (s := ((s.call
        (.wsaStartup a.wsaStartup)).call (.socket a.socket)).setListenerSocket a.socket) hrunning port a
      have hflags : (a.flags.listens && a.flags.createsThread) = (a.bind && a.listen && a.createThread != 0) := by
        show (a.wsaStartup == 0 && a.socket != invalidSocket && a.bind && a.listen && a.createThread != 0) = _
        rw [beq_of_eq hzero, bne_iff_ne.mpr hvalid]
        rfl
      rw [tcpStart_of_stopped hrunning, hflags]
      exact ⟨hresult, htcp.trans (by rw [hresult]; rfl), hmanager⟩

theorem startOutgoing_flags (a : NetworkAnswers) (s : NetworkState) :
    ((startOutgoing a s).1, (startOutgoing a s).2.manager, (startOutgoing a s).2.tcp) =
      if !a.spawn then (false, { s.manager with running := false }, s.tcp.stop)
      else (true, { s.manager with running := true }, s.tcp) := by
  obtain ⟨htcp, hmanager, -⟩ :=
    stopTcp_flags a.stored (((s.setManaged true).call (.spawn a.spawn)).setManaged false)
  unfold startOutgoing
  dsimp only
  split
  · exact Prod.ext rfl (Prod.ext hmanager htcp)
  · have hassign : (assignThread ((s.setManaged true).call (.spawn a.spawn))).manager = (s.setManaged true).manager ∧
        (assignThread ((s.setManaged true).call (.spawn a.spawn))).tcp = s.tcp := by
      unfold assignThread
      split <;> exact ⟨rfl, rfl⟩
    exact Prod.ext rfl (Prod.ext hassign.1 hassign.2)

theorem startNetwork_refines (port : UInt16) (a : NetworkAnswers) (s : NetworkState) :
    ((startNetwork port a s).1, (startNetwork port a s).2.manager, (startNetwork port a s).2.tcp) =
      startServer s.manager s.tcp a.flags := by
  obtain ⟨hresult, htcp, hmanager⟩ := startTcp_refines port a s.wire
  unfold startNetwork startServer
  cases hrunning : s.manager.running with
  | true => simp
  | false =>
    rw [if_neg (by simp), if_neg (by simp)]
    cases hstarted : startTcp port a s.wire with
    | mk listening s' =>
      rw [hstarted] at hresult htcp hmanager
      have hstart : s.wire.tcp.start a.flags = (listening, s'.tcp) := Prod.ext hresult.symm htcp.symm
      dsimp only [NetworkState.wire] at hstart ⊢
      rw [hstart]
      have hwired : s'.manager = { s.manager with
          running := false, inboxQueue := true, inboxMutex := true, outboxQueue := true, outboxMutex := true } := by
        rw [← hrunning]
        exact hmanager
      cases listening with
      | false => exact Prod.ext rfl (Prod.ext hwired rfl)
      | true =>
        refine (startOutgoing_flags a s').trans ?_
        rw [hwired]
        rfl

theorem stopNetwork_refines (stored : StoredClients) (s : NetworkState) :
    ((stopNetwork stored s).manager, (stopNetwork stored s).tcp) = stopServer s.manager s.tcp := by
  obtain ⟨htcp, hmanager, -⟩ := stopTcp_flags stored (joinOutgoing (s.setManaged false).unwire)
  have hjoin : (joinOutgoing (s.setManaged false).unwire).tcp = (s.setManaged false).unwire.tcp ∧
      (joinOutgoing (s.setManaged false).unwire).manager = (s.setManaged false).unwire.manager := by
    unfold joinOutgoing
    split <;> exact ⟨rfl, rfl⟩
  unfold stopNetwork stopServer
  split
  · rfl
  · dsimp only
    rw [htcp, hmanager, hjoin.1, hjoin.2]
    rfl

/-! ## The result -/

/-- **The books of the network balance**, over every run of `startServer` and `stopServer`
with whatever the system answers: they make no call on a listener, a handle or Winsock
that is not held, give nothing back twice, and what is held at the end is what a running
manager needs. A manager that is destroyed holds nothing. -/
theorem network_balanced {acts : List NetworkAct} {t : NetworkState} (hrun : run networkStep .fresh acts = some t) :
    Booked t.calls t.holds ∧ (∀ first last, Booked (destroyNetwork first last t).calls ∅) ∧
      ∀ r, (t.calls.flatMap NetworkCall.entries).count (.acquire r) =
        (t.calls.flatMap NetworkCall.entries).count (.release r) + if r ∈ t.holds then 1 else 0 := by
  have hinv : t.Inv := run_invariant (fun _ _ _ h hs => networkStep_inv h hs) hrun fresh_inv
  refine ⟨hinv.booked, destroyNetwork_booked hinv, fun r => ?_⟩
  simpa using run_balance hinv.booked.1 r

end

/-- The port is taken at first; then the server starts, a client comes, and it is stopped
while the client is there. -/
def portTakenFirst : List NetworkAct :=
  [.startServer 5050 ⟨0, 8, false, false, 0, false, 10048, ⟨invalidSocket, invalidSocket⟩⟩,
    .startServer 5050 ⟨0, 8, true, true, 12, true, 0, ⟨invalidSocket, invalidSocket⟩⟩, .threads 5 5 [],
    .stopServer ⟨5, invalidSocket⟩]

theorem network_balanced_portTakenFirst :
    ∃ t, run networkStep .fresh portTakenFirst = some t ∧ t.calls.count .wsaCleanup = 2 ∧
      .shutdownClient 5 ∈ t.calls ∧ Booked t.calls t.holds ∧
      (∀ first last, Booked (destroyNetwork first last t).calls ∅) ∧
      ∀ r, (t.calls.flatMap NetworkCall.entries).count (.acquire r) =
        (t.calls.flatMap NetworkCall.entries).count (.release r) + if r ∈ t.holds then 1 else 0 :=
  ⟨_, rfl, by decide +kernel, by decide +kernel,
    network_balanced (show run networkStep .fresh portTakenFirst = some _ from rfl)⟩

end Icecap.Transport
