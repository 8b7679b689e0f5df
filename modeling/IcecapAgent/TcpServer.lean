import IcecapAgent.NetworkManager
import IcecapAgent.StepRun

/- The thread of the TCP server: it accepts one client at a time, announces it,
   reads from it until the connection ends, and goes back to accept the next.

   The thread is a machine (`serverStep`) that moves by one statement, so that it
   can be interleaved with the other threads; a step touches what is shared with
   them at most once. The answers of `accept` and `recv` are part of the action.
   The data callback is not one step: its entry tests `m_running` and appends the
   chunk, and then every turn of its loop extracts one frame. Run without
   interruption those steps are `onDataReceived` (`dataCallback_run`).

   A history of the sessions is kept beside the state: per session, the bytes
   passed to the data callback since the connected callback, the frames extracted
   from them and the commands pushed. -/
namespace Icecap.Transport
open StreamExtract StepRun

/-- `TcpServer`, with each callback as whether one is set. -/
structure TcpServer where
  running : Bool
  clientSocket : Socket
  dataCallback : Bool
  clientConnectedCallback : Bool
  clientDisconnectedCallback : Bool
  deriving DecidableEq, Repr

/-- As constructed. -/
def TcpServer.fresh : TcpServer := ⟨false, invalidSocket, false, false, false⟩

/-- As the manager's `startServer` leaves it. -/
def TcpServer.listening : TcpServer := ⟨true, invalidSocket, true, true, true⟩

/-- The three callbacks the server thread makes are set. -/
structure TcpServer.Wired (t : TcpServer) : Prop where
  data : t.dataCallback = true
  connected : t.clientConnectedCallback = true
  disconnected : t.clientDisconnectedCallback = true

theorem TcpServer.listening_wired : listening.Wired := ⟨rfl, rfl, rfl⟩

/-- The statement the server thread is at. -/
inductive ServerPc where
  /-- the thread does not exist yet -/
  | absent
  /-- the test of `m_running` in `serverThreadMain` -/
  | looping
  | accepting
  | storing (client : Socket)
  /-- the connected callback -/
  | connecting (client : Socket)
  /-- the test of `m_running` in `handleClient` -/
  | handling (client : Socket)
  | receiving (client : Socket)
  /-- a chunk is in the buffer of `handleClient` -/
  | delivering (client : Socket) (chunk : Bytes)
  /-- the loop of `onDataReceived`, with its local `frame` -/
  | extracting (client : Socket) (frame : Bytes)
  /-- the disconnected callback -/
  | disconnecting (client : Socket)
  | closing (client : Socket)
  | clearing
  | finished
  /-- an exception left the thread -/
  | crashed (error : StdError)
  deriving DecidableEq, Repr

/-- What `recv` answers: some bytes, the end of the connection, or an error. -/
inductive RecvResult where
  | data (chunk : Bytes)
  | closed
  | failed
  deriving DecidableEq, Repr

/-- A step of the server thread, with what the operating system answers. -/
inductive ServerAct where
  | go
  | accept (result : Socket)
  | recv (result : RecvResult)
  deriving DecidableEq, Repr

/-- One session: the bytes passed to the data callback since the connected
callback, the frames extracted from them, and the commands pushed. -/
structure Session where
  received : Bytes
  extracted : List Bytes
  pushed : List IncomingMessage
  deriving DecidableEq, Repr

def Session.new : Session := ⟨[], [], []⟩

/-- The server thread with what it works on. `session` belongs to the last
connected callback, `past` holds the sessions before. -/
structure ServerState where
  tcp : TcpServer
  manager : NetworkManager
  inbox : List IncomingMessage
  pc : ServerPc
  past : List Session
  session : Session
  deriving DecidableEq, Repr

namespace ServerState

/-- A thread that just started, for a server and a manager with empty history. -/
def boot (tcp : TcpServer) (manager : NetworkManager) (inbox : List IncomingMessage) : ServerState :=
  ⟨tcp, manager, inbox, .looping, [], .new⟩

/-- Every command pushed so far. -/
def pushed (s : ServerState) : List IncomingMessage := (s.past ++ [s.session]).flatMap (·.pushed)

/-- The connected callback, made from `serverThreadMain`: a new session begins. -/
def connectedCallback (s : ServerState) (client : Socket) : ServerState :=
  if s.tcp.clientConnectedCallback then
    { s with manager := s.manager.onClientConnected client, past := s.past ++ [s.session], session := .new }
  else s

def disconnectedCallback (s : ServerState) (client : Socket) : ServerState :=
  if s.tcp.clientDisconnectedCallback then { s with manager := s.manager.onClientDisconnected client } else s

/-- The data callback up to its loop. -/
def dataCallback (s : ServerState) (client : Socket) (chunk : Bytes) : ServerState :=
  if s.tcp.dataCallback then
    let s := { s with session := { s.session with received := s.session.received ++ chunk } }
    if !s.manager.running || chunk.length == 0 then { s with pc := .handling client }
    else
      { s with manager := s.manager.withBuffer (s.manager.receiveBuffer ++ chunk), pc := .extracting client [] }
  else { s with pc := .handling client }

/-- One turn of the loop of the data callback: extract a frame, and hand it to
`onMessageReceived` when there was one. -/
def extractTurn (parse : Bytes → Option IncomingMessage) (s : ServerState) (client : Socket)
    (frame : Bytes) : ServerState :=
  match extractFrame s.manager.receiveBuffer frame with
  | .error e => { s with pc := .crashed e }
  | .ok (false, buffer, _) => { s with manager := s.manager.withBuffer buffer, pc := .handling client }
  | .ok (true, buffer, frame) =>
    let manager := s.manager.withBuffer buffer
    { s with
      manager
      inbox := onMessageReceived parse manager s.inbox frame
      pc := .extracting client frame
      session := { s.session with
        extracted := s.session.extracted ++ [frame]
        pushed := s.session.pushed ++ (accepted parse manager frame).toList } }

end ServerState

/-- The next statement of `serverThreadMain` and what it calls, where no answer of the
operating system is awaited. -/
def serverGo (parse : Bytes → Option IncomingMessage) (s : ServerState) : Option ServerState :=
  match s.pc with
  | .looping => some { s with pc := if s.tcp.running then .accepting else .finished }
  | .storing client =>
    some { s with tcp := { s.tcp with clientSocket := client }, pc := .connecting client }
  | .connecting client => some { s.connectedCallback client with pc := .handling client }
  | .handling client =>
    some { s with pc := if s.tcp.running then .receiving client else .disconnecting client }
  | .delivering client chunk => some (s.dataCallback client chunk)
  | .extracting client frame => some (s.extractTurn parse client frame)
  | .disconnecting client => some { s.disconnectedCallback client with pc := .closing client }
  | .closing _ => some { s with pc := .clearing }
  | .clearing => some { s with tcp := { s.tcp with clientSocket := invalidSocket }, pc := .looping }
  | _ => none

/-- `recv` answers in `handleClient`, whose buffer has 4096 bytes. -/
def serverRecv (s : ServerState) (client : Socket) : RecvResult → Option ServerState
  | .data chunk =>
    if 0 < chunk.length ∧ chunk.length ≤ 4096 then some { s with pc := .delivering client chunk } else none
  | .closed => some { s with pc := .disconnecting client }
  | .failed => some { s with pc := .disconnecting client }

/-- One step of the server thread. -/
def serverStep (parse : Bytes → Option IncomingMessage) (s : ServerState) (a : ServerAct) : Option ServerState :=
  match a with
  | .go => serverGo parse s
  | .accept client =>
    match s.pc with
    | .accepting => some { s with pc := if client = invalidSocket then .finished else .storing client }
    | _ => none
  | .recv result =>
    match s.pc with
    | .receiving client => serverRecv s client result
    | _ => none

/-! ## What a step can do -/

/-- Where the thread stands in a session: between two sessions, in an open one and
outside the data callback, or in the loop of the data callback. -/
inductive Phase where
  | between
  | idle
  | draining
  deriving DecidableEq, Repr

def ServerPc.phase : ServerPc → Phase
  | .handling _ | .receiving _ | .delivering _ _ | .disconnecting _ => .idle
  | .extracting _ _ => .draining
  | _ => .between

/-- A chunk is about to be passed to the data callback. -/
def ServerPc.delivers : ServerPc → Bool
  | .delivering _ _ => true
  | _ => false

/-- An exception left the thread, which ends the process. -/
def ServerPc.hasCrashed : ServerPc → Bool
  | .crashed _ => true
  | _ => false

/-- The moves of the thread: it makes a callback, takes a turn of the loop of the
data callback, or leaves manager, inbox and history alone and stays in its phase. -/
inductive ServerMove (parse : Bytes → Option IncomingMessage) (s : ServerState) : ServerState → Prop where
  | quiet (clientSocket : Socket) (pc : ServerPc) (hpc : pc.phase = s.pc.phase) :
      ServerMove parse s { s with tcp := { s.tcp with clientSocket }, pc }
  | connect (client : Socket) (hpc : s.pc = .connecting client) :
      ServerMove parse s { s.connectedCallback client with pc := .handling client }
  | data (client : Socket) (chunk : Bytes) (hpc : s.pc = .delivering client chunk) :
      ServerMove parse s (s.dataCallback client chunk)
  | turn (client : Socket) (frame : Bytes) (hpc : s.pc = .extracting client frame) :
      ServerMove parse s (s.extractTurn parse client frame)
  | disconnect (client : Socket) (hpc : s.pc = .disconnecting client) :
      ServerMove parse s { s.disconnectedCallback client with pc := .closing client }

section
variable {parse : Bytes → Option IncomingMessage} {s s' : ServerState} {a : ServerAct}

theorem serverGo_move (h : serverGo parse s = some s') : ServerMove parse s s' := by
  have quiet (clientSocket : Socket) (pc : ServerPc) (hphase : pc.phase = s.pc.phase)
      (hs : some { s with tcp := { s.tcp with clientSocket }, pc } = some s') : ServerMove parse s s' := by
    obtain rfl := Option.some.inj hs
    exact .quiet clientSocket pc hphase
  unfold serverGo at h
  cases hpc : s.pc with
  | looping =>
    rw [hpc] at h
    exact quiet _ _ (by rw [hpc]; split <;> rfl) h
  | storing client =>
    rw [hpc] at h
    exact quiet _ _ (by rw [hpc]; rfl) h
  | connecting client =>
    rw [hpc] at h
    obtain rfl := Option.some.inj h
    exact .connect client hpc
  | handling client =>
    rw [hpc] at h
    exact quiet _ _ (by rw [hpc]; split <;> rfl) h
  | delivering client chunk =>
    rw [hpc] at h
    obtain rfl := Option.some.inj h
    exact .data client chunk hpc
  | extracting client frame =>
    rw [hpc] at h
    obtain rfl := Option.some.inj h
    exact .turn client frame hpc
  | disconnecting client =>
    rw [hpc] at h
    obtain rfl := Option.some.inj h
    exact .disconnect client hpc
  | closing client =>
    rw [hpc] at h
    exact quiet _ _ (by rw [hpc]; rfl) h
  | clearing =>
    rw [hpc] at h
    exact quiet _ _ (by rw [hpc]; rfl) h
  | _ =>
    rw [hpc] at h
    simp at h

theorem serverStep_move (h : serverStep parse s a = some s') : ServerMove parse s s' := by
  cases a with
  | go => exact serverGo_move h
  | accept client =>
    simp only [serverStep] at h
    split at h
    · rename_i hpc
      obtain rfl := Option.some.inj h
      exact .quiet _ _ (by rw [hpc]; split <;> rfl)
    · simp at h
  | recv result =>
    simp only [serverStep] at h
    split at h
    · rename_i client hpc
      have quiet (pc : ServerPc) (hphase : pc.phase = .idle) : ServerMove parse s { s with pc } :=
        .quiet _ _ (by rw [hpc]; exact hphase)
      cases result with
      | data chunk =>
        simp only [serverRecv] at h
        split at h
        · obtain rfl := Option.some.inj h
          exact quiet _ rfl
        · simp at h
      | closed =>
        obtain rfl := Option.some.inj h
        exact quiet _ rfl
      | failed =>
        obtain rfl := Option.some.inj h
        exact quiet _ rfl
    · simp at h

/-- What every step leaves alone: which callbacks are set, whether the manager runs and
what it points to. The inbox only grows, by what goes into the history of pushes. -/
structure ServerFrame (s s' : ServerState) : Prop where
  callbacks : s'.tcp.dataCallback = s.tcp.dataCallback ∧
    s'.tcp.clientConnectedCallback = s.tcp.clientConnectedCallback ∧
    s'.tcp.clientDisconnectedCallback = s.tcp.clientDisconnectedCallback
  running : s'.manager.running = s.manager.running
  pointers : s'.manager.inboxQueue = s.manager.inboxQueue ∧ s'.manager.inboxMutex = s.manager.inboxMutex
  pushes : ∃ commands, s'.inbox = s.inbox ++ commands ∧ s'.pushed = s.pushed ++ commands

theorem ServerFrame.of_still
    (hcallbacks : s'.tcp.dataCallback = s.tcp.dataCallback ∧
      s'.tcp.clientConnectedCallback = s.tcp.clientConnectedCallback ∧
      s'.tcp.clientDisconnectedCallback = s.tcp.clientDisconnectedCallback)
    (hrunning : s'.manager.running = s.manager.running)
    (hpointers : s'.manager.inboxQueue = s.manager.inboxQueue ∧ s'.manager.inboxMutex = s.manager.inboxMutex)
    (hinbox : s'.inbox = s.inbox) (hpushed : s'.pushed = s.pushed) : ServerFrame s s' :=
  ⟨hcallbacks, hrunning, hpointers, [], by rw [hinbox, List.append_nil], by rw [hpushed, List.append_nil]⟩

theorem serverStep_frame (h : serverStep parse s a = some s') : ServerFrame s s' := by
  cases serverStep_move h with
  | quiet clientSocket pc hpc => exact .of_still ⟨rfl, rfl, rfl⟩ rfl ⟨rfl, rfl⟩ rfl rfl
  | connect client hpc =>
    simp only [ServerState.connectedCallback]
    split
    · refine .of_still ⟨rfl, rfl, rfl⟩ rfl ⟨rfl, rfl⟩ rfl ?_
      simp [ServerState.pushed, Session.new]
    · exact .of_still ⟨rfl, rfl, rfl⟩ rfl ⟨rfl, rfl⟩ rfl rfl
  | data client chunk hpc =>
    unfold ServerState.dataCallback
    split
    · dsimp only
      split <;> exact .of_still ⟨rfl, rfl, rfl⟩ rfl ⟨rfl, rfl⟩ rfl (by simp [ServerState.pushed])
    · exact .of_still ⟨rfl, rfl, rfl⟩ rfl ⟨rfl, rfl⟩ rfl rfl
  | turn client frame hpc =>
    simp only [ServerState.extractTurn]
    split
    · exact .of_still ⟨rfl, rfl, rfl⟩ rfl ⟨rfl, rfl⟩ rfl rfl
    · exact .of_still ⟨rfl, rfl, rfl⟩ rfl ⟨rfl, rfl⟩ rfl rfl
    · rename_i buffer frame' _
      refine ⟨⟨rfl, rfl, rfl⟩, rfl, ⟨rfl, rfl⟩, (accepted parse s.manager frame').toList, ?_, ?_⟩
      · exact onMessageReceived_eq parse _ _ _
      · simp [ServerState.pushed]
  | disconnect client hpc =>
    simp only [ServerState.disconnectedCallback, NetworkManager.onClientDisconnected]
    split
    · dsimp only
      split <;> exact .of_still ⟨rfl, rfl, rfl⟩ rfl ⟨rfl, rfl⟩ rfl rfl
    · exact .of_still ⟨rfl, rfl, rfl⟩ rfl ⟨rfl, rfl⟩ rfl rfl

theorem serverStep_wired (h : serverStep parse s a = some s') (hw : s.tcp.Wired) : s'.tcp.Wired := by
  obtain ⟨hdata, hconnected, hdisconnected⟩ := (serverStep_frame h).callbacks
  exact ⟨hdata.trans hw.data, hconnected.trans hw.connected, hdisconnected.trans hw.disconnected⟩

theorem serverStep_serving (h : serverStep parse s a = some s') (hserv : s.manager.Serving) :
    s'.manager.Serving := by
  obtain ⟨hr, hq, hm⟩ := hserv
  have hframe := serverStep_frame h
  exact ⟨hframe.running.trans hr, hframe.pointers.1.trans hq, hframe.pointers.2.trans hm⟩

/-! ## The data callback as a whole -/

theorem serverStep_delivering {client : Socket} {chunk : Bytes} (hpc : s.pc = .delivering client chunk) :
    serverStep parse s .go = some (s.dataCallback client chunk) := by
  unfold serverStep serverGo
  rw [hpc]

theorem serverStep_extracting {client : Socket} {frame : Bytes} (hpc : s.pc = .extracting client frame) :
    serverStep parse s .go = some (s.extractTurn parse client frame) := by
  unfold serverStep serverGo
  rw [hpc]

variable (parse) in
/-- The state after a data callback from `handleClient` whose outcome is `r`. -/
def ServerState.afterCallback (s : ServerState) (client : Socket) (r : Received) : ServerState :=
  { s with
    manager := r.manager
    inbox := r.inbox
    pc := match r.error with
      | none => .handling client
      | some e => .crashed e
    session := { s.session with
      extracted := s.session.extracted ++ r.frames
      pushed := s.session.pushed ++ r.frames.filterMap (accepted parse s.manager) } }

theorem extracting_run {client : Socket} {frame : Bytes} (hpc : s.pc = .extracting client frame) :
    ∃ n, run (serverStep parse) s (List.replicate n .go) =
      some (s.afterCallback parse client (extractLoop parse s.manager s.inbox frame)) := by
  have hgo : serverStep parse s .go = some (s.extractTurn parse client frame) := serverStep_extracting hpc
  generalize hb : s.manager.receiveBuffer = buffer
  induction buffer using Extractor.drain_induction (E := frames.toExtractor) generalizing s frame with
  | more buffer hm =>
    subst hb
    refine ⟨1, ?_⟩
    rw [List.replicate_one, run, hgo, extractLoop_more hm]
    simp [ServerState.extractTurn, extractFrame_cut, show cutFrame _ = _ from hm, ServerState.afterCallback]
  | fail buffer e hf =>
    subst hb
    refine ⟨1, ?_⟩
    rw [List.replicate_one, run, hgo, extractLoop_fail hf]
    simp [ServerState.extractTurn, extractFrame_cut, show cutFrame _ = _ from hf, ServerState.afterCallback]
  | item buffer f rest hi ih =>
    subst hb
    have hturn : s.extractTurn parse client frame =
        { s with
          manager := s.manager.withBuffer rest
          inbox := onMessageReceived parse (s.manager.withBuffer rest) s.inbox f
          pc := .extracting client f
          session := { s.session with
            extracted := s.session.extracted ++ [f]
            pushed := s.session.pushed ++ (accepted parse s.manager f).toList } } := by
      simp [ServerState.extractTurn, extractFrame_cut, show cutFrame _ = _ from hi]
    have hpc' : (s.extractTurn parse client frame).pc = .extracting client f := by rw [hturn]
    obtain ⟨n, hn⟩ := ih hpc' (serverStep_extracting hpc') (by rw [hturn]; rfl)
    refine ⟨n + 1, ?_⟩
    rw [List.replicate_succ, run, hgo, Option.bind_some, hn, hturn, extractLoop_item hi]
    cases h : accepted parse s.manager f <;> simp [ServerState.afterCallback, h]

/-- **A data callback run without interruption is `onDataReceived`.** -/
theorem dataCallback_run {client : Socket} {chunk : Bytes} (hpc : s.pc = .delivering client chunk)
    (hcb : s.tcp.dataCallback = true) :
    ∃ n, run (serverStep parse) s (List.replicate n .go) =
      some ({ s with session := { s.session with received := s.session.received ++ chunk } }.afterCallback
        parse client (onDataReceived parse s.manager s.inbox (some chunk))) := by
  have hgo : serverStep parse s .go = some (s.dataCallback client chunk) := serverStep_delivering hpc
  by_cases hskip : (!s.manager.running || chunk.length == 0) = true
  · refine ⟨1, ?_⟩
    rw [List.replicate_one, run, hgo]
    simp only [ServerState.dataCallback, hcb, onDataReceived, hskip, if_true]
    simp [ServerState.afterCallback]
  · have hdata : s.dataCallback client chunk =
        { s with
          manager := s.manager.withBuffer (s.manager.receiveBuffer ++ chunk)
          pc := .extracting client []
          session := { s.session with received := s.session.received ++ chunk } } := by
      simp only [ServerState.dataCallback, hcb, if_true, if_neg hskip]
    have hpc' : (s.dataCallback client chunk).pc = .extracting client [] := by rw [hdata]
    obtain ⟨n, hn⟩ := extracting_run hpc'
    refine ⟨n + 1, ?_⟩
    rw [List.replicate_succ, run, hgo, Option.bind_some, hn, hdata]
    simp only [onDataReceived, if_neg hskip]
    rfl

end

end Icecap.Transport
