import IcecapAgent.Sessions

/- Starting the network manager while its server thread is already alive.

   `startServer` wires the callbacks, starts the TCP server, and only then marks
   the manager as running. The TCP server does it the other way round: it stores
   its own `m_running` before it creates the thread. So the thread can accept a
   client and pass chunks to a data callback that still takes the manager for
   stopped and returns; the chunks are gone, and the rest of the stream is decoded
   from its middle.

   `BootState` is `startServer` beside the server thread, interleaved by statement.

   1. `startup_drops_chunk` — a run in which a client's first chunk is lost and
      the next is decoded as if it came first;
   2. `startup_keeps_bytes` — in every run in which no data callback is entered
      before the manager is marked as running, an open connection of a started
      manager has decoded everything passed to the data callback;
   3. `startServer_run` — undisturbed, the statements make up the function
      `startServer` that callers are given. -/
namespace Icecap.Transport
open StreamExtract StepRun

/-- The statement `startServer` is at. -/
inductive StartPc where
  /-- the test of `m_running` -/
  | entry
  /-- the queues and the callbacks are stored -/
  | wiring
  /-- `TcpServer::start` up to the store to its `m_running` -/
  | listening
  /-- `CreateThread` -/
  | creating
  /-- `m_running.store(true)` -/
  | marking
  /-- the outgoing thread is created -/
  | spawning
  /-- `m_running.store(false)` after that failed -/
  | unwinding
  /-- `TcpServer::stop` up to the wait for the thread -/
  | stopping
  | joining
  | returned (result : Bool)
  deriving DecidableEq, Repr

structure BootState where
  server : ServerState
  start : StartPc
  deriving DecidableEq, Repr

/-- A step of `startServer`, with whether what it calls succeeds, or of the server thread. -/
inductive BootAct where
  | start (ok : Bool)
  | server (a : ServerAct)
  deriving DecidableEq, Repr

/-- `startServer` is about to be called; there is no server thread. -/
def BootState.initial (tcp : TcpServer) (manager : NetworkManager) (inbox : List IncomingMessage) : BootState :=
  ⟨⟨tcp, manager, inbox, .absent, [], .new⟩, .entry⟩

/-- One statement of `NetworkManager::startServer` or of the `TcpServer::start` and
`TcpServer::stop` it calls. -/
def startStep (s : BootState) (ok : Bool) : Option BootState :=
  let server := s.server
  match s.start with
  | .entry => some { s with start := if server.manager.running then .returned false else .wiring }
  | .wiring =>
    some {
      server := { server with
        manager := { server.manager with
          inboxQueue := true, inboxMutex := true, outboxQueue := true, outboxMutex := true }
        tcp := { server.tcp with
          dataCallback := true, clientConnectedCallback := true, clientDisconnectedCallback := true } }
      start := .listening }
  | .listening =>
    -- refused when the server runs; Winsock, the socket, `bind` and `listen` can fail
    if server.tcp.running || !ok then some { s with start := .returned false }
    else some { server := { server with tcp := { server.tcp with running := true } }, start := .creating }
  | .creating =>
    if ok then some { server := { server with pc := .looping }, start := .marking }
    else
      some { server := { server with tcp := { server.tcp with running := false } }, start := .returned false }
  | .marking =>
    some { server := { server with manager := { server.manager with running := true } }, start := .spawning }
  | .spawning => some { s with start := if ok then .returned true else .unwinding }
  | .unwinding =>
    some { server := { server with manager := { server.manager with running := false } }, start := .stopping }
  | .stopping =>
    if server.tcp.running then
      some { server := { server with tcp := { server.tcp with running := false } }, start := .joining }
    else some { s with start := .returned false }
  | .joining =>
    -- the thread has ended, or the wait for it timed out
    some { server := { server with tcp := { server.tcp with clientSocket := invalidSocket } },
           start := .returned false }
  | .returned _ => none

def bootStep (parse : Bytes → Option IncomingMessage) (s : BootState) : BootAct → Option BootState
  | .start ok => startStep s ok
  | .server a => (serverStep parse s.server a).map ({ s with server := · })

/-- Everything passed to the data callback in the current connection is decoded:
the frames and the buffer are those of the whole stream, and the frames that parse
were pushed. While the callback is at work, what it has extracted and what it still
holds make up the stream. -/
def ServerState.Decodes (parse : Bytes → Option IncomingMessage) (s : ServerState) : Prop :=
  match s.pc.phase with
  | .between => True
  | .idle =>
    frames.drain s.session.received = ⟨s.session.extracted, s.manager.receiveBuffer, none⟩ ∧
      s.session.pushed = s.session.extracted.filterMap parse
  | .draining =>
    (s.session.extracted.map encodeMessage).flatten ++ s.manager.receiveBuffer = s.session.received ∧
      s.session.pushed = s.session.extracted.filterMap parse

/-! ## The invariant of start-up -/

section
variable {parse : Bytes → Option IncomingMessage} {s s' : BootState}

/-- What holds at each statement of `startServer`. -/
def BootState.Stage (parse : Bytes → Option IncomingMessage) (s : BootState) : Prop :=
  match s.start with
  | .entry | .wiring => s.server.pc = .absent ∧ s.server.Handed parse
  | .listening | .creating =>
    s.server.pc = .absent ∧ s.server.Handed parse ∧ s.server.tcp.Wired ∧
      s.server.manager.inboxQueue = true ∧ s.server.manager.inboxMutex = true
  | .marking =>
    s.server.Handed parse ∧ s.server.tcp.Wired ∧ s.server.manager.inboxQueue = true ∧
      s.server.manager.inboxMutex = true ∧ (s.server.pc.phase = .draining → s.server.manager.running = true)
  | .spawning | .returned true => s.server.Handed parse ∧ s.server.tcp.Wired ∧ s.server.manager.Serving
  | .unwinding | .stopping | .joining => s.server.tcp.Wired
  | .returned false => s.server.pc = .absent ∨ s.server.tcp.Wired

structure BootState.Inv (parse : Bytes → Option IncomingMessage) (s : BootState) : Prop where
  sound : s.server.Sound
  stage : s.Stage parse

theorem initial_inv (tcp : TcpServer) (manager : NetworkManager) (inbox : List IncomingMessage) :
    (BootState.initial tcp manager inbox).Inv parse := by
  refine ⟨⟨by simp [BootState.initial], Session.new_settled⟩, rfl, ?_⟩
  simp [ServerState.Handed, BootState.initial, Session.new]

theorem startStep_inv {ok : Bool} (h : s.Inv parse) (hs : startStep s ok = some s') : s'.Inv parse := by
  obtain ⟨⟨hpast, hcur⟩, hstage⟩ := h
  unfold startStep at hs
  unfold BootState.Stage at hstage
  cases hpc : s.start with
  | entry =>
    simp only [hpc, Option.some.injEq] at hs hstage
    subst hs
    refine ⟨⟨hpast, hcur⟩, ?_⟩
    cases s.server.manager.running with
    | true => exact .inl hstage.1
    | false => exact hstage
  | wiring =>
    simp only [hpc, Option.some.injEq] at hs hstage
    subst hs
    exact ⟨⟨hpast, hcur⟩, hstage.1, hstage.2, ⟨rfl, rfl, rfl⟩, rfl, rfl⟩
  | listening =>
    simp only [hpc] at hs hstage
    split at hs
    · obtain rfl := Option.some.inj hs
      exact ⟨⟨hpast, hcur⟩, .inl hstage.1⟩
    · obtain rfl := Option.some.inj hs
      obtain ⟨habsent, hhanded, hw, hq, hm⟩ := hstage
      exact ⟨⟨hpast, hcur⟩, habsent, hhanded, ⟨hw.data, hw.connected, hw.disconnected⟩, hq, hm⟩
  | creating =>
    simp only [hpc] at hs hstage
    obtain ⟨habsent, hhanded, hw, hq, hm⟩ := hstage
    split at hs
    · -- the thread begins here, and no session is open yet
      obtain rfl := Option.some.inj hs
      unfold ServerState.Current at hcur
      rw [habsent] at hcur
      exact ⟨⟨hpast, hcur⟩, hhanded, hw, hq, hm, fun h => by simp [ServerPc.phase] at h⟩
    · obtain rfl := Option.some.inj hs
      exact ⟨⟨hpast, hcur⟩, .inl habsent⟩
  | marking =>
    simp only [hpc, Option.some.injEq] at hs hstage
    subst hs
    obtain ⟨hhanded, hw, hq, hm, -⟩ := hstage
    exact ⟨⟨hpast, hcur⟩, hhanded, hw, rfl, hq, hm⟩
  | spawning =>
    simp only [hpc, Option.some.injEq] at hs hstage
    subst hs
    refine ⟨⟨hpast, hcur⟩, ?_⟩
    cases ok with
    | true => exact hstage
    | false => exact hstage.2.1
  | unwinding =>
    simp only [hpc, Option.some.injEq] at hs hstage
    subst hs
    exact ⟨⟨hpast, hcur⟩, hstage⟩
  | stopping =>
    simp only [hpc] at hs hstage
    split at hs
    · obtain rfl := Option.some.inj hs
      exact ⟨⟨hpast, hcur⟩, ⟨hstage.data, hstage.connected, hstage.disconnected⟩⟩
    · obtain rfl := Option.some.inj hs
      exact ⟨⟨hpast, hcur⟩, .inr hstage⟩
  | joining =>
    simp only [hpc, Option.some.injEq] at hs hstage
    subst hs
    exact ⟨⟨hpast, hcur⟩, .inr ⟨hstage.data, hstage.connected, hstage.disconnected⟩⟩
  | returned result => simp [hpc] at hs

/-- The data callback is entered only on a manager that is marked as running. -/
def EntersRunning (s : BootState) : BootAct → Prop
  | .start _ => True
  | .server _ => DeliversRunning s.server

instance (s : BootState) : DecidablePred (EntersRunning s)
  | .start _ => isTrue trivial
  | .server _ => inferInstanceAs (Decidable (DeliversRunning s.server))

theorem serverStep_absent {server : ServerState} {a : ServerAct} (h : server.pc = .absent) :
    serverStep parse server a = none := by
  unfold serverStep serverGo
  rw [h]
  cases a <;> rfl

theorem serverStep_draining {server server' : ServerState} {a : ServerAct}
    (hstep : serverStep parse server a = some server') (hrun : DeliversRunning server)
    (h : server.pc.phase = .draining → server.manager.running = true)
    (hd : server'.pc.phase = .draining) : server'.manager.running = true := by
  rw [(serverStep_frame hstep).running]
  cases serverStep_move hstep with
  | quiet clientSocket pc hpc => exact h (hpc.symm.trans hd)
  | connect client hpc => simp [ServerPc.phase] at hd
  | data client chunk hpc => exact hrun (by rw [hpc]; rfl)
  | turn client frame hpc => exact h (by rw [hpc]; rfl)
  | disconnect client hpc => simp [ServerPc.phase] at hd

theorem serverMove_inv {a : ServerAct} {server' : ServerState} (h : s.Inv parse)
    (hrun : DeliversRunning s.server) (hs : serverStep parse s.server a = some server') :
    BootState.Inv parse { s with server := server' } := by
  obtain ⟨hsound, hstage⟩ := h
  have habsent : s.server.pc ≠ .absent := by
    intro habsent
    rw [serverStep_absent habsent] at hs
    simp at hs
  unfold BootState.Stage at hstage
  have started (hh : s.server.Handed parse) (hw : s.server.tcp.Wired) (hserv : s.server.manager.Serving) :
      server'.Sound ∧ server'.Handed parse ∧ server'.tcp.Wired ∧ server'.manager.Serving :=
    ⟨serverStep_sound hw hrun hsound hs, serverStep_handed (fun _ => hserv) hh hs, serverStep_wired hs hw,
      serverStep_serving hs hserv⟩
  have failed (hw : s.server.tcp.Wired) : server'.Sound ∧ server'.tcp.Wired :=
    ⟨serverStep_sound hw hrun hsound hs, serverStep_wired hs hw⟩
  obtain ⟨server, start⟩ := s
  cases start with
  -- up to `CreateThread` there is no thread to move
  | entry => exact absurd hstage.1 habsent
  | wiring => exact absurd hstage.1 habsent
  | listening => exact absurd hstage.1 habsent
  | creating => exact absurd hstage.1 habsent
  | marking =>
    obtain ⟨hh, hw, hq, hm, hd⟩ := hstage
    obtain ⟨hq', hm'⟩ := (serverStep_frame hs).pointers
    refine ⟨serverStep_sound hw hrun hsound hs, ?_, serverStep_wired hs hw, hq'.trans hq, hm'.trans hm, ?_⟩
    · exact serverStep_handed (fun h => ⟨hd h, hq, hm⟩) hh hs
    · exact serverStep_draining hs hrun hd
  | spawning =>
    obtain ⟨hh, hw, hserv⟩ := hstage
    obtain ⟨hsound', hrest⟩ := started hh hw hserv
    exact ⟨hsound', hrest⟩
  | unwinding =>
    obtain ⟨hsound', hw'⟩ := failed hstage
    exact ⟨hsound', hw'⟩
  | stopping =>
    obtain ⟨hsound', hw'⟩ := failed hstage
    exact ⟨hsound', hw'⟩
  | joining =>
    obtain ⟨hsound', hw'⟩ := failed hstage
    exact ⟨hsound', hw'⟩
  | returned result =>
    cases result with
    | true =>
      obtain ⟨hh, hw, hserv⟩ := hstage
      obtain ⟨hsound', hrest⟩ := started hh hw hserv
      exact ⟨hsound', hrest⟩
    | false =>
      obtain ⟨hsound', hw'⟩ := failed (hstage.resolve_left habsent)
      exact ⟨hsound', .inr hw'⟩

theorem bootStep_inv {a : BootAct} (h : s.Inv parse) (hrun : EntersRunning s a)
    (hs : bootStep parse s a = some s') : s'.Inv parse := by
  cases a with
  | start ok => exact startStep_inv h hs
  | server a =>
    obtain ⟨server', hserver, rfl⟩ := Option.map_eq_some_iff.mp hs
    exact serverMove_inv h hrun hserver

theorem BootState.Inv.decodes (h : s.Inv parse) (hstart : s.start = .returned true) : s.server.Decodes parse := by
  obtain ⟨⟨-, hcur⟩, hstage⟩ := h
  simp only [BootState.Stage, hstart] at hstage
  have hhanded : s.server.session.pushed = s.server.session.extracted.filterMap parse :=
    hstage.1 _ (List.mem_append_right _ (List.mem_singleton.mpr rfl))
  unfold ServerState.Current at hcur
  simp only [ServerState.Decodes]
  cases hp : s.server.pc.phase with
  | between => trivial
  | idle =>
    simp only [hp] at hcur
    refine ⟨?_, hhanded⟩
    rw [hcur.1.drain, Extractor.drain_more hcur.2]
    simp
  | draining =>
    simp only [hp] at hcur
    exact ⟨hcur.conserved, hhanded⟩

end

/-! ## The results -/

/-- **Nothing is dropped at start-up**, in any interleaving of `startServer` with the
server thread in which no data callback is entered before the manager is marked as
running: once `startServer` returned true, an open connection is decoded from its
first byte. -/
theorem startup_keeps_bytes (parse : Bytes → Option IncomingMessage) (tcp : TcpServer)
    (manager : NetworkManager) (inbox : List IncomingMessage) {acts : List BootAct} {t : BootState}
    (hrun : run (bootStep parse) (.initial tcp manager inbox) acts = some t)
    (hmarked : Along (bootStep parse) EntersRunning (.initial tcp manager inbox) acts)
    (hstart : t.start = .returned true) : t.server.Decodes parse := by
  have hinv : t.Inv parse :=
    run_invariant_along (fun s a s' h hP hs => bootStep_inv h hP hs) hrun hmarked (initial_inv tcp manager inbox)
  exact hinv.decodes hstart

/-- `startServer` up to `m_running.store(true)`; meanwhile the server thread accepts
a client and waits for its bytes. -/
def acceptedEarly : List BootAct :=
  List.replicate 4 (.start true) ++ [.go, .accept 5, .go, .go, .go].map .server

/-- The rest of `startServer`. -/
def startReturns : List BootAct := List.replicate 2 (.start true)

/-- The client's bytes arrive when `startServer` has returned. -/
def bytesAfter : List BootAct :=
  acceptedEarly ++ startReturns ++ [.recv (.data [0, 0]), .go, .go].map .server

/-- The header of a frame arrives before `m_running.store(true)`, the payload after it. -/
def headerBefore : List BootAct :=
  acceptedEarly ++ [.recv (.data [0, 0, 0, 4]), .go].map .server ++ startReturns ++
    [.go, .recv (.data [0, 0, 0, 0]), .go, .go, .go].map .server

theorem startup_keeps_bytes_after :
    ∃ t, run (bootStep fun _ => none) (.initial .fresh .fresh []) bytesAfter = some t ∧
      t.server.Decodes fun _ => none := by
  have hrun : run (bootStep fun _ => none) (.initial .fresh .fresh []) bytesAfter =
      some ⟨⟨⟨true, 5, true, true, true⟩, ⟨true, 5, [0, 0], true, true, true, true⟩, [], .handling 5,
        [.new], ⟨[0, 0], [], []⟩⟩, .returned true⟩ := by decide +kernel
  exact ⟨_, hrun, startup_keeps_bytes (fun _ => none) .fresh .fresh [] hrun (by decide) rfl⟩

theorem headerBefore_run :
    run (bootStep fun _ => none) (.initial .fresh .fresh []) headerBefore =
      some ⟨⟨⟨true, 5, true, true, true⟩, ⟨true, 5, [], true, true, true, true⟩, [], .handling 5,
        [.new], ⟨[0, 0, 0, 4, 0, 0, 0, 0], [[]], []⟩⟩, .returned true⟩ := by decide +kernel

/-- **A chunk that comes too early is lost**: the header of a frame is dropped, and
its payload is decoded as a header. -/
theorem startup_drops_chunk :
    ¬ ∀ parse acts t, run (bootStep parse) (.initial .fresh .fresh []) acts = some t →
      t.start = .returned true → t.server.Decodes parse := by
  intro h
  have hdrain : frames.drain [0, 0, 0, 4, 0, 0, 0, 0] = ⟨[[0, 0, 0, 0]], [], none⟩ := by decide +kernel
  have hdecodes := (h _ _ _ headerBefore_run rfl).1
  rw [hdrain] at hdecodes
  simp at hdecodes

/-! ## Starting and stopping as a whole -/

/-- What the platform answers to one call of `startServer`. -/
structure StartAnswers where
  /-- Winsock, the socket, `bind` and `listen` -/
  listens : Bool
  createsThread : Bool
  startsOutgoing : Bool
  deriving DecidableEq, Repr

/-- `TcpServer::start`. -/
def TcpServer.start (t : TcpServer) (a : StartAnswers) : Bool × TcpServer :=
  if t.running then (false, t)
  else if !a.listens then (false, t)
  else
    let t := { t with running := true }
    if !a.createsThread then (false, { t with running := false }) else (true, t)

/-- `TcpServer::stop`. -/
def TcpServer.stop (t : TcpServer) : TcpServer :=
  if !t.running then t else { t with running := false, clientSocket := invalidSocket }

/-- `TcpServer::isRunning`. -/
def TcpServer.isRunning (t : TcpServer) : Bool := t.running

/-- `NetworkManager::isRunning`. -/
def NetworkManager.isRunning (m : NetworkManager) (t : TcpServer) : Bool := m.running && t.isRunning

/-- `NetworkManager::startServer`. -/
def startServer (m : NetworkManager) (t : TcpServer) (a : StartAnswers) : Bool × NetworkManager × TcpServer :=
  if m.running then (false, m, t)
  else
    let m := { m with inboxQueue := true, inboxMutex := true, outboxQueue := true, outboxMutex := true }
    let t := { t with dataCallback := true, clientConnectedCallback := true, clientDisconnectedCallback := true }
    let (listening, t) := t.start a
    if !listening then (false, m, t)
    else
      let m := { m with running := true }
      if !a.startsOutgoing then (false, { m with running := false }, t.stop) else (true, m, t)

/-- `NetworkManager::stopServer`. -/
def stopServer (m : NetworkManager) (t : TcpServer) : NetworkManager × TcpServer :=
  if !m.running then (m, t)
  else
    let t := { t with dataCallback := false, clientConnectedCallback := false, clientDisconnectedCallback := false }
    let m := { m with
      running := false, currentClient := invalidSocket, receiveBuffer := []
      inboxQueue := false, outboxQueue := false, inboxMutex := false, outboxMutex := false }
    (m, t.stop)

theorem startServer_isRunning (m : NetworkManager) (t : TcpServer) (a : StartAnswers) :
    (startServer m t a).2.1.isRunning (startServer m t a).2.2 = ((startServer m t a).1 || m.isRunning t) := by
  obtain ⟨listens, createsThread, startsOutgoing⟩ := a
  cases hm : m.running with
  | true => simp [startServer, NetworkManager.isRunning, hm]
  | false =>
    cases ht : t.running with
    | true => simp [startServer, TcpServer.start, NetworkManager.isRunning, hm, ht]
    | false =>
      cases listens <;> cases createsThread <;> cases startsOutgoing <;>
        simp [startServer, TcpServer.start, TcpServer.stop, NetworkManager.isRunning, TcpServer.isRunning, hm, ht]

theorem stopServer_isRunning (m : NetworkManager) (t : TcpServer) :
    (stopServer m t).1.isRunning (stopServer m t).2 = false := by
  cases hm : m.running <;> simp [stopServer, NetworkManager.isRunning, hm]

/-- `startServer` as a whole is its statements one after the other, when no step of the
server thread comes between them. -/
theorem startServer_run (parse : Bytes → Option IncomingMessage) (m : NetworkManager) (t : TcpServer)
    (inbox : List IncomingMessage) (a : StartAnswers) :
    ∃ (oks : List Bool) (s : BootState), run (bootStep parse) (.initial t m inbox) (oks.map .start) = some s ∧
      s.start = .returned (startServer m t a).1 ∧ (s.server.manager, s.server.tcp) = (startServer m t a).2 := by
  obtain ⟨running, client, buffer, iq, im, oq, om⟩ := m
  obtain ⟨tcpRunning, tcpClient, data, connected, disconnected⟩ := t
  obtain ⟨listens, createsThread, startsOutgoing⟩ := a
  cases running with
  | true => exact ⟨[true], _, rfl, rfl, rfl⟩
  | false =>
    cases tcpRunning with
    | true => exact ⟨[true, true, true], _, rfl, rfl, rfl⟩
    | false =>
      cases listens with
      | false => exact ⟨[true, true, false], _, rfl, rfl, rfl⟩
      | true =>
        cases createsThread with
        | false => exact ⟨[true, true, true, false], _, rfl, rfl, rfl⟩
        | true =>
          cases startsOutgoing with
          | false => exact ⟨[true, true, true, true, true, false, true, true, true], _, rfl, rfl, rfl⟩
          | true => exact ⟨[true, true, true, true, true, true], _, rfl, rfl, rfl⟩

end Icecap.Transport
