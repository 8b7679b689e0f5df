import IcecapAgent.StartServer

/- Whether a server that says that it runs still serves.

   `m_running` of the TCP server is set by `start` and reset by `stop`. Its thread leaves
   the accept loop by itself when `accept` answers `INVALID_SOCKET`, and an exception
   leaves it when a client's header makes `extractFrame` throw; neither resets the flag,
   so `isRunning` goes on saying true with nobody left to accept. A chunk always fits
   `m_receiveBuffer`: an exception of `append` would end the thread as well.

   1. `serving_iff` — in a run of `startServer` beside the server thread, the thread of
      every started server is in its loop exactly when neither of the two happens;
   2. `serving_ends` — one failure of `accept`;
   3. `crash_iff_malformed` — which clients end the thread with an exception: those whose
      bytes are whole frames followed by a header that does not fit. -/
namespace Icecap.Transport
open StreamExtract StepRun

/-- The thread is inside the accept loop or in the handling of a client. -/
def ServerPc.inLoop : ServerPc → Bool
  | .absent | .finished | .crashed _ => false
  | _ => true

/-- `TcpServer::start` returned true, and `TcpServer::stop` was not called since. -/
def StartPc.started : StartPc → Bool
  | .marking | .spawning | .unwinding | .stopping | .returned true => true
  | _ => false

/-- A started server says that it runs, and its thread is in the loop. -/
def BootState.Serving (s : BootState) : Prop :=
  s.start.started = true → s.server.tcp.isRunning = true ∧ s.server.pc.inLoop = true

/-- The step leads to a state where a started server serves. -/
def StaysServing (parse : Bytes → Option IncomingMessage) (s : BootState) (a : BootAct) : Prop :=
  ∀ s', bootStep parse s a = some s' → s'.Serving

/-- While the server is started, `accept` answers a socket, and `extractFrame` is not
called on a header that makes it throw. -/
def Endures (s : BootState) : BootAct → Prop
  | .server (.accept client) => s.start.started = true → s.server.pc = .accepting → client ≠ invalidSocket
  | .server .go =>
    s.start.started = true → s.server.pc.phase = .draining → HeaderFits s.server.manager.receiveBuffer
  | _ => True

/-! ## The server thread -/

section
variable {parse : Bytes → Option IncomingMessage} {server server' : ServerState} {a : ServerAct}

theorem serverStep_tcpRunning (h : serverStep parse server a = some server') :
    server'.tcp.running = server.tcp.running := by
  cases serverStep_move h with
  | quiet clientSocket pc hpc => rfl
  | connect client hpc =>
    unfold ServerState.connectedCallback
    split <;> rfl
  | data client chunk hpc =>
    unfold ServerState.dataCallback
    dsimp only
    split
    · split <;> rfl
    · rfl
  | turn client frame hpc =>
    unfold ServerState.extractTurn
    split <;> rfl
  | disconnect client hpc =>
    unfold ServerState.disconnectedCallback
    split <;> rfl

theorem extractTurn_inLoop (client : Socket) (frame : Bytes) :
    (server.extractTurn parse client frame).pc.inLoop = true ↔ HeaderFits server.manager.receiveBuffer := by
  unfold ServerState.extractTurn
  by_cases hfits : HeaderFits server.manager.receiveBuffer
  · rw [extractFrame_of_fits hfits, extracted]
    split_ifs
    · exact iff_of_true rfl hfits
    · exact iff_of_true rfl hfits
  · rw [extractFrame_of_not_fits hfits]
    exact iff_of_false (by simp [ServerPc.inLoop]) hfits

/-- While the server runs, only the extraction loop can end the thread by itself. -/
theorem serverGo_inLoop (hrun : server.tcp.running = true) (h : serverGo parse server = some server') :
    server'.pc.inLoop = true ↔ (server.pc.phase = .draining → HeaderFits server.manager.receiveBuffer) := by
  have stays (hpc : server.pc.phase ≠ .draining) (hpc' : server'.pc.inLoop = true) :
      server'.pc.inLoop = true ↔ (server.pc.phase = .draining → HeaderFits server.manager.receiveBuffer) :=
    iff_of_true hpc' fun hdraining => absurd hdraining hpc
  unfold serverGo at h
  cases hpc : server.pc with
  | looping =>
    rw [hpc] at h stays
    obtain rfl := Option.some.inj h
    exact stays (by simp [ServerPc.phase]) (by rw [hrun]; rfl)
  | storing client =>
    rw [hpc] at h stays
    obtain rfl := Option.some.inj h
    exact stays (by simp [ServerPc.phase]) rfl
  | connecting client =>
    rw [hpc] at h stays
    obtain rfl := Option.some.inj h
    exact stays (by simp [ServerPc.phase]) rfl
  | handling client =>
    rw [hpc] at h stays
    obtain rfl := Option.some.inj h
    exact stays (by simp [ServerPc.phase]) (by rw [hrun]; rfl)
  | delivering client chunk =>
    rw [hpc] at h stays
    obtain rfl := Option.some.inj h
    refine stays (by simp [ServerPc.phase]) ?_
    unfold ServerState.dataCallback
    dsimp only
    split
    · split <;> rfl
    · rfl
  | extracting client frame =>
    -- the only statement that can end the thread with an exception
    rw [hpc] at h
    obtain rfl := Option.some.inj h
    rw [extractTurn_inLoop]
    simp [ServerPc.phase]
  | disconnecting client =>
    rw [hpc] at h stays
    obtain rfl := Option.some.inj h
    exact stays (by simp [ServerPc.phase]) rfl
  | closing client =>
    rw [hpc] at h stays
    obtain rfl := Option.some.inj h
    exact stays (by simp [ServerPc.phase]) rfl
  | clearing =>
    rw [hpc] at h stays
    obtain rfl := Option.some.inj h
    exact stays (by simp [ServerPc.phase]) rfl
  | _ =>
    rw [hpc] at h
    simp at h

theorem serverAccept_inLoop {client : Socket} (h : serverStep parse server (.accept client) = some server') :
    server'.pc.inLoop = true ↔ client ≠ invalidSocket := by
  simp only [serverStep] at h
  split at h
  · obtain rfl := Option.some.inj h
    dsimp only
    split
    · rename_i hinvalid
      exact iff_of_false (by simp [ServerPc.inLoop]) (not_not.mpr hinvalid)
    · rename_i hvalid
      exact iff_of_true rfl hvalid
  · simp at h

theorem serverRecv_inLoop {result : RecvResult} (h : serverStep parse server (.recv result) = some server') :
    server'.pc.inLoop = true := by
  simp only [serverStep] at h
  split at h
  · cases result with
    | data chunk =>
      simp only [serverRecv] at h
      split at h
      · obtain rfl := Option.some.inj h
        rfl
      · simp at h
    | closed =>
      obtain rfl := Option.some.inj h
      rfl
    | failed =>
      obtain rfl := Option.some.inj h
      rfl
  · simp at h

end

/-! ## `startServer` beside it -/

section
variable {parse : Bytes → Option IncomingMessage} {s s' : BootState}

/-- What holds as long as the thread endures: `start` sets `m_running` before it makes
the thread. -/
structure BootState.Kept (s : BootState) : Prop where
  creating : s.start = .creating → s.server.tcp.running = true
  serving : s.Serving

theorem BootState.Kept.of_unstarted (hcreating : s.start ≠ .creating) (hstarted : s.start.started = false) : s.Kept := by
  refine ⟨fun h => absurd h hcreating, ?_⟩
  intro h
  rw [hstarted] at h
  simp at h

theorem startStep_kept {ok : Bool} (h : s.Kept) (hs : startStep s ok = some s') : s'.Kept := by
  obtain ⟨hcreating, hserving⟩ := h
  unfold startStep at hs
  unfold BootState.Serving at hserving
  cases hpc : s.start with
  | entry =>
    simp only [hpc, Option.some.injEq] at hs
    subst hs
    cases s.server.manager.running with
    | true => exact .of_unstarted (by simp) rfl
    | false => exact .of_unstarted (by simp) rfl
  | wiring =>
    simp only [hpc, Option.some.injEq] at hs
    subst hs
    exact .of_unstarted (by simp) rfl
  | listening =>
    simp only [hpc] at hs
    split at hs
    · obtain rfl := Option.some.inj hs
      exact .of_unstarted (by simp) rfl
    · obtain rfl := Option.some.inj hs
      exact ⟨fun _ => rfl, by simp [BootState.Serving, StartPc.started]⟩
  | creating =>
    simp only [hpc] at hs
    split at hs
    · obtain rfl := Option.some.inj hs
      exact ⟨by simp, fun _ => ⟨hcreating hpc, rfl⟩⟩
    · obtain rfl := Option.some.inj hs
      exact .of_unstarted (by simp) rfl
  | marking =>
    rw [hpc] at hserving
    simp only [hpc, Option.some.injEq] at hs
    subst hs
    exact ⟨by simp, fun _ => hserving rfl⟩
  | spawning =>
    rw [hpc] at hserving
    simp only [hpc, Option.some.injEq] at hs
    subst hs
    cases ok <;> exact ⟨by simp, fun _ => hserving rfl⟩
  | unwinding =>
    rw [hpc] at hserving
    simp only [hpc, Option.some.injEq] at hs
    subst hs
    exact ⟨by simp, fun _ => hserving rfl⟩
  | stopping =>
    simp only [hpc] at hs
    split at hs
    · obtain rfl := Option.some.inj hs
      exact .of_unstarted (by simp) rfl
    · obtain rfl := Option.some.inj hs
      exact .of_unstarted (by simp) rfl
  | joining =>
    simp only [hpc, Option.some.injEq] at hs
    subst hs
    exact .of_unstarted (by simp) rfl
  | returned result => simp [hpc] at hs

theorem serving_server_iff {server' : ServerState} {a : ServerAct} (h : s.Kept)
    (hs : serverStep parse s.server a = some server') :
    BootState.Serving { s with server := server' } ↔ (s.start.started = true → server'.pc.inLoop = true) := by
  refine ⟨fun hserving hstart => (hserving hstart).2, fun hloop hstart => ⟨?_, hloop hstart⟩⟩
  exact (serverStep_tcpRunning hs).trans (h.serving hstart).1

theorem staysServing_server_iff {a : ServerAct} (h : s.Kept) :
    StaysServing parse s (.server a) ↔
      ∀ server', serverStep parse s.server a = some server' → s.start.started = true → server'.pc.inLoop = true := by
  refine ⟨?_, ?_⟩
  · intro hstays server' hs
    exact (serving_server_iff h hs).mp (hstays _ (by rw [bootStep, hs]; rfl))
  · intro hloop s' hboot
    obtain ⟨server', hs, rfl⟩ := Option.map_eq_some_iff.mp hboot
    exact (serving_server_iff h hs).mpr (hloop server' hs)

theorem staysServing_iff_endures (h : s.Kept) (a : BootAct) : StaysServing parse s a ↔ Endures s a := by
  cases a with
  | start ok => exact iff_of_true (fun s' hs => (startStep_kept h hs).serving) trivial
  | server a =>
    rw [staysServing_server_iff h]
    cases a with
    | accept client =>
      refine ⟨?_, ?_⟩
      · intro hloop hstart hpc
        have hs : serverStep parse s.server (.accept client) =
            some { s.server with pc := if client = invalidSocket then .finished else .storing client } := by
          simp only [serverStep, hpc]
        exact (serverAccept_inLoop hs).mp (hloop _ hs hstart)
      · intro hendures server' hs hstart
        have hpc : s.server.pc = .accepting := by
          by_contra hne
          simp [serverStep] at hs
        exact (serverAccept_inLoop hs).mpr (hendures hstart hpc)
    | recv result => exact iff_of_true (fun server' hs _ => serverRecv_inLoop hs) trivial
    | go =>
      refine ⟨?_, ?_⟩
      · intro hloop hstart hdraining
        obtain ⟨client, frame, hpc⟩ : ∃ client frame, s.server.pc = .extracting client frame := by
          cases hpc : s.server.pc <;> simp_all [ServerPc.phase]
        have hs : serverStep parse s.server .go = some (s.server.extractTurn parse client frame) :=
          serverStep_extracting hpc
        exact (serverGo_inLoop (h.serving hstart).1 hs).mp (hloop _ hs hstart) hdraining
      · intro hendures server' hs hstart
        exact (serverGo_inLoop (h.serving hstart).1 hs).mpr (hendures hstart)

theorem bootStep_kept {a : BootAct} (h : s.Kept) (he : Endures s a) (hs : bootStep parse s a = some s') : s'.Kept := by
  refine ⟨?_, (staysServing_iff_endures h a).mpr he s' hs⟩
  cases a with
  | start ok => exact (startStep_kept h hs).creating
  | server a =>
    obtain ⟨server', hserver, rfl⟩ := Option.map_eq_some_iff.mp hs
    exact fun hpc => (serverStep_tcpRunning hserver).trans (h.creating hpc)

end

/-! ## The results -/

/-- **A running server serves**: in a run of `startServer` beside the server thread,
every state in which `TcpServer::start` has returned true and `stop` was not called has
the thread in its loop, exactly when meanwhile `accept` answers sockets only and
`extractFrame` meets no header that makes it throw. -/
theorem serving_iff (parse : Bytes → Option IncomingMessage) (tcp : TcpServer) (manager : NetworkManager)
    (inbox : List IncomingMessage) (acts : List BootAct) :
    Along (bootStep parse) (StaysServing parse) (.initial tcp manager inbox) acts ↔
      Along (bootStep parse) Endures (.initial tcp manager inbox) acts :=
  along_congr (fun _ _ _ h he hs => bootStep_kept h he hs) (fun _ a h => staysServing_iff_endures h a)
    ⟨by simp [BootState.initial], by simp [BootState.Serving, BootState.initial, StartPc.started]⟩ acts

/-- The server is started, and the first `accept` fails. -/
def acceptFails : List BootAct := List.replicate 6 (.start true) ++ [.server .go, .server (.accept invalidSocket)]

/-- **The thread ends and the server goes on saying that it runs.** -/
theorem serving_ends :
    (¬ ∀ parse acts, Along (bootStep parse) (StaysServing parse) (.initial .fresh .fresh []) acts) ∧
      ∃ t, run (bootStep fun _ => none) (.initial .fresh .fresh []) acceptFails = some t ∧
        t.start = .returned true ∧ t.server.pc = .finished ∧ t.server.manager.isRunning t.server.tcp = true := by
  have hrun : run (bootStep fun _ => none) (.initial .fresh .fresh []) acceptFails =
      some ⟨⟨⟨true, invalidSocket, true, true, true⟩, .started, [], .finished, [], .new⟩, .returned true⟩ := by
    decide +kernel
  refine ⟨fun h => ?_, _, hrun, rfl, rfl, rfl⟩
  have hserving : BootState.Serving _ :=
    run_invariant_along (fun _ _ s' _ hstays hs => hstays s' hs) hrun (h _ _)
      (by simp [BootState.Serving, BootState.initial, StartPc.started])
  exact absurd (hserving rfl).2 (by decide)

/-! ## The bytes that end the thread -/

/-- Whole frames, and then a header that makes a sum of more than 32 bits, or whose
payload is there and longer than a string can be. -/
def Malformed (bytes : Bytes) : Prop :=
  ∃ (payloads : List Bytes) (rest : Bytes), (∀ p ∈ payloads, p.length ≤ maxSize) ∧
    bytes = (payloads.map encodeMessage).flatten ++ rest ∧ ¬ HeaderFits rest

theorem cutFrame_of_not_fits {buffer : Bytes} (h : ¬ HeaderFits buffer) : cutFrame buffer = .fail .lengthError := by
  simp only [HeaderFits, not_or, not_and_or] at h
  exact cutFrame_of_overlong (by omega) (by omega)

theorem drain_items_fit (bytes : Bytes) : ∀ p ∈ (frames.drain bytes).items, p.length ≤ maxSize := by
  induction bytes using Extractor.drain_induction (E := frames.toExtractor) with
  | more buf hm => simp [Extractor.drain_more hm]
  | fail buf e hf => simp [Extractor.drain_fail hf]
  | item buf b rest hi ih =>
    rw [Extractor.drain_item hi]
    obtain ⟨-, hmax, rfl, -⟩ := cutFrame_item hi
    intro p hp
    rcases List.mem_cons.mp hp with rfl | hp
    · exact Nat.le_trans (List.length_take_le _ _) hmax
    · exact ih p hp

theorem drain_error_iff (bytes : Bytes) : (frames.drain bytes).error ≠ none ↔ Malformed bytes := by
  refine ⟨?_, ?_⟩
  · intro herror
    obtain ⟨e, he⟩ := Option.ne_none_iff_exists'.mp herror
    have hconserved : ((frames.drain bytes).items.map encodeMessage).flatten ++ (frames.drain bytes).rest = bytes :=
      Framing.drain_conserves (F := frames) bytes
    have hcut : cutFrame (frames.drain bytes).rest = .fail e := Extractor.cut_drain_rest_fail bytes he
    refine ⟨_, _, drain_items_fit bytes, hconserved.symm, ?_⟩
    intro hfits
    have hextract := extractFrame_of_fits hfits []
    rw [extractFrame_cut, hcut] at hextract
    simp at hextract
  · rintro ⟨payloads, rest, hfits, rfl, hrest⟩
    have hfail : (frames.drain rest).error = some .lengthError := by
      rw [Extractor.drain_fail (cutFrame_of_not_fits hrest)]
    have hdrain : frames.drain ((payloads.map encodeMessage).flatten ++ rest) = _ :=
      Framing.drain_encode_append (F := frames) payloads hfits rest
    rw [hdrain, hfail]
    simp

section
variable {parse : Bytes → Option IncomingMessage} {s s' : ServerState} {a : ServerAct}

/-- Outside a session the thread has crashed exactly when the last session was malformed. -/
def ServerState.CrashKnown (s : ServerState) : Prop :=
  s.pc.phase = .between → (s.pc.hasCrashed = true ↔ (frames.drain s.session.received).error ≠ none)

theorem serverStep_hasCrashed (h : serverStep parse s a = some s') :
    s.pc.hasCrashed = false ∧ (s'.pc.hasCrashed = true → s.pc.phase = .draining) := by
  have quiet (pc : ServerPc) (hfrom : s.pc.hasCrashed = false) (hto : pc.hasCrashed = false) (hpc : s'.pc = pc) :
      s.pc.hasCrashed = false ∧ (s'.pc.hasCrashed = true → s.pc.phase = .draining) := by
    refine ⟨hfrom, fun hcrashed => ?_⟩
    rw [hpc, hto] at hcrashed
    simp at hcrashed
  cases a with
  | go =>
    change serverGo parse s = some s' at h
    unfold serverGo at h
    cases hpc : s.pc with
    | delivering client chunk =>
      rw [hpc] at h quiet
      obtain rfl := Option.some.inj h
      apply quiet _ rfl _ rfl
      unfold ServerState.dataCallback
      dsimp only
      split
      · split <;> rfl
      · rfl
    | extracting client frame => exact ⟨rfl, fun _ => rfl⟩
    | looping =>
      rw [hpc] at h quiet
      obtain rfl := Option.some.inj h
      exact quiet _ rfl (by split <;> rfl) rfl
    | handling client =>
      rw [hpc] at h quiet
      obtain rfl := Option.some.inj h
      exact quiet _ rfl (by split <;> rfl) rfl
    | storing client =>
      rw [hpc] at h quiet
      obtain rfl := Option.some.inj h
      exact quiet _ rfl rfl rfl
    | connecting client =>
      rw [hpc] at h quiet
      obtain rfl := Option.some.inj h
      exact quiet _ rfl rfl rfl
    | disconnecting client =>
      rw [hpc] at h quiet
      obtain rfl := Option.some.inj h
      exact quiet _ rfl rfl rfl
    | closing client =>
      rw [hpc] at h quiet
      obtain rfl := Option.some.inj h
      exact quiet _ rfl rfl rfl
    | clearing =>
      rw [hpc] at h quiet
      obtain rfl := Option.some.inj h
      exact quiet _ rfl rfl rfl
    | _ =>
      rw [hpc] at h
      simp at h
  | accept client =>
    simp only [serverStep] at h
    split at h
    · rename_i hpc
      obtain rfl := Option.some.inj h
      exact quiet _ (by rw [hpc]; rfl) (by split <;> rfl) rfl
    · simp at h
  | recv result =>
    simp only [serverStep] at h
    split at h
    · rename_i client hpc
      cases result with
      | data chunk =>
        simp only [serverRecv] at h
        split at h
        · obtain rfl := Option.some.inj h
          exact quiet _ (by rw [hpc]; rfl) rfl rfl
        · simp at h
      | closed =>
        obtain rfl := Option.some.inj h
        exact quiet _ (by rw [hpc]; rfl) rfl rfl
      | failed =>
        obtain rfl := Option.some.inj h
        exact quiet _ (by rw [hpc]; rfl) rfl rfl
    · simp at h

/-- In an open session that waits for bytes nothing malformed has arrived. -/
theorem Session.Reads.no_error {σ : Session} {buffer : Bytes} (h : σ.Reads buffer) (hmore : cutFrame buffer = .more) :
    (frames.drain σ.received).error = none := by
  rw [h.drain, Extractor.drain_more hmore]

theorem serverStep_crashKnown (hsound : s.Sound) (h : s.CrashKnown) (hs : serverStep parse s a = some s') :
    s'.CrashKnown := by
  obtain ⟨hfrom, hto⟩ := serverStep_hasCrashed hs
  have calm (hphase : s.pc.phase ≠ .draining) (herror : (frames.drain s'.session.received).error = none) :
      s'.pc.hasCrashed = true ↔ (frames.drain s'.session.received).error ≠ none :=
    iff_of_false (fun hcrashed => hphase (hto hcrashed)) (fun hne => hne herror)
  have hcur := hsound.current
  intro hbetween
  cases serverStep_move hs with
  | quiet clientSocket pc hpc =>
    have hphase : s.pc.phase = .between := hpc.symm.trans hbetween
    apply calm (by rw [hphase]; simp)
    by_contra hne
    have hcrashed := (h hphase).mpr hne
    rw [hfrom] at hcrashed
    simp at hcrashed
  | connect client hpc => simp [ServerPc.phase] at hbetween
  | data client chunk hpc =>
    exfalso
    revert hbetween
    unfold ServerState.dataCallback
    dsimp only
    split
    · split <;> simp [ServerPc.phase]
    · simp [ServerPc.phase]
  | turn client frame hpc =>
    have hreads : s.session.Reads s.manager.receiveBuffer := by
      simpa [ServerState.Current, hpc, ServerPc.phase] using hcur
    rw [ServerState.extractTurn, extractFrame_cut] at hbetween ⊢
    cases hcut : cutFrame s.manager.receiveBuffer with
    | more => simp [hcut, ServerPc.phase] at hbetween
    | item f rest => simp [hcut, ServerPc.phase] at hbetween
    | fail e =>
      dsimp only
      rw [hreads.drain, Extractor.drain_fail hcut]
      simp [ServerPc.hasCrashed]
  | disconnect client hpc =>
    obtain ⟨hreads, hmore⟩ : s.session.Reads s.manager.receiveBuffer ∧ cutFrame s.manager.receiveBuffer = .more := by
      simpa [ServerState.Current, hpc, ServerPc.phase] using hcur
    apply calm (by rw [hpc]; simp [ServerPc.phase])
    have hsession : (s.disconnectedCallback client).session = s.session := by
      unfold ServerState.disconnectedCallback
      split <;> rfl
    rw [hsession]
    exact hreads.no_error hmore

end

/-- **What ends the thread with an exception**: for every run of the server thread over
any number of clients and any cutting of their streams, while the manager serves and
outside the data callback, the thread has died exactly when the bytes its last client
sent are whole frames followed by a header that does not fit. -/
theorem crash_iff_malformed (parse : Bytes → Option IncomingMessage) {tcp : TcpServer} {manager : NetworkManager}
    (hw : tcp.Wired) (hserv : manager.Serving) (inbox : List IncomingMessage) {acts : List ServerAct}
    {t : ServerState} (hrun : run (serverStep parse) (.boot tcp manager inbox) acts = some t)
    (hphase : t.pc.phase ≠ .draining) : t.pc.hasCrashed = true ↔ Malformed t.session.received := by
  let Inv (s : ServerState) : Prop := s.tcp.Wired ∧ s.manager.Serving ∧ s.Sound ∧ s.CrashKnown
  have hstep : ∀ s a s', Inv s → serverStep parse s a = some s' → Inv s' := by
    intro s a s' ⟨hw, hserv, hsound, hknown⟩ hs
    exact ⟨serverStep_wired hs hw, serverStep_serving hs hserv, serverStep_sound hw (fun _ => hserv.1) hsound hs,
      serverStep_crashKnown hsound hknown hs⟩
  have hboot : Inv (.boot tcp manager inbox) := by
    refine ⟨hw, hserv, boot_sound tcp manager inbox, fun _ => ?_⟩
    have hempty : frames.drain [] = ⟨[], [], none⟩ := Extractor.drain_more frames.cut_nil
    simp [ServerState.boot, Session.new, hempty, ServerPc.hasCrashed]
  obtain ⟨-, -, hsound, hknown⟩ := run_invariant hstep hrun hboot
  rw [← drain_error_iff]
  cases hp : t.pc.phase with
  | draining => exact absurd hp hphase
  | between => exact hknown hp
  | idle =>
    have hcur := hsound.current
    simp only [ServerState.Current, hp] at hcur
    have halive : t.pc.hasCrashed = false := by
      cases hpc : t.pc <;> simp_all [ServerPc.phase, ServerPc.hasCrashed]
    rw [halive]
    simp [hcur.1.no_error hcur.2]

/-- A client sends a whole frame and then the header `FF FF FF FF`. -/
def overlongHeader : List ServerAct :=
  [.go, .accept 5, .go, .go, .go, .recv (.data [0, 0, 0, 1, 7, 255, 255]), .go, .go, .go, .go,
    .recv (.data [255, 255]), .go, .go]

theorem crash_iff_malformed_overlong : Malformed [0, 0, 0, 1, 7, 255, 255, 255, 255] := by
  have hrun : run (serverStep fun _ => none) (.boot .listening .started []) overlongHeader =
      some ⟨⟨true, 5, true, true, true⟩, ⟨true, 5, [255, 255, 255, 255], true, true, true, true⟩, [],
        .crashed .lengthError, [.new], ⟨[0, 0, 0, 1, 7, 255, 255, 255, 255], [[7]], []⟩⟩ := by decide +kernel
  exact (crash_iff_malformed (fun _ => none) TcpServer.listening_wired (by decide) [] hrun (by decide)).mp rfl

end Icecap.Transport
