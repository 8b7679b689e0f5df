import IcecapAgent.TcpServer

/- What the sessions of the server thread have to do with the bytes they received.

   1. `serverStep_sound` — in an open session the frames extracted, encoded again,
      followed by the receive buffer are the bytes received; a session that is over
      extracted exactly the frames of the bytes it received. Every step keeps this,
      as long as no chunk meets a manager that is not running;
   2. `session_isolation` — so on a running manager the commands of a session are a
      function of its bytes. The connected callback clears the buffer whatever the
      session before left in it, which is why the conditional reset of the
      disconnected callback does not matter, nor that handles come back. -/
namespace Icecap.Transport
open StreamExtract StepRun

/-! ## Sessions and their streams -/

/-- An open session: the frames extracted, encoded again, and the receive buffer
are the bytes received. -/
structure Session.Reads (σ : Session) (buffer : Bytes) : Prop where
  conserved : (σ.extracted.map encodeMessage).flatten ++ buffer = σ.received
  fits : ∀ f ∈ σ.extracted, frames.fits f

/-- A session that is over: it extracted the frames of the bytes it received. -/
def Session.Settled (σ : Session) : Prop := σ.extracted = (frames.drain σ.received).items

namespace Session
variable {σ : Session} {buffer : Bytes}

theorem new_reads : new.Reads [] := ⟨rfl, by simp [new]⟩

theorem new_settled : new.Settled := by
  simp only [Settled]
  rw [show new.received = [] from rfl, Extractor.drain_more frames.cut_nil]
  rfl

theorem Reads.drain (h : σ.Reads buffer) :
    frames.drain σ.received =
      ⟨σ.extracted ++ (frames.drain buffer).items, (frames.drain buffer).rest, (frames.drain buffer).error⟩ := by
  rw [← h.conserved]
  exact Framing.drain_encode_append σ.extracted h.fits buffer

theorem Reads.settled (h : σ.Reads buffer) (hd : (frames.drain buffer).items = []) : σ.Settled := by
  simp only [Settled]
  rw [h.drain, hd, List.append_nil]

theorem Reads.receive (h : σ.Reads buffer) (chunk : Bytes) :
    ({ σ with received := σ.received ++ chunk } : Session).Reads (buffer ++ chunk) :=
  ⟨by rw [← List.append_assoc, h.conserved], h.fits⟩

theorem Reads.extract {frame rest : Bytes} (h : σ.Reads buffer) (hcut : cutFrame buffer = .item frame rest)
    (pushed : List IncomingMessage) :
    ({ σ with extracted := σ.extracted ++ [frame], pushed } : Session).Reads rest := by
  refine ⟨?_, ?_⟩
  · have hencode : encodeMessage frame ++ rest = buffer := frames.encode_cut hcut
    rw [← h.conserved, ← hencode]
    simp
  · intro f hf
    rcases List.mem_append.mp hf with hf | hf
    · exact h.fits f hf
    · obtain rfl := List.mem_singleton.mp hf
      obtain ⟨-, hmax, rfl, -⟩ := cutFrame_item hcut
      exact Nat.le_trans (List.length_take_le _ _) hmax

end Session

/-! ## What every step keeps -/

/-- The current session, by where the thread stands in it. -/
def ServerState.Current (s : ServerState) : Prop :=
  match s.pc.phase with
  | .between => s.session.Settled
  | .idle => s.session.Reads s.manager.receiveBuffer ∧ cutFrame s.manager.receiveBuffer = .more
  | .draining => s.session.Reads s.manager.receiveBuffer

structure ServerState.Sound (s : ServerState) : Prop where
  past : ∀ σ ∈ s.past, σ.Settled
  current : s.Current

section
variable {parse : Bytes → Option IncomingMessage} {s s' : ServerState} {a : ServerAct}

theorem boot_sound (tcp : TcpServer) (manager : NetworkManager) (inbox : List IncomingMessage) :
    (ServerState.boot tcp manager inbox).Sound :=
  ⟨by simp [ServerState.boot], Session.new_settled⟩

/-- If a chunk is to be passed to the data callback now, the manager runs. -/
def DeliversRunning (s : ServerState) : Prop := s.pc.delivers = true → s.manager.running = true

instance (s : ServerState) : Decidable (DeliversRunning s) := inferInstanceAs (Decidable (_ → _))

theorem serverStep_sound (hw : s.tcp.Wired) (hrun : DeliversRunning s) (h : s.Sound)
    (hs : serverStep parse s a = some s') : s'.Sound := by
  obtain ⟨hpast, hcur⟩ := h
  cases serverStep_move hs with
  | quiet clientSocket pc hpc =>
    refine ⟨hpast, ?_⟩
    simp only [ServerState.Current] at hcur ⊢
    rw [hpc]
    exact hcur
  | connect client hpc =>
    have hset : s.session.Settled := by simpa [ServerState.Current, hpc, ServerPc.phase] using hcur
    simp only [ServerState.connectedCallback, hw.connected, if_true]
    refine ⟨?_, Session.new_reads, rfl⟩
    intro σ hσ
    rcases List.mem_append.mp hσ with hσ | hσ
    · exact hpast σ hσ
    · rw [List.mem_singleton.mp hσ]
      exact hset
  | data client chunk hpc =>
    obtain ⟨hreads, hmore⟩ : s.session.Reads s.manager.receiveBuffer ∧ cutFrame s.manager.receiveBuffer = .more := by
      simpa [ServerState.Current, hpc, ServerPc.phase] using hcur
    simp only [ServerState.dataCallback, hw.data, if_true, hrun (by rw [hpc]; rfl), Bool.not_true,
      Bool.false_or]
    split
    · rename_i hempty
      obtain rfl : chunk = [] := by simpa using hempty
      exact ⟨hpast, by simpa using hreads.receive [], hmore⟩
    · exact ⟨hpast, hreads.receive chunk⟩
  | turn client frame hpc =>
    have hreads : s.session.Reads s.manager.receiveBuffer := by
      simpa [ServerState.Current, hpc, ServerPc.phase] using hcur
    rw [ServerState.extractTurn, extractFrame_cut]
    cases hc : cutFrame s.manager.receiveBuffer with
    | more => exact ⟨hpast, hreads, hc⟩
    | fail e =>
      -- the thread dies, with the frames before the bad header extracted
      refine ⟨hpast, ?_⟩
      apply hreads.settled
      rw [Extractor.drain_fail hc]
    | item f rest => exact ⟨hpast, hreads.extract hc _⟩
  | disconnect client hpc =>
    obtain ⟨hreads, hmore⟩ : s.session.Reads s.manager.receiveBuffer ∧ cutFrame s.manager.receiveBuffer = .more := by
      simpa [ServerState.Current, hpc, ServerPc.phase] using hcur
    have hset : s.session.Settled := by
      apply hreads.settled
      rw [Extractor.drain_more hmore]
    simp only [ServerState.disconnectedCallback, hw.disconnected, if_true]
    exact ⟨hpast, hset⟩

/-- Every session pushed the parses of the frames it extracted. -/
def ServerState.Handed (parse : Bytes → Option IncomingMessage) (s : ServerState) : Prop :=
  ∀ σ ∈ s.past ++ [s.session], σ.pushed = σ.extracted.filterMap parse

theorem serverStep_handed (hserv : s.pc.phase = .draining → s.manager.Serving) (h : s.Handed parse)
    (hs : serverStep parse s a = some s') : s'.Handed parse := by
  simp only [ServerState.Handed] at h ⊢
  rw [List.forall_mem_append, List.forall_mem_singleton] at h ⊢
  obtain ⟨hpast, hcur⟩ := h
  cases serverStep_move hs with
  | quiet clientSocket pc hpc => exact ⟨hpast, hcur⟩
  | connect client hpc =>
    simp only [ServerState.connectedCallback]
    split
    · exact ⟨List.forall_mem_append.mpr ⟨hpast, by simpa using hcur⟩, rfl⟩
    · exact ⟨hpast, hcur⟩
  | data client chunk hpc =>
    unfold ServerState.dataCallback
    split
    · simp only
      split <;> exact ⟨hpast, hcur⟩
    · exact ⟨hpast, hcur⟩
  | turn client frame hpc =>
    simp only [ServerState.extractTurn]
    split
    · exact ⟨hpast, hcur⟩
    · exact ⟨hpast, hcur⟩
    · refine ⟨hpast, ?_⟩
      -- the one place where `m_running` is tested again
      have hserv := hserv (by rw [hpc]; rfl)
      simp only [accepted_withBuffer, accepted_serving parse hserv, List.filterMap_append, hcur]
      congr 1
  | disconnect client hpc =>
    simp only [ServerState.disconnectedCallback]
    split <;> exact ⟨hpast, hcur⟩

/-! ## Isolation -/

/-- The sessions of the run so far, without the current one while its data
callback is at work. -/
def ServerState.sessions (s : ServerState) : List Session :=
  if s.pc.phase = .draining then s.past else s.past ++ [s.session]

theorem ServerState.Sound.settled (h : s.Sound) {σ : Session} (hσ : σ ∈ s.sessions) : σ.Settled := by
  obtain ⟨hpast, hcur⟩ := h
  unfold sessions at hσ
  unfold Current at hcur
  cases hp : s.pc.phase with
  | draining =>
    simp only [hp, if_true] at hσ
    exact hpast σ hσ
  | between =>
    simp only [hp, reduceCtorEq, if_false, List.mem_append, List.mem_singleton] at hσ hcur
    rcases hσ with hσ | rfl
    · exact hpast σ hσ
    · exact hcur
  | idle =>
    simp only [hp, reduceCtorEq, if_false, List.mem_append, List.mem_singleton] at hσ hcur
    rcases hσ with hσ | rfl
    · exact hpast σ hσ
    · apply hcur.1.settled
      rw [Extractor.drain_more hcur.2]

/-- The server thread on a manager that runs, whatever the clients do: its
sessions are sound and its inbox grew by what they pushed. -/
theorem server_run {tcp : TcpServer} {manager : NetworkManager} {inbox : List IncomingMessage} {t : ServerState}
    (hw : tcp.Wired) (hserv : manager.Serving) {acts : List ServerAct}
    (hrun : run (serverStep parse) (.boot tcp manager inbox) acts = some t) :
    t.Sound ∧ t.Handed parse ∧ t.inbox = inbox ++ t.pushed := by
  let Inv (s : ServerState) : Prop :=
    s.tcp.Wired ∧ s.manager.Serving ∧ s.Sound ∧ s.Handed parse ∧ s.inbox = inbox ++ s.pushed
  have hstep : ∀ s a s', Inv s → serverStep parse s a = some s' → Inv s' := by
    intro s a s' ⟨hw, hserv, hsound, hhanded, hinbox⟩ hs
    obtain ⟨commands, hin, hpushed⟩ := (serverStep_frame hs).pushes
    refine ⟨serverStep_wired hs hw, serverStep_serving hs hserv, serverStep_sound hw (fun _ => hserv.1) hsound hs,
      serverStep_handed (fun _ => hserv) hhanded hs, ?_⟩
    rw [hin, hpushed, hinbox, List.append_assoc]
  have hboot : Inv (.boot tcp manager inbox) := by
    refine ⟨hw, hserv, boot_sound tcp manager inbox, ?_, ?_⟩
    · simp [ServerState.Handed, ServerState.boot, Session.new]
    · simp [ServerState.pushed, ServerState.boot, Session.new]
  exact (run_invariant hstep hrun hboot).2.2

/-- **Session isolation.** Two runs of the server thread, whatever happened in
either before: two of their sessions that received the same bytes pushed the same
commands. -/
theorem session_isolation {tcp₁ tcp₂ : TcpServer} {manager₁ manager₂ : NetworkManager}
    {inbox₁ inbox₂ : List IncomingMessage} {acts₁ acts₂ : List ServerAct} {t₁ t₂ : ServerState}
    (hw₁ : tcp₁.Wired) (hw₂ : tcp₂.Wired) (hserv₁ : manager₁.Serving) (hserv₂ : manager₂.Serving)
    (hrun₁ : run (serverStep parse) (.boot tcp₁ manager₁ inbox₁) acts₁ = some t₁)
    (hrun₂ : run (serverStep parse) (.boot tcp₂ manager₂ inbox₂) acts₂ = some t₂)
    {σ₁ σ₂ : Session} (h₁ : σ₁ ∈ t₁.sessions) (h₂ : σ₂ ∈ t₂.sessions)
    (hsame : σ₁.received = σ₂.received) : σ₁.pushed = σ₂.pushed := by
  have key : ∀ {t : ServerState} {σ : Session}, t.Sound → t.Handed parse → σ ∈ t.sessions →
      σ.pushed = (frames.drain σ.received).items.filterMap parse := by
    intro t σ hsound hhanded hσ
    have hmem : σ ∈ t.past ++ [t.session] := by
      unfold ServerState.sessions at hσ
      split at hσ
      · exact List.mem_append_left _ hσ
      · exact hσ
    rw [hhanded σ hmem, hsound.settled hσ]
  obtain ⟨hsound₁, hhanded₁, -⟩ := server_run hw₁ hserv₁ hrun₁
  obtain ⟨hsound₂, hhanded₂, -⟩ := server_run hw₂ hserv₂ hrun₂
  rw [key hsound₁ hhanded₁ h₁, key hsound₂ hhanded₂ h₂, hsame]

end

/-- A client leaves after half a header; the next one has the same handle. -/
def afterHalfHeader : List ServerAct :=
  [.go, .accept 5, .go, .go, .go, .recv (.data [0, 0]), .go, .go, .go, .recv .closed, .go, .go, .go,
    .go, .accept 5, .go, .go, .go, .recv (.data [0, 0, 0, 1, 7]), .go, .go, .go]

/-- A client comes first, and sends the bytes of that second client in two chunks. -/
def comingFirst : List ServerAct :=
  [.go, .accept 9, .go, .go, .go, .recv (.data [0, 0, 0]), .go, .go, .go, .recv (.data [1, 7]), .go, .go, .go]

theorem session_isolation_half_header :
    let parse : Bytes → Option IncomingMessage := fun b => some ⟨b, [], .luaExecute, none, none, none⟩
    ∃ t₁ t₂, run (serverStep parse) (.boot .listening .started []) afterHalfHeader = some t₁ ∧
      run (serverStep parse) (.boot .listening .started []) comingFirst = some t₂ ∧
      t₁.session.pushed = t₂.session.pushed := by
  intro parse
  let command : IncomingMessage := ⟨[7], [], .luaExecute, none, none, none⟩
  let σ : Session := ⟨[0, 0, 0, 1, 7], [[7]], [command]⟩
  have h₁ : run (serverStep parse) (.boot .listening .started []) afterHalfHeader =
      some ⟨⟨true, 5, true, true, true⟩, ⟨true, 5, [], true, true, true, true⟩, [command], .handling 5,
        [.new, ⟨[0, 0], [], []⟩], σ⟩ := by decide +kernel
  have h₂ : run (serverStep parse) (.boot .listening .started []) comingFirst =
      some ⟨⟨true, 9, true, true, true⟩, ⟨true, 9, [], true, true, true, true⟩, [command], .handling 9,
        [.new], σ⟩ := by decide +kernel
  exact ⟨_, _, h₁, h₂, session_isolation TcpServer.listening_wired TcpServer.listening_wired (by decide)
    (by decide) h₁ h₂ (by decide) (by decide) rfl⟩

end Icecap.Transport
