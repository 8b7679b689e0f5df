import Mathlib.Data.List.Flatten
import IcecapAgent.StartServer

/- What a connection decodes. The callbacks of `NetworkManager` feed the receive
   buffer of the framing `frames` (`receiveAll_feed`), so the library's results on
   incremental extraction are results about the connection:

   1. `chunking_independent` — how TCP cuts the stream does not matter: the same
      commands are pushed, and the connection ends in the same buffer or in an
      exception either way;
   2. `decode_undoes_encode_iff` — a stream of encoded payloads decodes to the payloads, and
      a prefix of it to those whose encoding it contains, exactly when every data callback
      finds `m_running` set;
   3. `bytes_conserved_iff` — whatever the bytes, the frames extracted, encoded again, and
      the receive buffer are the bytes received, under the same condition.

   A callback that finds `m_running` clear drops its chunk; in a run of `startServer` that
   can happen while the connection goes on (`stream_not_decoded`, `bytes_not_conserved`).
   A parser plays no part in 2 and 3: an unparsable frame is extracted like any other,
   and then dropped. -/
namespace Icecap.Transport
open StreamExtract StepRun

section
variable (parse : Bytes → Option IncomingMessage) {m : NetworkManager} (inbox : List IncomingMessage)

/-- The frames of a connection are those of the stream received whole, and the
exception is the same. -/
theorem receiveAll_drain (hrun : m.running = true) (hempty : m.receiveBuffer = []) (chunks : List Bytes) :
    (receiveAll parse m inbox chunks).frames = (frames.drain chunks.flatten).items ∧
    (receiveAll parse m inbox chunks).error = (frames.drain chunks.flatten).error ∧
    ((receiveAll parse m inbox chunks).error = none →
      (receiveAll parse m inbox chunks).manager.receiveBuffer = (frames.drain chunks.flatten).rest) := by
  rw [receiveAll_feed parse hrun (by rw [hempty]; exact frames.cut_nil), hempty]
  simpa using Extractor.feed_drain (E := frames.toExtractor) chunks [] frames.cut_nil

theorem receiveAll_inbox (hserv : m.Serving) (hempty : m.receiveBuffer = []) (chunks : List Bytes) :
    (receiveAll parse m inbox chunks).inbox =
      inbox ++ (receiveAll parse m inbox chunks).frames.filterMap parse := by
  rw [receiveAll_feed parse hserv.1 (by rw [hempty]; exact frames.cut_nil), accepted_serving parse hserv]

/-- **Chunking independence.** Two ways of cutting one stream push the same
commands, the parses of the frames that parse; the frames do not depend on what
parses. Either both runs complete with the same receive buffer, or both raise. -/
theorem chunking_independent (hserv : m.Serving) (clientSocket : Socket) {chunks₁ chunks₂ : List Bytes}
    (hsame : chunks₁.flatten = chunks₂.flatten) :
    let r₁ := receiveAll parse (m.onClientConnected clientSocket) inbox chunks₁
    let r₂ := receiveAll parse (m.onClientConnected clientSocket) inbox chunks₂
    r₁.frames = r₂.frames ∧
    (∀ parse', (receiveAll parse' (m.onClientConnected clientSocket) inbox chunks₁).frames = r₁.frames) ∧
    r₁.inbox = inbox ++ r₁.frames.filterMap parse ∧
    r₂.inbox = inbox ++ r₂.frames.filterMap parse ∧
    ((r₁.error = none ∧ r₂.error = none ∧ r₁.manager.receiveBuffer = r₂.manager.receiveBuffer) ∨
      (r₁.error.isSome ∧ r₂.error.isSome)) := by
  intro r₁ r₂
  have hserv' : (m.onClientConnected clientSocket).Serving := hserv
  have hquiet : frames.cut (m.onClientConnected clientSocket).receiveBuffer = .more := frames.cut_nil
  obtain ⟨hitems, herror, hrest⟩ := Extractor.feed_cuts (E := frames.toExtractor) hquiet hsame
  have h₁ : r₁ = _ := receiveAll_feed parse hserv'.1 hquiet inbox chunks₁
  have h₂ : r₂ = _ := receiveAll_feed parse hserv'.1 hquiet inbox chunks₂
  refine ⟨?_, ?_, receiveAll_inbox parse inbox hserv' rfl chunks₁,
    receiveAll_inbox parse inbox hserv' rfl chunks₂, ?_⟩
  · calc r₁.frames
        = (frames.feed (m.onClientConnected clientSocket).receiveBuffer chunks₁).items := by rw [h₁]
      _ = (frames.feed (m.onClientConnected clientSocket).receiveBuffer chunks₂).items := hitems
      _ = r₂.frames := by rw [h₂]
  · intro parse'
    rw [h₁, receiveAll_feed parse' hserv'.1 hquiet inbox chunks₁]
  · -- both runs end as the stream does
    rw [h₁, h₂]
    dsimp only
    rw [← herror]
    cases hend : (frames.feed (m.onClientConnected clientSocket).receiveBuffer chunks₁).error with
    | none => exact .inl ⟨rfl, rfl, hrest hend⟩
    | some e => exact .inr ⟨rfl, rfl⟩

/-- A parser that knows one frame. -/
def onlySeven : Bytes → Option IncomingMessage :=
  fun frame => if frame = [7] then some ⟨[7], [], .luaExecute, none, none, none⟩ else none

/-- One stream of two frames, cut inside the first header and not cut at all; the first
frame parses and the second does not. -/
theorem chunking_independent_cut_header :
    let r₁ := receiveAll onlySeven (NetworkManager.started.onClientConnected 5) []
      [[0, 0], [0, 1, 7, 0, 0, 0, 1, 8]]
    let r₂ := receiveAll onlySeven (NetworkManager.started.onClientConnected 5) []
      [[0, 0, 0, 1, 7, 0, 0, 0, 1, 8]]
    r₁.frames = r₂.frames ∧ r₁.inbox = [⟨[7], [], .luaExecute, none, none, none⟩] ∧ r₂.inbox = r₁.inbox := by
  obtain ⟨hframes, -, hinbox₁, hinbox₂, -⟩ := chunking_independent onlySeven [] (m := .started) (by decide) 5
    (show ([[0, 0], [0, 1, 7, 0, 0, 0, 1, 8]] : List Bytes).flatten =
      [[0, 0, 0, 1, 7, 0, 0, 0, 1, 8]].flatten from rfl)
  refine ⟨hframes, ?_, ?_⟩
  · rw [hinbox₁]
    decide +kernel
  · rw [hinbox₁, hinbox₂, hframes]

theorem receiveAll_decodes (hrun : m.running = true) (hempty : m.receiveBuffer = [])
    {payloads : List Bytes} (hsize : ∀ p ∈ payloads, p.length ≤ 2^31 - 5) {chunks : List Bytes} :
    (chunks.flatten = (payloads.map encodeMessage).flatten →
      (receiveAll parse m inbox chunks).error = none ∧
      (receiveAll parse m inbox chunks).frames = payloads ∧
      (receiveAll parse m inbox chunks).manager.receiveBuffer = []) ∧
    (chunks.flatten <+: (payloads.map encodeMessage).flatten →
      (receiveAll parse m inbox chunks).error = none ∧
      ∃ n, (receiveAll parse m inbox chunks).frames = payloads.take n ∧
        ∀ i < payloads.length,
          i < n ↔ ((payloads.take (i + 1)).map encodeMessage).flatten <+: chunks.flatten) := by
  obtain ⟨hf, he, hb⟩ := receiveAll_drain parse inbox hrun hempty chunks
  have hfits : ∀ p ∈ payloads, frames.fits p := fun p hp =>
    Nat.le_trans (hsize p hp) (by decide)
  refine ⟨?_, ?_⟩
  · intro hwhole
    have hd : frames.drain chunks.flatten = ⟨payloads, [], none⟩ := by
      rw [hwhole]
      exact Framing.drain_encode payloads hfits
    rw [hd] at hf he hb
    exact ⟨he, hf, hb he⟩
  · intro hprefix
    obtain ⟨herr, n, hitems, hn⟩ := Framing.drain_prefix payloads hfits hprefix
    exact ⟨he.trans herr, n, hf.trans hitems, hn⟩

theorem receiveAll_conserves (hrun : m.running = true) (hempty : m.receiveBuffer = []) {chunks : List Bytes}
    (hret : (receiveAll parse m inbox chunks).error = none) :
    let r := receiveAll parse m inbox chunks
    (r.frames.map encodeMessage).flatten ++ r.manager.receiveBuffer = chunks.flatten ∧
    NoCompleteFrame r.manager.receiveBuffer := by
  intro r
  obtain ⟨hf, he, hb⟩ := receiveAll_drain parse inbox hrun hempty chunks
  refine ⟨?_, ?_⟩
  · rw [hf, hb hret]
    exact Framing.drain_conserves (F := frames) chunks.flatten
  · rw [hb hret]
    exact cutFrame_more (Extractor.cut_drain_rest _ (he.symm.trans hret))

end

/-! ## Callbacks that find `m_running` clear -/

/-- A call of `onDataReceived`: what it finds in `m_running`, and its chunk. -/
structure DataCall where
  running : Bool
  chunk : Bytes
  deriving DecidableEq, Repr

/-- The bytes passed to the data callback. -/
def passed (calls : List DataCall) : Bytes := (calls.map (·.chunk)).flatten

/-- The chunks of the calls that find the manager running. -/
def heard (calls : List DataCall) : List Bytes := (calls.filter (·.running)).map (·.chunk)

/-- Successive data callbacks, with `m_running` as each of them finds it. -/
def receiveCalls (parse : Bytes → Option IncomingMessage) (m : NetworkManager) (inbox : List IncomingMessage) :
    List DataCall → Received
  | [] => ⟨[], m, inbox, none⟩
  | call :: calls =>
    let r := onDataReceived parse { m with running := call.running } inbox (some call.chunk)
    match r.error with
    | some e => { r with error := some e }
    | none =>
      let r' := receiveCalls parse r.manager r.inbox calls
      { r' with frames := r.frames ++ r'.frames }

/-- What the data callbacks decode of a stream of payloads, or of a prefix of it. -/
def DecodesStream (parse : Bytes → Option IncomingMessage) (m : NetworkManager) (inbox : List IncomingMessage)
    (payloads : List Bytes) (calls : List DataCall) : Prop :=
  let r := receiveCalls parse m inbox calls
  (passed calls = (payloads.map encodeMessage).flatten →
    r.error = none ∧ r.frames = payloads ∧ r.manager.receiveBuffer = []) ∧
  (passed calls <+: (payloads.map encodeMessage).flatten →
    r.error = none ∧ ∃ n, r.frames = payloads.take n ∧
      ∀ i < payloads.length, i < n ↔ ((payloads.take (i + 1)).map encodeMessage).flatten <+: passed calls)

section
variable (parse : Bytes → Option IncomingMessage) {m : NetworkManager} (inbox : List IncomingMessage)

theorem onDataReceived_unheard (hstopped : m.running = false) (chunk : Bytes) :
    onDataReceived parse m inbox (some chunk) = ⟨[], m, inbox, none⟩ := by
  simp [onDataReceived, hstopped]

theorem onDataReceived_manager (m : NetworkManager) (chunk : Bytes) :
    ∃ buffer, (onDataReceived parse m inbox (some chunk)).manager = m.withBuffer buffer := by
  unfold onDataReceived
  dsimp only
  split
  · exact ⟨m.receiveBuffer, rfl⟩
  · rw [extractLoop_drain]
    exact ⟨_, rfl⟩

theorem receiveCalls_heard (m : NetworkManager) (calls : List DataCall) :
    let r := receiveCalls parse m inbox calls
    let h := receiveAll parse { m with running := true } inbox (heard calls)
    r.frames = h.frames ∧ r.error = h.error ∧ r.manager.receiveBuffer = h.manager.receiveBuffer := by
  induction calls generalizing m inbox with
  | nil => exact ⟨rfl, rfl, rfl⟩
  | cons call calls ih =>
    obtain ⟨running, chunk⟩ := call
    cases running with
    | false =>
      have hcall := onDataReceived_unheard parse (m := { m with running := false }) inbox rfl chunk
      have hheard : heard (⟨false, chunk⟩ :: calls) = heard calls := rfl
      simp only [receiveCalls, hcall, hheard]
      exact ih inbox { m with running := false }
    | true =>
      have hheard : heard (⟨true, chunk⟩ :: calls) = chunk :: heard calls := rfl
      simp only [receiveCalls, hheard, receiveAll]
      obtain ⟨buffer, hmanager⟩ := onDataReceived_manager parse inbox { m with running := true } chunk
      generalize onDataReceived parse { m with running := true } inbox (some chunk) = r at hmanager
      cases r.error with
      | some e => exact ⟨rfl, rfl, rfl⟩
      | none =>
        obtain ⟨hframes, herror, hbuffer⟩ := ih r.inbox r.manager
        have hkeeps : { r.manager with running := true } = r.manager := by rw [hmanager]; rfl
        rw [hkeeps] at hframes herror hbuffer
        exact ⟨congrArg (r.frames ++ ·) hframes, herror, hbuffer⟩

/-- Nothing is lost when every chunk is heard, and only then. -/
theorem heard_flatten (calls : List DataCall) :
    (heard calls).flatten = passed calls ↔ ∀ c ∈ calls, c.chunk ≠ [] → c.running = true := by
  have shorter (calls : List DataCall) : (heard calls).flatten.length ≤ (passed calls).length :=
    (List.filter_sublist.flatMap fun c : DataCall => c.chunk).length_le
  induction calls with
  | nil => simp [heard, passed]
  | cons call calls ih =>
    obtain ⟨running, chunk⟩ := call
    cases running with
    | true =>
      have hheard : (heard (⟨true, chunk⟩ :: calls)).flatten = chunk ++ (heard calls).flatten := rfl
      have hpassed : passed (⟨true, chunk⟩ :: calls) = chunk ++ passed calls := rfl
      rw [hheard, hpassed, List.append_cancel_left_eq]
      simp [ih]
    | false =>
      have hheard : (heard (⟨false, chunk⟩ :: calls)).flatten = (heard calls).flatten := rfl
      have hpassed : passed (⟨false, chunk⟩ :: calls) = chunk ++ passed calls := rfl
      rw [hheard, hpassed]
      by_cases hchunk : chunk = []
      · rw [hchunk, List.nil_append]
        simp [ih]
      · -- the bytes heard are too few
        have hlength := shorter calls
        have hpos := List.length_pos_iff.mpr hchunk
        refine iff_of_false ?_ ?_
        · intro heq
          have := congrArg List.length heq
          rw [List.length_append] at this
          omega
        · intro hall
          simpa using hall _ List.mem_cons_self hchunk

theorem receiveCalls_conserves (hempty : m.receiveBuffer = []) {calls : List DataCall}
    (hret : (receiveCalls parse m inbox calls).error = none) :
    let r := receiveCalls parse m inbox calls
    (r.frames.map encodeMessage).flatten ++ r.manager.receiveBuffer = (heard calls).flatten ∧
    NoCompleteFrame r.manager.receiveBuffer := by
  intro r
  obtain ⟨hframes, herror, hbuffer⟩ := receiveCalls_heard parse inbox m calls
  have hret' := herror.symm.trans hret
  have hconserves := receiveAll_conserves parse inbox (m := { m with running := true }) rfl hempty hret'
  dsimp only at hconserves
  rw [← hframes, ← hbuffer] at hconserves
  exact hconserves

theorem receiveCalls_decodes (hempty : m.receiveBuffer = []) {payloads : List Bytes}
    (hsize : ∀ p ∈ payloads, p.length ≤ 2^31 - 5) {calls : List DataCall}
    (hheard : (heard calls).flatten = passed calls) : DecodesStream parse m inbox payloads calls := by
  obtain ⟨hframes, herror, hbuffer⟩ := receiveCalls_heard parse inbox m calls
  have hdecodes := @receiveAll_decodes parse { m with running := true } inbox rfl hempty payloads hsize
    (heard calls)
  rw [← hframes, ← herror, ← hbuffer, hheard] at hdecodes
  exact hdecodes

/-- **Decoding undoes encoding**, over whole streams and over prefixes of them, exactly for
the calls that all find `m_running` set: whatever the payloads and the cuts, when they do,
and for no stream of payloads fed whole, when one does not. -/
theorem decode_undoes_encode_iff (hempty : m.receiveBuffer = []) :
    (∀ running : List Bool,
      (∀ payloads : List Bytes, (∀ p ∈ payloads, p.length ≤ 2^31 - 5) →
        ∀ calls : List DataCall, (∀ c ∈ calls, c.chunk ≠ []) → calls.map (·.running) = running →
          DecodesStream parse m inbox payloads calls) ↔
        ∀ r ∈ running, r = true) ∧
    ∀ payloads : List Bytes, (∀ p ∈ payloads, p.length ≤ 2^31 - 5) →
      ∀ calls : List DataCall, (∀ c ∈ calls, c.chunk ≠ []) →
        passed calls = (payloads.map encodeMessage).flatten →
          (DecodesStream parse m inbox payloads calls ↔ ∀ c ∈ calls, c.running = true) := by
  have enough {payloads : List Bytes} (hsize : ∀ p ∈ payloads, p.length ≤ 2^31 - 5) {calls : List DataCall}
      (hall : ∀ c ∈ calls, c.running = true) : DecodesStream parse m inbox payloads calls :=
    receiveCalls_decodes parse inbox hempty hsize ((heard_flatten calls).mpr fun c hc _ => hall c hc)
  have needed {payloads : List Bytes} {calls : List DataCall} (hchunks : ∀ c ∈ calls, c.chunk ≠ [])
      (hwhole : passed calls = (payloads.map encodeMessage).flatten)
      (hdecodes : DecodesStream parse m inbox payloads calls) : ∀ c ∈ calls, c.running = true := by
    obtain ⟨hret, hframes, hbuffer⟩ := hdecodes.1 hwhole
    have hconserves := (receiveCalls_conserves parse inbox hempty hret).1
    rw [hframes, hbuffer, List.append_nil, ← hwhole] at hconserves
    intro c hc
    exact (heard_flatten calls).mp hconserves.symm c hc (hchunks c hc)
  refine ⟨?_, ?_⟩
  · intro running
    refine ⟨?_, ?_⟩
    · -- empty payloads, each fed in one piece
      intro h
      let calls := running.map fun r => (⟨r, encodeMessage []⟩ : DataCall)
      have hcalls : calls.map (·.running) = running := by simp [calls, Function.comp_def]
      have hchunks : ∀ c ∈ calls, c.chunk ≠ [] := by
        intro c hc
        obtain ⟨r, -, rfl⟩ := List.mem_map.mp hc
        simp [encodeMessage]
      have hwhole : passed calls = ((running.map fun _ => []).map encodeMessage).flatten := by
        simp only [calls, passed, List.map_map, Function.comp_def]
      have hsize : ∀ p ∈ (running.map fun _ => ([] : Bytes)), p.length ≤ 2^31 - 5 := by simp
      have hall := needed hchunks hwhole (h _ hsize calls hchunks hcalls)
      intro r hr
      exact hall ⟨r, _⟩ (List.mem_map.mpr ⟨r, hr, rfl⟩)
    · intro hall payloads hsize calls hchunks hrunning
      apply enough hsize
      intro c hc
      exact hall _ (hrunning ▸ List.mem_map_of_mem hc)
  · intro payloads hsize calls hchunks hwhole
    exact ⟨needed hchunks hwhole, enough hsize⟩

theorem decode_undoes_encode_two :
    DecodesStream (fun _ => none) .started [] [[], [5, 6]] [⟨true, [0, 0, 0, 0, 0, 0]⟩, ⟨true, [0, 2, 5, 6]⟩] ∧
      ¬ DecodesStream (fun _ => none) .started [] [[], [5, 6]]
        [⟨false, [0, 0, 0, 0, 0, 0]⟩, ⟨true, [0, 2, 5, 6]⟩] := by
  have hiff := (decode_undoes_encode_iff (fun _ => none) [] (m := .started) rfl).2 [[], [5, 6]] (by decide)
  refine ⟨?_, ?_⟩
  · exact (hiff [⟨true, [0, 0, 0, 0, 0, 0]⟩, ⟨true, [0, 2, 5, 6]⟩] (by decide) (by decide)).mpr (by decide)
  · intro h
    exact absurd ((hiff [⟨false, [0, 0, 0, 0, 0, 0]⟩, ⟨true, [0, 2, 5, 6]⟩] (by decide) (by decide)).mp h)
      (by decide)

/-- **A stream is not decoded**: its first header comes while `startServer` has not marked
the manager as running. -/
theorem stream_not_decoded :
    (¬ ∀ parse acts t (payloads : List Bytes), run (bootStep parse) (.initial .fresh .fresh []) acts = some t →
      t.start = .returned true → t.server.pc.phase = .idle →
        t.server.session.received = (payloads.map encodeMessage).flatten →
          t.server.session.extracted = payloads) ∧
    ¬ DecodesStream (fun _ => none) .fresh [] [[0, 0, 0, 0]]
      [⟨false, [0, 0, 0, 4]⟩, ⟨true, [0, 0, 0, 0]⟩] := by
  refine ⟨?_, ?_⟩
  · intro h
    have hextracted := h _ _ _ [[0, 0, 0, 0]] headerBefore_run rfl rfl (by decide)
    simp at hextracted
  · intro h
    have hframes := (h.1 (by decide)).2.1
    revert hframes
    decide +kernel

/-- **Byte conservation.** After data callbacks that returned, the frames extracted since
the client connected, encoded again, and then the receive buffer are the bytes passed to
them since, and no complete frame is left in the buffer, exactly when each callback that
had bytes found `m_running` set. -/
theorem bytes_conserved_iff (clientSocket : Socket) {calls : List DataCall}
    (hret : (receiveCalls parse (m.onClientConnected clientSocket) inbox calls).error = none) :
    let r := receiveCalls parse (m.onClientConnected clientSocket) inbox calls
    ((r.frames.map encodeMessage).flatten ++ r.manager.receiveBuffer = passed calls ∧
      NoCompleteFrame r.manager.receiveBuffer) ↔
      ∀ c ∈ calls, c.chunk ≠ [] → c.running = true := by
  intro r
  obtain ⟨hconserves, hnone⟩ :=
    receiveCalls_conserves parse inbox (m := m.onClientConnected clientSocket) rfl hret
  rw [← heard_flatten, ← hconserves]
  exact and_iff_left hnone

theorem bytes_conserved_half_header :
    let r := receiveCalls (fun _ => none) (NetworkManager.started.onClientConnected 5) []
      [⟨true, [0, 0, 0, 1, 7, 0]⟩, ⟨true, [0]⟩]
    (r.frames.map encodeMessage).flatten ++ r.manager.receiveBuffer = [0, 0, 0, 1, 7, 0, 0] ∧
      NoCompleteFrame r.manager.receiveBuffer :=
  (bytes_conserved_iff (fun _ => none) [] (m := .started) 5 (by decide +kernel)).mpr (by decide)

/-- **Bytes are lost**: eight were passed to the data callback, four of them are left in the
frame that was extracted. -/
theorem bytes_not_conserved :
    ¬ ∀ parse acts t, run (bootStep parse) (.initial .fresh .fresh []) acts = some t →
      t.start = .returned true → t.server.pc.phase = .idle →
        (t.server.session.extracted.map encodeMessage).flatten ++ t.server.manager.receiveBuffer =
          t.server.session.received := by
  intro h
  have hconserves := h _ _ _ headerBefore_run rfl rfl
  revert hconserves
  decide

end

end Icecap.Transport
