import IcecapAgent.TcpServer
import IcecapAgent.TurnLoop

/- Whether the loop of `onDataReceived` ends.

   `extractLoop` is a recursion on the length of the receive buffer, so it could not be
   written down for a loop that does not end. Here the loop is given by its turns, over
   any `extractFrame`, and that it ends is a theorem.

   1. `loop_ends` — when every frame that is extracted takes at least `k` bytes off the
      buffer, the loop ends, after at most `length / k` frames;
   2. `extraction_ends` — `ProtocolHandler::extractFrame` takes at least 4, and the bound is
      met (`frames_attained`). For the headers whose sum wraps, `erase` would take fewer, but
      `assign` refuses the length first;
   3. `unchecked_never_ends` — with an `assign` that takes any length, one of these headers
      keeps the loop going for ever;
   4. `ends_iff` — what the loop ends with is `extractLoop`, and for the server thread
      `dataCallback_ends` counts the steps to the end of a data callback. -/
namespace Icecap.Transport
open StreamExtract StepRun TurnLoop

/-- `INetworkProtocol::extractFrame`. -/
abbrev ExtractFrame := Bytes → Bytes → Except StdError (Bool × Bytes × Bytes)

/-- The loop of `onDataReceived` before its condition. `frames` are those handed to
`onMessageReceived` so far. -/
structure LoopState where
  frames : List Bytes
  manager : NetworkManager
  inbox : List IncomingMessage
  frame : Bytes
  deriving DecidableEq, Repr

/-- The condition of the loop, and its body when a frame was extracted. -/
def loopTurn (extractFrame : ExtractFrame) (parse : Bytes → Option IncomingMessage) (s : LoopState) :
    LoopState ⊕ Received :=
  match extractFrame s.manager.receiveBuffer s.frame with
  | .error e => .inr ⟨s.frames, s.manager, s.inbox, some e⟩
  | .ok (false, buffer, _) => .inr ⟨s.frames, s.manager.withBuffer buffer, s.inbox, none⟩
  | .ok (true, buffer, frame) =>
    -- the frame is off the buffer before it is handed over
    let manager := s.manager.withBuffer buffer
    .inl ⟨s.frames ++ [frame], manager, onMessageReceived parse manager s.inbox frame, frame⟩

/-- Every frame that is extracted takes at least `k` bytes off the buffer. -/
def Removes (extractFrame : ExtractFrame) (k : Nat) : Prop :=
  ∀ buffer frame rest frame', extractFrame buffer frame = .ok (true, rest, frame') →
    rest.length + k ≤ buffer.length

/-- The buffer has a header, and the sum `4u + len` of 32 bits wraps. -/
def Wraps (buffer : Bytes) : Prop := 4 ≤ buffer.length ∧ 2^32 ≤ 4 + headerValue buffer

/-- Not the handler of the agent: `extractFrame` with an `assign` that takes as many bytes
as there are. -/
def uncheckedFrame (buffer frame : Bytes) : Except StdError (Bool × Bytes × Bytes) :=
  if buffer.length < 4 then
    .ok (false, buffer, frame)
  else
    let len := headerLen buffer
    if buffer.length < (4 + len).toNat then
      .ok (false, buffer, frame)
    else
      .ok (true, erase buffer (4 + len).toNat, (buffer.drop 4).take len.toNat)

/-! ## The loop ends -/

section
variable {extract : ExtractFrame} {parse : Bytes → Option IncomingMessage} {k : Nat}

theorem loopTurn_again {s s' : LoopState} (h : loopTurn extract parse s = .inl s') :
    ∃ rest, extract s.manager.receiveBuffer s.frame = .ok (true, rest, s'.frame) ∧
      s'.frames = s.frames ++ [s'.frame] ∧ s'.manager = s.manager.withBuffer rest ∧
      s'.inbox = onMessageReceived parse s'.manager s.inbox s'.frame := by
  unfold loopTurn at h
  split at h
  · cases h
  · cases h
  · rename_i rest frame' hextract
    obtain rfl := Sum.inl.inj h
    exact ⟨rest, hextract, rfl, rfl, rfl⟩

theorem loopTurn_leave {s : LoopState} {r : Received} (h : loopTurn extract parse s = .inr r) :
    (∃ rest frame', extract s.manager.receiveBuffer s.frame = .ok (false, rest, frame') ∧
      r = ⟨s.frames, s.manager.withBuffer rest, s.inbox, none⟩) ∨
    (∃ e, extract s.manager.receiveBuffer s.frame = .error e ∧ r = ⟨s.frames, s.manager, s.inbox, some e⟩) := by
  unfold loopTurn at h
  split at h
  · rename_i e hextract
    exact .inr ⟨e, hextract, (Sum.inr.inj h).symm⟩
  · rename_i rest frame' hextract
    exact .inl ⟨rest, frame', hextract, (Sum.inr.inj h).symm⟩
  · cases h

theorem ends_frames {s : LoopState} {n : Nat} {r : Received} (h : Ends (loopTurn extract parse) s n r) :
    r.frames.length = s.frames.length + n := by
  induction h with
  | leave hs =>
    rcases loopTurn_leave hs with ⟨rest, frame', -, rfl⟩ | ⟨e, -, rfl⟩
    · rfl
    · rfl
  | @again s s' n r hs hrest ih =>
    obtain ⟨rest, -, hframes, -⟩ := loopTurn_again hs
    calc r.frames.length
        = s'.frames.length + n := ih
      _ = s.frames.length + 1 + n := by rw [hframes, List.length_append, List.length_singleton]
      _ = s.frames.length + (n + 1) := by omega

/-- **A handler that removes bytes ends the loop.** -/
theorem loop_ends (hk : 0 < k) (hremoves : Removes extract k) (s : LoopState) :
    ∃ n r, Ends (loopTurn extract parse) s n r ∧ n ≤ s.manager.receiveBuffer.length / k := by
  apply ends_of_pays (fun s : LoopState => s.manager.receiveBuffer.length) hk
  intro s s' hs
  obtain ⟨rest, hextract, -, hmanager, -⟩ := loopTurn_again hs
  rw [hmanager]
  exact hremoves _ _ _ _ hextract

end

/-! ## The handler of the agent -/

/-- The sum keeps what the header has above `2^32 - 4`. -/
theorem Wraps.sum {buffer : Bytes} (h : Wraps buffer) :
    (4 + headerLen buffer).toNat + 2^32 = 4 + headerValue buffer := by
  have hv := headerValue_lt buffer
  have hwrap := h.2
  have hsum : (4 + headerLen buffer).toNat = (4 + headerValue buffer) % 2^32 := by
    rw [UInt32.toNat_add, headerLen_toNat]
    rfl
  omega

theorem Wraps.sum_lt {buffer : Bytes} (h : Wraps buffer) : (4 + headerLen buffer).toNat < 4 := by
  have hv := headerValue_lt buffer
  have hsum := h.sum
  omega

theorem extractFrame_wraps {buffer : Bytes} (h : Wraps buffer) (frame : Bytes) :
    extractFrame buffer frame = .error .lengthError := by
  rw [extractFrame_eq, if_neg (Nat.not_lt.mpr h.1), if_pos h.2]

theorem extractFrame_removes : Removes extractFrame 4 := by
  intro buffer frame rest frame' h
  rw [extractFrame_cut] at h
  cases hcut : cutFrame buffer with
  | more => simp [hcut] at h
  | fail e => simp [hcut] at h
  | item f r =>
    -- where a frame is cut off the sum did not wrap
    obtain ⟨hlen, -, -, hrest⟩ := cutFrame_item hcut
    obtain ⟨rfl, rfl⟩ : r = rest ∧ f = frame' := by simpa [hcut] using h
    calc r.length + 4
        = buffer.length - (4 + headerValue buffer) + 4 := by rw [hrest, List.length_drop]
      _ ≤ buffer.length := by omega

/-- **The extraction loop ends**, whatever is in the receive buffer: every frame takes at
least four bytes off it, also where the sum of the header wraps and `erase` would not. -/
theorem extraction_ends (parse : Bytes → Option IncomingMessage) (m : NetworkManager) (inbox : List IncomingMessage)
    (frame : Bytes) :
    (∃ n r, Ends (loopTurn extractFrame parse) ⟨[], m, inbox, frame⟩ n r ∧ r.frames.length = n ∧
      n ≤ m.receiveBuffer.length / 4) ∧
    Removes extractFrame 4 ∧
    ∀ buffer, Wraps buffer →
      (4 + headerLen buffer).toNat < 4 ∧ ∀ frame, extractFrame buffer frame = .error .lengthError := by
  have hloop (s : LoopState) :
      ∃ n r, Ends (loopTurn extractFrame parse) s n r ∧ n ≤ s.manager.receiveBuffer.length / 4 := by
    apply loop_ends
    · decide
    · exact extractFrame_removes
  refine ⟨?_, extractFrame_removes, ?_⟩
  · obtain ⟨n, r, hends, hn⟩ := hloop ⟨[], m, inbox, frame⟩
    refine ⟨n, r, hends, ?_, hn⟩
    rw [ends_frames hends, List.length_nil, Nat.zero_add]
  · intro buffer hwraps
    exact ⟨hwraps.sum_lt, extractFrame_wraps hwraps⟩

/-! ## What the refusal is for -/

theorem uncheckedFrame_keeps {buffer : Bytes} (h4 : 4 ≤ buffer.length) (hlen : headerLen buffer = 0xFFFFFFFC)
    (frame : Bytes) : ∃ frame', uncheckedFrame buffer frame = .ok (true, buffer, frame') := by
  have hsum : (4 + headerLen buffer).toNat = 0 := by
    rw [hlen]
    rfl
  refine ⟨(buffer.drop 4).take (headerLen buffer).toNat, ?_⟩
  rw [uncheckedFrame, if_neg (by omega)]
  dsimp only
  rw [hsum, if_neg (by omega), erase, List.drop_zero]

/-- **Without the refusal of `assign` the loop does not end**: with this header in front it
extracts and erases nothing, again and again. -/
theorem unchecked_never_ends (parse : Bytes → Option IncomingMessage) {s : LoopState}
    (h4 : 4 ≤ s.manager.receiveBuffer.length) (hlen : headerLen s.manager.receiveBuffer = 0xFFFFFFFC)
    (n : Nat) (r : Received) : ¬ Ends (loopTurn uncheckedFrame parse) s n r := by
  -- the buffer stays as it is, while the inbox and `frame` may change
  generalize hbuffer : s.manager.receiveBuffer = buffer at h4 hlen
  apply not_ends_of_kept (I := fun s : LoopState => s.manager.receiveBuffer = buffer)
  · intro s hs
    obtain ⟨frame, hframe⟩ := uncheckedFrame_keeps h4 hlen s.frame
    unfold loopTurn
    rw [hs, hframe]
    exact ⟨_, rfl, rfl⟩
  · exact hbuffer

/-! ## The loop as a function -/

section
variable {parse : Bytes → Option IncomingMessage}

theorem extractLoop_ends (frames' : List Bytes) (m : NetworkManager) (inbox : List IncomingMessage) (frame : Bytes) :
    let r := extractLoop parse m inbox frame
    Ends (loopTurn extractFrame parse) ⟨frames', m, inbox, frame⟩ r.frames.length
      { r with frames := frames' ++ r.frames } := by
  generalize hb : m.receiveBuffer = buffer
  induction buffer using Extractor.drain_induction (E := frames.toExtractor) generalizing frames' m inbox frame with
  | more buffer hm =>
    subst hb
    rw [extractLoop_more hm]
    apply Ends.leave
    simp [loopTurn, extractFrame_cut, show cutFrame _ = _ from hm]
  | fail buffer e hf =>
    subst hb
    rw [extractLoop_fail hf]
    apply Ends.leave
    simp [loopTurn, extractFrame_cut, show cutFrame _ = _ from hf]
  | item buffer f rest hi ih =>
    subst hb
    have hturn : loopTurn extractFrame parse ⟨frames', m, inbox, frame⟩ =
        .inl ⟨frames' ++ [f], m.withBuffer rest, onMessageReceived parse (m.withBuffer rest) inbox f, f⟩ := by
      simp [loopTurn, extractFrame_cut, show cutFrame _ = _ from hi]
    have hrest := ih (frames' ++ [f]) (m.withBuffer rest) (onMessageReceived parse (m.withBuffer rest) inbox f) f rfl
    rw [extractLoop_item hi]
    apply Ends.again hturn
    simpa using hrest

theorem ends_iff (m : NetworkManager) (inbox : List IncomingMessage) (frame : Bytes) (n : Nat) (r : Received) :
    Ends (loopTurn extractFrame parse) ⟨[], m, inbox, frame⟩ n r ↔
      r = extractLoop parse m inbox frame ∧ n = r.frames.length := by
  have hloop : Ends (loopTurn extractFrame parse) ⟨[], m, inbox, frame⟩ _ _ := extractLoop_ends [] m inbox frame
  refine ⟨?_, ?_⟩
  · intro h
    obtain ⟨hn, hr⟩ := h.unique hloop
    rw [hr, hn]
    exact ⟨rfl, rfl⟩
  · rintro ⟨rfl, rfl⟩
    exact hloop

theorem frames_attained (m : NetworkManager) (inbox : List IncomingMessage) (frame : Bytes) (k : Nat) :
    ∃ buffer : Bytes, buffer.length = 4 * k ∧
      (extractLoop parse (m.withBuffer buffer) inbox frame).frames.length = k := by
  have hdrain : frames.drain ((List.replicate k []).map encodeMessage).flatten = ⟨List.replicate k [], [], none⟩ := by
    apply Framing.drain_encode
    intro payload hpayload
    rw [List.eq_of_mem_replicate hpayload]
    exact Nat.zero_le _
  refine ⟨((List.replicate k []).map encodeMessage).flatten, ?_, ?_⟩
  · rw [List.map_replicate, List.length_flatten, List.map_replicate, List.sum_replicate_nat, encodeMessage_length,
      List.length_nil]
    omega
  · rw [extractLoop_drain, NetworkManager.withBuffer_buffer, hdrain, List.length_replicate]

end

/-! ## The loop in the server thread -/

section
variable {parse : Bytes → Option IncomingMessage} {s : ServerState} {client : Socket} {frame : Bytes} {n : Nat}
  {r : Received}

/-- Where the server thread goes on after a data callback. -/
def Received.next (r : Received) (client : Socket) : ServerPc :=
  match r.error with
  | none => .handling client
  | some e => .crashed e

theorem extractTurn_again (client : Socket) {u u' : LoopState} (h : loopTurn extractFrame parse u = .inl u')
    (hmanager : s.manager = u.manager) (hinbox : s.inbox = u.inbox) (hframe : frame = u.frame) :
    (s.extractTurn parse client frame).manager = u'.manager ∧ (s.extractTurn parse client frame).inbox = u'.inbox ∧
      (s.extractTurn parse client frame).pc = .extracting client u'.frame := by
  obtain ⟨rest, hextract, -, hmanager', hinbox'⟩ := loopTurn_again h
  rw [ServerState.extractTurn, hmanager, hframe, hextract]
  refine ⟨hmanager'.symm, ?_, rfl⟩
  rw [hinbox', hmanager', hinbox]

theorem extractTurn_leave {u : LoopState} (h : loopTurn extractFrame parse u = .inr r)
    (hmanager : s.manager = u.manager) (hinbox : s.inbox = u.inbox) (hframe : frame = u.frame) :
    (s.extractTurn parse client frame).manager = r.manager ∧ (s.extractTurn parse client frame).inbox = r.inbox ∧
      (s.extractTurn parse client frame).pc = r.next client := by
  rcases loopTurn_leave h with ⟨rest, frame', hextract, rfl⟩ | ⟨e, hextract, rfl⟩
  · rw [ServerState.extractTurn, hmanager, hframe, hextract]
    exact ⟨rfl, hinbox, rfl⟩
  · rw [ServerState.extractTurn, hmanager, hframe, hextract]
    exact ⟨rfl, hinbox, rfl⟩

theorem extracting_ends {u : LoopState} (hends : Ends (loopTurn extractFrame parse) u n r)
    (hpc : s.pc = .extracting client frame) (hmanager : s.manager = u.manager) (hinbox : s.inbox = u.inbox)
    (hframe : frame = u.frame) :
    ∃ t, run (serverStep parse) s (List.replicate (n + 1) .go) = some t ∧
      t.manager = r.manager ∧ t.inbox = r.inbox ∧ t.pc = r.next client := by
  induction hends generalizing s frame with
  | leave hturn =>
    refine ⟨s.extractTurn parse client frame, ?_, extractTurn_leave hturn hmanager hinbox hframe⟩
    rw [List.replicate_one, run_cons]
    exact ⟨_, serverStep_extracting hpc, rfl⟩
  | again hturn hrest ih =>
    obtain ⟨hmanager', hinbox', hpc'⟩ := extractTurn_again client hturn hmanager hinbox hframe
    obtain ⟨t, hrun, ht⟩ := ih hpc' hmanager' hinbox' rfl
    refine ⟨t, ?_, ht⟩
    rw [List.replicate_succ, run_cons]
    exact ⟨_, serverStep_extracting hpc, hrun⟩

/-- **A data callback ends** after at most so many steps of the server thread: the thread
goes on reading, or an exception left it. -/
theorem dataCallback_ends {chunk : Bytes} (hpc : s.pc = .delivering client chunk) :
    ∃ n t, run (serverStep parse) s (List.replicate n .go) = some t ∧
      n ≤ (s.manager.receiveBuffer.length + chunk.length) / 4 + 2 ∧
      (t.pc = .handling client ∨ ∃ e, t.pc = .crashed e) := by
  have hnext (r : Received) : r.next client = .handling client ∨ ∃ e, r.next client = .crashed e := by
    unfold Received.next
    split
    · exact .inl rfl
    · exact .inr ⟨_, rfl⟩
  -- the callback may be missing, or return before its loop
  have hcases : (s.dataCallback client chunk).pc = .handling client ∨
      (s.dataCallback client chunk).pc = .extracting client [] ∧
        (s.dataCallback client chunk).manager.receiveBuffer = s.manager.receiveBuffer ++ chunk := by
    unfold ServerState.dataCallback
    split
    · dsimp only
      split
      · exact .inl rfl
      · exact .inr ⟨rfl, rfl⟩
    · exact .inl rfl
  rcases hcases with hskip | ⟨hpc', hbuffer⟩
  · refine ⟨1, s.dataCallback client chunk, ?_, by omega, .inl hskip⟩
    rw [List.replicate_one, run_cons]
    exact ⟨_, serverStep_delivering hpc, rfl⟩
  · obtain ⟨n, r, hends, hn⟩ := loop_ends (by decide) extractFrame_removes
      ⟨[], (s.dataCallback client chunk).manager, (s.dataCallback client chunk).inbox, []⟩
    obtain ⟨t, hrun, -, -, ht⟩ := extracting_ends hends hpc' rfl rfl rfl
    refine ⟨n + 2, t, ?_, ?_, ht ▸ hnext r⟩
    · rw [List.replicate_succ, run_cons]
      exact ⟨_, serverStep_delivering hpc, hrun⟩
    · dsimp only at hn
      rw [hbuffer, List.length_append] at hn
      omega

end

end Icecap.Transport
