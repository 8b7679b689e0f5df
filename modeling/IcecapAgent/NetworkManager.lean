import IcecapAgent.Messages
import IcecapAgent.ProtocolHandler

/- The receiving half of the network manager: the callbacks the TCP server makes
   on its thread. A chunk is appended to the receive buffer, complete frames are
   extracted from it, and each frame that parses is pushed to the inbox.

   `ParseFromString` is the parameter `parse`, a partial function from bytes to
   commands. The calls return, next to the state they leave, the frames they
   handed to `onMessageReceived` and the exception that left them, if any. That
   `m_receiveBuffer.append` throws, for memory or for `max_size`, is left out. -/
namespace Icecap.Transport
open StreamExtract

/-- `NetworkManager`, with each pointer to a queue or mutex as whether it is set. -/
structure NetworkManager where
  running : Bool
  currentClient : Socket
  receiveBuffer : Bytes
  inboxQueue : Bool
  inboxMutex : Bool
  outboxQueue : Bool
  outboxMutex : Bool
  deriving DecidableEq, Repr

namespace NetworkManager

/-- As constructed. -/
def fresh : NetworkManager := ⟨false, invalidSocket, [], false, false, false, false⟩

/-- As a first successful `startServer` leaves it. -/
def started : NetworkManager := ⟨true, invalidSocket, [], true, true, true, true⟩

def onClientConnected (m : NetworkManager) (clientSocket : Socket) : NetworkManager :=
  { m with currentClient := clientSocket, receiveBuffer := [] }

def onClientDisconnected (m : NetworkManager) (clientSocket : Socket) : NetworkManager :=
  if m.currentClient = clientSocket then
    { m with currentClient := invalidSocket, receiveBuffer := [] }
  else m

/-- The manager with another receive buffer. -/
def withBuffer (m : NetworkManager) (buffer : Bytes) : NetworkManager := { m with receiveBuffer := buffer }

@[simp] theorem withBuffer_running (m : NetworkManager) (b : Bytes) : (m.withBuffer b).running = m.running := rfl
@[simp] theorem withBuffer_buffer (m : NetworkManager) (b : Bytes) : (m.withBuffer b).receiveBuffer = b := rfl
@[simp] theorem withBuffer_withBuffer (m : NetworkManager) (b c : Bytes) :
    (m.withBuffer b).withBuffer c = m.withBuffer c := rfl
@[simp] theorem withBuffer_self (m : NetworkManager) : m.withBuffer m.receiveBuffer = m := rfl

/-- The manager runs and knows the inbox, as between `startServer` and `stopServer`. -/
def Serving (m : NetworkManager) : Prop :=
  m.running = true ∧ m.inboxQueue = true ∧ m.inboxMutex = true

instance (m : NetworkManager) : Decidable m.Serving := inferInstanceAs (Decidable (_ ∧ _))

end NetworkManager

/-- The outcome of data callbacks: the frames handed to `onMessageReceived` in
order, the manager and the inbox afterwards, and the exception raised, if any. -/
structure Received where
  frames : List Bytes
  manager : NetworkManager
  inbox : List IncomingMessage
  error : Option StdError
  deriving DecidableEq, Repr

section
variable (parse : Bytes → Option IncomingMessage)

/-- `NetworkManager::onMessageReceived`, as what it leaves in the inbox. -/
def onMessageReceived (m : NetworkManager) (inbox : List IncomingMessage) (message : Bytes) :
    List IncomingMessage :=
  if !m.running || !m.inboxQueue || !m.inboxMutex then inbox
  else
    match parse message with
    | none => inbox
    | some command => inbox ++ [command]

theorem extractFrame_shrinks {buffer frame rest frame' : Bytes}
    (h : extractFrame buffer frame = .ok (true, rest, frame')) : rest.length < buffer.length := by
  rw [extractFrame_cut] at h
  cases hc : cutFrame buffer with
  | more => simp [hc] at h
  | fail e => simp [hc] at h
  | item f r =>
    simp only [hc, Except.ok.injEq, Prod.mk.injEq, true_and] at h
    rw [← h.1]
    exact frames.item_shrinks hc

/-- The `while` loop of `onDataReceived`. -/
def extractLoop (m : NetworkManager) (inbox : List IncomingMessage) (frame : Bytes) : Received :=
  match _h : extractFrame m.receiveBuffer frame with
  | .error e => ⟨[], m, inbox, some e⟩
  | .ok (false, buffer, _) => ⟨[], m.withBuffer buffer, inbox, none⟩
  | .ok (true, buffer, frame) =>
    let m := m.withBuffer buffer
    let r := extractLoop m (onMessageReceived parse m inbox frame) frame
    { r with frames := frame :: r.frames }
termination_by m.receiveBuffer.length
decreasing_by exact extractFrame_shrinks _h

/-- `NetworkManager::onDataReceived`; `data` is `none` for a null pointer. -/
def onDataReceived (m : NetworkManager) (inbox : List IncomingMessage) (data : Option Bytes) : Received :=
  match data with
  | none => ⟨[], m, inbox, none⟩
  | some bytes =>
    if !m.running || bytes.length == 0 then ⟨[], m, inbox, none⟩
    else extractLoop parse (m.withBuffer (m.receiveBuffer ++ bytes)) inbox []

/-- Successive data callbacks; an exception leaves the server thread, so no
callback follows it. -/
def receiveAll (m : NetworkManager) (inbox : List IncomingMessage) : List Bytes → Received
  | [] => ⟨[], m, inbox, none⟩
  | chunk :: chunks =>
    let r := onDataReceived parse m inbox (some chunk)
    match r.error with
    | some e => { r with error := some e }
    | none =>
      let r' := receiveAll r.manager r.inbox chunks
      { r' with frames := r.frames ++ r'.frames }

/-! ## The callbacks as incremental extraction -/

/-- What a frame adds to the inbox: its parse, when the manager is serving. -/
def accepted (m : NetworkManager) (frame : Bytes) : Option IncomingMessage :=
  if m.Serving then parse frame else none

@[simp] theorem accepted_withBuffer (m : NetworkManager) (b : Bytes) :
    accepted parse (m.withBuffer b) = accepted parse m := rfl

theorem accepted_serving {m : NetworkManager} (h : m.Serving) : accepted parse m = parse := by
  funext frame
  exact if_pos h

theorem onMessageReceived_eq (m : NetworkManager) (inbox : List IncomingMessage) (message : Bytes) :
    onMessageReceived parse m inbox message = inbox ++ (accepted parse m message).toList := by
  unfold onMessageReceived accepted
  by_cases h : m.Serving
  · obtain ⟨hr, hq, hm⟩ := h
    simp only [hr, hq, hm, NetworkManager.Serving, Bool.not_true, Bool.or_false, and_self, if_true]
    cases parse message <;> simp
  · rw [if_neg h, if_pos]
    · exact (List.append_nil inbox).symm
    · unfold NetworkManager.Serving at h
      cases hr : m.running <;> cases hq : m.inboxQueue <;> cases hm : m.inboxMutex <;> simp_all

section Loop
variable {parse} {m : NetworkManager} {inbox : List IncomingMessage} {frame : Bytes}

theorem extractLoop_more (h : cutFrame m.receiveBuffer = .more) :
    extractLoop parse m inbox frame = ⟨[], m, inbox, none⟩ := by
  rw [extractLoop]
  split <;> rename_i heq <;> rw [extractFrame_cut, h] at heq <;> simp at heq
  rw [← heq.1, NetworkManager.withBuffer_self]

theorem extractLoop_fail {e : StdError} (h : cutFrame m.receiveBuffer = .fail e) :
    extractLoop parse m inbox frame = ⟨[], m, inbox, some e⟩ := by
  rw [extractLoop]
  split <;> rename_i heq <;> rw [extractFrame_cut, h] at heq <;> simp at heq

theorem extractLoop_item {f rest : Bytes} (h : cutFrame m.receiveBuffer = .item f rest) :
    extractLoop parse m inbox frame =
      let m' := m.withBuffer rest
      let r := extractLoop parse m' (onMessageReceived parse m' inbox f) f
      { r with frames := f :: r.frames } := by
  rw [extractLoop]
  split <;> rename_i heq <;> rw [extractFrame_cut, h] at heq <;> simp at heq
  obtain ⟨rfl, rfl⟩ := heq
  rfl

end Loop

theorem extractLoop_drain (m : NetworkManager) (inbox : List IncomingMessage) (frame : Bytes) :
    extractLoop parse m inbox frame =
      let d := frames.drain m.receiveBuffer
      ⟨d.items, m.withBuffer d.rest, inbox ++ d.items.filterMap (accepted parse m), d.error⟩ := by
  generalize hb : m.receiveBuffer = buffer
  induction buffer using Extractor.drain_induction (E := frames.toExtractor) generalizing m inbox frame with
  | more buffer hm =>
    subst hb
    rw [extractLoop_more hm, Extractor.drain_more hm]
    simp
  | fail buffer e hf =>
    subst hb
    rw [extractLoop_fail hf, Extractor.drain_fail hf]
    simp
  | item buffer f rest hi ih =>
    subst hb
    rw [extractLoop_item hi, Extractor.drain_item hi]
    simp only [ih (m.withBuffer rest) _ f rfl, onMessageReceived_eq]
    cases h : accepted parse m f <;> simp [h]

/-- A data callback on a running manager drains what the buffer holds and the chunk. -/
theorem onDataReceived_drain {m : NetworkManager} (hrun : m.running = true)
    (hquiet : cutFrame m.receiveBuffer = .more) (inbox : List IncomingMessage) (chunk : Bytes) :
    onDataReceived parse m inbox (some chunk) =
      let d := frames.drain (m.receiveBuffer ++ chunk)
      ⟨d.items, m.withBuffer d.rest, inbox ++ d.items.filterMap (accepted parse m), d.error⟩ := by
  simp only [onDataReceived, hrun, Bool.not_true, Bool.false_or]
  cases chunk with
  | nil =>
    rw [List.append_nil, Extractor.drain_more hquiet]
    simp
  | cons b chunk =>
    rw [if_neg (by simp), extractLoop_drain]
    rfl

theorem receiveAll_feed {m : NetworkManager} (hrun : m.running = true)
    (hquiet : cutFrame m.receiveBuffer = .more) (inbox : List IncomingMessage) (chunks : List Bytes) :
    receiveAll parse m inbox chunks =
      let d := frames.feed m.receiveBuffer chunks
      ⟨d.items, m.withBuffer d.rest, inbox ++ d.items.filterMap (accepted parse m), d.error⟩ := by
  induction chunks generalizing m inbox with
  | nil => simp [receiveAll, Extractor.feed]
  | cons chunk chunks ih =>
    simp only [receiveAll, onDataReceived_drain parse hrun hquiet, Extractor.feed]
    cases he : (frames.drain (m.receiveBuffer ++ chunk)).error with
    | some e => rfl
    | none =>
      have hrest := Extractor.cut_drain_rest _ he
      rw [ih (m := m.withBuffer (frames.drain (m.receiveBuffer ++ chunk)).rest) hrun hrest]
      simp

end

end Icecap.Transport
