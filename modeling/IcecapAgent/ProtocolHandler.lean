import Mathlib.Tactic.SplitIfs
import IcecapAgent.Platform
import IcecapAgent.StreamExtract

/- The wire protocol: a message is a big-endian four-byte length followed by that
   many bytes of payload.

   `extractFrame` and `encodeMessage` are the two functions of the handler. The
   length is read into a `uint32_t` and the size check adds the header's four
   bytes to it in 32 bits, so for a length of `2^32 - 4` or more the sum wraps to
   `0..3` and the check passes; what stops the extraction there is `assign`,
   which refuses a length no string can have (`extractFrame_eq`).

   That refusal is an exception: `extractFrame` does what its callers rely on exactly
   when the header fits (`extractFrame_exact_iff`).

   The two functions make a `Framing` (`frames`): the decoder decides only on
   bytes it has seen, it undoes the encoder on every payload a string can hold,
   and re-encoding a frame gives back the bytes it was cut from. -/
namespace Icecap.Transport
open StreamExtract

/-- The byte at position `i` of a string. -/
def byteAt (s : Bytes) (i : Nat) : UInt8 := s.getD i 0

/-- The header as the decoder reads it: four bytes, most significant first. -/
def headerLen (buffer : Bytes) : UInt32 :=
  ((byteAt buffer 0).toUInt32 <<< 24) ||| ((byteAt buffer 1).toUInt32 <<< 16) |||
    ((byteAt buffer 2).toUInt32 <<< 8) ||| (byteAt buffer 3).toUInt32

/-- `ProtocolHandler::extractFrame`: whether a frame was extracted, with what it
leaves in `buffer` and `frame`. -/
def extractFrame (buffer frame : Bytes) : Except StdError (Bool × Bytes × Bytes) :=
  if buffer.length < 4 then
    .ok (false, buffer, frame)
  else
    let len := headerLen buffer
    -- `4u + len` is a 32-bit sum
    if buffer.length < (4 + len).toNat then
      .ok (false, buffer, frame)
    else do
      let frame ← assign (buffer.drop 4) len.toNat
      return (true, erase buffer (4 + len).toNat, frame)

/-- `ProtocolHandler::encodeMessage`. -/
def encodeMessage (payload : Bytes) : Bytes :=
  let len : UInt32 := UInt32.ofNat payload.length
  let header : Bytes :=
    [((len >>> 24) &&& 0xFF).toUInt8, ((len >>> 16) &&& 0xFF).toUInt8,
     ((len >>> 8) &&& 0xFF).toUInt8, (len &&& 0xFF).toUInt8]
  header ++ payload

/-! ## The header as a number -/

/-- The exact value of the first four bytes read big-endian. -/
def headerValue (buffer : Bytes) : Nat :=
  (byteAt buffer 0).toNat * 2^24 + (byteAt buffer 1).toNat * 2^16 +
    (byteAt buffer 2).toNat * 2^8 + (byteAt buffer 3).toNat

theorem byteAt_append {s t : Bytes} {i : Nat} (h : i < s.length) : byteAt (s ++ t) i = byteAt s i := by
  simp [byteAt, List.getElem?_append_left h]

theorem headerValue_append {s t : Bytes} (h : 4 ≤ s.length) : headerValue (s ++ t) = headerValue s := by
  simp only [headerValue, byteAt_append (show 0 < s.length by omega),
    byteAt_append (show 1 < s.length by omega), byteAt_append (show 2 < s.length by omega),
    byteAt_append (show 3 < s.length by omega)]

theorem headerValue_lt (buffer : Bytes) : headerValue buffer < 2^32 := by
  unfold headerValue
  have h0 := (byteAt buffer 0).toNat_lt
  have h1 := (byteAt buffer 1).toNat_lt
  have h2 := (byteAt buffer 2).toNat_lt
  have h3 := (byteAt buffer 3).toNat_lt
  omega

theorem shift_or_add {a b i : Nat} (hb : b < 2^i) : a * 2^i ||| b = a * 2^i + b := by
  rw [Nat.mul_comm, ← Nat.two_pow_add_eq_or_of_lt hb]

theorem headerLen_toNat (buffer : Bytes) : (headerLen buffer).toNat = headerValue buffer := by
  have h0 := (byteAt buffer 0).toNat_lt
  have h1 := (byteAt buffer 1).toNat_lt
  have h2 := (byteAt buffer 2).toNat_lt
  have h3 := (byteAt buffer 3).toNat_lt
  simp only [headerLen, headerValue, UInt32.toNat_or, UInt32.toNat_shiftLeft, UInt8.toNat_toUInt32,
    UInt32.reduceToNat, Nat.reduceMod, Nat.shiftLeft_eq]
  generalize (byteAt buffer 0).toNat = b0 at *
  generalize (byteAt buffer 1).toNat = b1 at *
  generalize (byteAt buffer 2).toNat = b2 at *
  generalize (byteAt buffer 3).toNat = b3 at *
  rw [Nat.mod_eq_of_lt (show b0 * 2^24 < 2^32 by omega), Nat.mod_eq_of_lt (show b1 * 2^16 < 2^32 by omega),
    Nat.mod_eq_of_lt (show b2 * 2^8 < 2^32 by omega), shift_or_add (show b1 * 2^16 < 2^24 by omega),
    show b0 * 2^24 + b1 * 2^16 = (b0 * 2^8 + b1) * 2^16 by omega,
    shift_or_add (show b2 * 2^8 < 2^16 by omega),
    show (b0 * 2^8 + b1) * 2^16 + b2 * 2^8 = (b0 * 2^16 + b1 * 2^8 + b2) * 2^8 by omega,
    shift_or_add (show b3 < 2^8 by omega)]

/-! ## The decoder -/

/-- What `extractFrame` does, by the exact value of the header: the sum wraps
exactly when the value is at least `2^32 - 4`, and then `assign` raises. -/
theorem extractFrame_eq (buffer frame : Bytes) :
    extractFrame buffer frame =
      if buffer.length < 4 then .ok (false, buffer, frame)
      else if 2^32 ≤ 4 + headerValue buffer then .error .lengthError
      else if buffer.length < 4 + headerValue buffer then .ok (false, buffer, frame)
      else if maxSize < headerValue buffer then .error .lengthError
      else .ok (true, buffer.drop (4 + headerValue buffer), (buffer.drop 4).take (headerValue buffer)) := by
  have hv := headerValue_lt buffer
  have hsum : (4 + headerLen buffer).toNat = (4 + headerValue buffer) % 2^32 := by
    rw [UInt32.toNat_add, headerLen_toNat]; rfl
  simp only [extractFrame, hsum, headerLen_toNat, assign, erase]
  split
  · rfl
  · rename_i h4
    by_cases hwrap : 2^32 ≤ 4 + headerValue buffer
    · rw [if_pos hwrap, if_neg (by omega), if_pos (by unfold maxSize; omega)]
      rfl
    · rw [if_neg hwrap, Nat.mod_eq_of_lt (by omega)]
      split
      · rfl
      · split <;> rfl

/-- `extractFrame` with what it does to its arguments left out. -/
def cutFrame (buffer : Bytes) : Cut UInt8 Bytes StdError :=
  match extractFrame buffer [] with
  | .error e => .fail e
  | .ok (false, _, _) => .more
  | .ok (true, rest, frame) => .item frame rest

theorem cutFrame_eq (buffer : Bytes) :
    cutFrame buffer =
      if buffer.length < 4 then .more
      else if 2^32 ≤ 4 + headerValue buffer then .fail .lengthError
      else if buffer.length < 4 + headerValue buffer then .more
      else if maxSize < headerValue buffer then .fail .lengthError
      else .item ((buffer.drop 4).take (headerValue buffer)) (buffer.drop (4 + headerValue buffer)) := by
  rw [cutFrame, extractFrame_eq]
  split_ifs <;> rfl

/-- `cutFrame` says all there is to say: the buffer changes only by the frame cut
off it, and `frame` only when there is one. -/
theorem extractFrame_cut (buffer frame : Bytes) :
    extractFrame buffer frame =
      match cutFrame buffer with
      | .more => .ok (false, buffer, frame)
      | .item f rest => .ok (true, rest, f)
      | .fail e => .error e := by
  rw [cutFrame_eq, extractFrame_eq]
  split_ifs <;> rfl

/-- The buffer holds no complete frame: not even a header, or a payload shorter
than its header says. -/
def NoCompleteFrame (buffer : Bytes) : Prop :=
  buffer.length < 4 ∨ buffer.length < 4 + headerValue buffer

theorem cutFrame_more {buffer : Bytes} (h : cutFrame buffer = .more) : NoCompleteFrame buffer := by
  rw [cutFrame_eq] at h
  split_ifs at h with h4 _ hlen
  · exact .inl h4
  · exact .inr hlen

theorem cutFrame_item {buffer frame rest : Bytes} (h : cutFrame buffer = .item frame rest) :
    4 + headerValue buffer ≤ buffer.length ∧ headerValue buffer ≤ maxSize ∧
      frame = (buffer.drop 4).take (headerValue buffer) ∧ rest = buffer.drop (4 + headerValue buffer) := by
  rw [cutFrame_eq] at h
  split_ifs at h with h4 hwrap hlen hmax
  obtain ⟨rfl, rfl⟩ := Cut.item.inj h
  exact ⟨by omega, by omega, rfl, rfl⟩

theorem cutFrame_of_fits {buffer : Bytes} (hlen : 4 + headerValue buffer ≤ buffer.length)
    (hmax : headerValue buffer ≤ maxSize) :
    cutFrame buffer = .item ((buffer.drop 4).take (headerValue buffer)) (buffer.drop (4 + headerValue buffer)) := by
  have : maxSize < 2^32 - 4 := by decide
  rw [cutFrame_eq, if_neg (by omega), if_neg (by omega), if_neg (by omega), if_neg (by omega)]

theorem cutFrame_fail {buffer : Bytes} {e : StdError} (h : cutFrame buffer = .fail e) :
    4 ≤ buffer.length ∧ (2^32 ≤ 4 + headerValue buffer ∨
      (4 + headerValue buffer ≤ buffer.length ∧ maxSize < headerValue buffer)) := by
  rw [cutFrame_eq] at h
  split_ifs at h with h4 hwrap hlen hmax
  · exact ⟨by omega, .inl hwrap⟩
  · exact ⟨by omega, .inr ⟨by omega, hmax⟩⟩

theorem cutFrame_of_overlong {buffer : Bytes} {e : StdError} (h4 : 4 ≤ buffer.length)
    (h : 2^32 ≤ 4 + headerValue buffer ∨
      (4 + headerValue buffer ≤ buffer.length ∧ maxSize < headerValue buffer)) :
    cutFrame buffer = .fail e := by
  obtain rfl : e = .lengthError := by cases e; rfl
  rw [cutFrame_eq, if_neg (by omega)]
  by_cases hwrap : 2^32 ≤ 4 + headerValue buffer
  · rw [if_pos hwrap]
  · obtain ⟨hlen, hmax⟩ := h.resolve_left hwrap
    rw [if_neg hwrap, if_neg (by omega), if_pos hmax]

/-! ## The encoder -/

theorem encodeMessage_length (payload : Bytes) : (encodeMessage payload).length = payload.length + 4 := by
  simp [encodeMessage]

theorem encodeMessage_drop (payload : Bytes) : (encodeMessage payload).drop 4 = payload := rfl

theorem headerValue_encode {payload : Bytes} (h : payload.length < 2^32) :
    headerValue (encodeMessage payload) = payload.length := by
  have hlen : (UInt32.ofNat payload.length).toNat = payload.length := UInt32.toNat_ofNat_of_lt' h
  have mask (n : Nat) : n &&& 255 = n % 2^8 := Nat.and_two_pow_sub_one_eq_mod n 8
  simp only [headerValue, byteAt, encodeMessage, List.cons_append, List.nil_append, List.getD_cons_zero,
    List.getD_cons_succ, UInt32.toNat_toUInt8, UInt32.toNat_and, UInt32.toNat_shiftRight, hlen,
    UInt32.reduceToNat, Nat.reduceMod, Nat.shiftRight_eq_div_pow, mask]
  omega

theorem four_bytes {s : Bytes} (h : s.length = 4) : ∃ b0 b1 b2 b3, s = [b0, b1, b2, b3] := by
  match s, h with
  | [b0, b1, b2, b3], _ => exact ⟨b0, b1, b2, b3, rfl⟩

/-- A header is determined by its value: its bytes are the value's digits. -/
theorem header_unique {s t : Bytes} (hs : s.length = 4) (ht : t.length = 4)
    (h : headerValue s = headerValue t) : s = t := by
  obtain ⟨a0, a1, a2, a3, rfl⟩ := four_bytes hs
  obtain ⟨b0, b1, b2, b3, rfl⟩ := four_bytes ht
  have := a1.toNat_lt; have := a2.toNat_lt; have := a3.toNat_lt
  have := b1.toNat_lt; have := b2.toNat_lt; have := b3.toNat_lt
  simp only [headerValue, byteAt, List.getD_cons_zero, List.getD_cons_succ] at h
  rw [UInt8.toNat_inj.mp (show a0.toNat = b0.toNat by omega),
    UInt8.toNat_inj.mp (show a1.toNat = b1.toNat by omega),
    UInt8.toNat_inj.mp (show a2.toNat = b2.toNat by omega),
    UInt8.toNat_inj.mp (show a3.toNat = b3.toNat by omega)]

theorem headerValue_take {s : Bytes} (h : 4 ≤ s.length) : headerValue (s.take 4) = headerValue s := by
  rw [← headerValue_append (t := s.drop 4) (by rw [List.length_take]; omega), List.take_append_drop]

theorem encodeMessage_frame {buffer : Bytes} (h : 4 + headerValue buffer ≤ buffer.length) :
    encodeMessage ((buffer.drop 4).take (headerValue buffer)) = buffer.take (4 + headerValue buffer) := by
  have hv := headerValue_lt buffer
  generalize hf : (buffer.drop 4).take (headerValue buffer) = frame
  have hsize : frame.length = headerValue buffer := by
    rw [← hf, List.length_take, List.length_drop]; omega
  have hlen : 4 ≤ (encodeMessage frame).length := by rw [encodeMessage_length]; omega
  have hheader : (encodeMessage frame).take 4 = buffer.take 4 := by
    apply header_unique
    · rw [List.length_take]; omega
    · rw [List.length_take]; omega
    · rw [headerValue_take hlen, headerValue_take (by omega), headerValue_encode (by omega), hsize]
  calc encodeMessage frame
      = (encodeMessage frame).take 4 ++ (encodeMessage frame).drop 4 := (List.take_append_drop _ _).symm
    _ = buffer.take 4 ++ (buffer.drop 4).take (headerValue buffer) := by rw [hheader, encodeMessage_drop, hf]
    _ = buffer.take (4 + headerValue buffer) := List.take_add.symm

/-! ## Decoder and encoder as a framing -/

/-- The wire protocol as a framing; a payload fits when a string can hold it. -/
def frames : Framing UInt8 Bytes StdError where
  cut := cutFrame
  cut_nil := rfl
  item_shrinks h := by
    obtain ⟨hlen, -, -, rfl⟩ := cutFrame_item h
    rw [List.length_drop]
    omega
  item_append := fun {buf _ _} h tail => by
    obtain ⟨hlen, hmax, rfl, rfl⟩ := cutFrame_item h
    have hv : headerValue (buf ++ tail) = headerValue buf := headerValue_append (by omega)
    rw [cutFrame_of_fits (by rw [hv, List.length_append]; omega) (by omega), hv,
      List.drop_append_of_le_length (by omega), List.drop_append_of_le_length hlen,
      List.take_append_of_le_length (by rw [List.length_drop]; omega)]
  fail_append := fun {buf _} h tail => by
    obtain ⟨h4, hover⟩ := cutFrame_fail h
    have hv : headerValue (buf ++ tail) = headerValue buf := headerValue_append h4
    apply cutFrame_of_overlong
    · rw [List.length_append]; omega
    · rw [List.length_append, hv]; omega
  encode := encodeMessage
  fits payload := payload.length ≤ maxSize
  cut_encode := fun {payload} h => by
    have hmax : maxSize < 2^32 := by decide
    have hv : headerValue (encodeMessage payload) = payload.length := headerValue_encode (by omega)
    rw [cutFrame_of_fits (by rw [hv, encodeMessage_length]; omega) (by rw [hv]; exact h), hv,
      encodeMessage_drop]
    rw [List.take_length, List.drop_eq_nil_of_le (by rw [encodeMessage_length]; omega)]
  encode_cut h := by
    obtain ⟨hlen, hmax, rfl, rfl⟩ := cutFrame_item h
    rw [encodeMessage_frame hlen, List.take_append_drop]

/-! ## The law of extraction -/

/-- What a caller of `extractFrame` relies on: a complete frame is cut off the buffer, and
while there is none nothing changes. -/
def extracted (buffer frame : Bytes) : Bool × Bytes × Bytes :=
  if buffer.length < 4 ∨ buffer.length < 4 + headerValue buffer then (false, buffer, frame)
  else (true, buffer.drop (4 + headerValue buffer), (buffer.drop 4).take (headerValue buffer))

/-- A header that was read makes a sum of 32 bits, and if its payload is there, a string
can hold the payload. -/
def HeaderFits (buffer : Bytes) : Prop :=
  buffer.length < 4 ∨
    4 + headerValue buffer < 2^32 ∧ (buffer.length < 4 + headerValue buffer ∨ headerValue buffer ≤ maxSize)

instance (buffer : Bytes) : Decidable (HeaderFits buffer) := inferInstanceAs (Decidable (_ ∨ _))

theorem extractFrame_of_fits {buffer : Bytes} (h : HeaderFits buffer) (frame : Bytes) :
    extractFrame buffer frame = .ok (extracted buffer frame) := by
  rw [extractFrame_eq, extracted]
  by_cases h4 : buffer.length < 4
  · rw [if_pos h4, if_pos (.inl h4)]
  · obtain ⟨hsum, hpayload⟩ := h.resolve_left h4
    rw [if_neg h4, if_neg (by omega)]
    by_cases hlen : buffer.length < 4 + headerValue buffer
    · rw [if_pos hlen, if_pos (.inr hlen)]
    · have hmax := hpayload.resolve_left hlen
      rw [if_neg hlen, if_neg (by omega), if_neg (not_or.mpr ⟨h4, hlen⟩)]

theorem extractFrame_of_not_fits {buffer : Bytes} (h : ¬ HeaderFits buffer) (frame : Bytes) :
    extractFrame buffer frame = .error .lengthError := by
  have hcut : cutFrame buffer = .fail .lengthError := by
    simp only [HeaderFits, not_or, not_and_or] at h
    exact cutFrame_of_overlong (by omega) (by omega)
  rw [extractFrame_cut, hcut]

/-- **The law of extraction**: `extractFrame` returns, and does what its callers rely on,
exactly when the header fits. -/
theorem extractFrame_exact_iff (buffer frame : Bytes) :
    extractFrame buffer frame = .ok (extracted buffer frame) ↔ HeaderFits buffer := by
  refine ⟨fun h => ?_, fun h => extractFrame_of_fits h frame⟩
  by_contra hfits
  rw [extractFrame_of_not_fits hfits] at h
  simp at h

/-- **Four bytes make the decoder throw**: the header `FF FF FF FF` and nothing else. -/
theorem extractFrame_throws :
    ¬ ∀ buffer frame : Bytes, buffer.length < 2^32 → extractFrame buffer frame = .ok (extracted buffer frame) := by
  intro h
  have hcall := h [0xFF, 0xFF, 0xFF, 0xFF] [] (by decide)
  have hthrows : extractFrame [0xFF, 0xFF, 0xFF, 0xFF] [] = .error .lengthError := by decide +kernel
  rw [hthrows] at hcall
  simp at hcall

end Icecap.Transport
