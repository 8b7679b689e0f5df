import Mathlib.Data.List.TakeDrop
import Mathlib.Tactic.SplitIfs
import IcecapAgent.CellRange
import IcecapAgent.Platform

/- Reading the memory of the process without faulting.

   `ReadProcessMemory` copies the range it is asked for when all of it is readable, and
   otherwise nothing. Addresses are taken modulo `2^32`; the first page of a process is
   never readable, so no range that is read goes past the end.

   `readCStringBounded` reads a string in chunks of 128 bytes. The end of a string may
   lie in a chunk that is not readable to its own end, and then the part of the string in
   that chunk is lost. And a string of exactly `maxLen` bytes gets the ellipsis that stands
   for what was cut off, since the loop looks no further than `maxLen` bytes.

   `readsExactly_iff` — the strings that are read right, in terms of the chunk that decides;
   `reads_inexactly` — one string of each kind that is not. -/
namespace Icecap.Hooks
open CellRange

/-- The byte at each address, where it can be read. -/
abbrev Memory := UInt32 → Option UInt8

/-- The memory from an address on. -/
def Memory.cells (m : Memory) (addr : UInt32) (i : Nat) : Option UInt8 := m (addr + UInt32.ofNat i)

/-- `ReadProcessMemory` on the process itself. -/
def readProcessMemory (m : Memory) (addr : UInt32) (size : Nat) : Option Bytes := read (m.cells addr) 0 size

/-! ## `readCStringBounded` -/

/-- The buffer of `readCStringBounded` has this many bytes. -/
def chunk : Nat := 128

/-- `"…"`, as the compiler stores it. -/
def ellipsis : Bytes := [0xE2, 0x80, 0xA6]

/-- The loop over a chunk: whether it found the end of the string, and `total` and
`result` after it. -/
def copyChunk (maxLen : Nat) : Bytes → Nat → Bytes → Bool × Nat × Bytes
  | [], total, result => (false, total, result)
  | c :: buf, total, result =>
    if total < maxLen then
      if c = 0 then (true, total, result) else copyChunk maxLen buf (total + 1) (result ++ [c])
    else (false, total, result)

theorem copyChunk_mono (maxLen : Nat) (buf : Bytes) (total : Nat) (result : Bytes) :
    total ≤ (copyChunk maxLen buf total result).2.1 := by
  induction buf generalizing total result with
  | nil => exact Nat.le_refl _
  | cons c buf ih =>
    rw [copyChunk]
    split_ifs
    · exact Nat.le_refl _
    · exact Nat.le_trans (Nat.le_succ _) (ih _ _)
    · exact Nat.le_refl _

theorem copyChunk_progress {maxLen total total' : Nat} {buf result result' : Bytes} (hbuf : buf ≠ [])
    (h : copyChunk maxLen buf total result = (false, total', result')) (hmore : total' < maxLen) : total < total' := by
  cases buf with
  | nil => exact absurd rfl hbuf
  | cons c buf =>
    rw [copyChunk] at h
    split_ifs at h with hlt hc
    · simp at h
    · have hle := copyChunk_mono maxLen buf (total + 1) (result ++ [c])
      rw [h] at hle
      exact hle
    · obtain ⟨rfl, rfl⟩ : total = total' ∧ result = result' := by simpa using h
      exact absurd hmore hlt

/-- The loop over the chunks. -/
def readChunks (m : Memory) (addr : UInt32) (maxLen total : Nat) (result : Bytes) : Bytes :=
  match readProcessMemory m (addr + UInt32.ofNat total) chunk with
  | none => result
  | some buf =>
    if _hempty : buf = [] then result
    else
      match _h : copyChunk maxLen buf total result with
      | (true, _, result) => result
      | (false, total', result) =>
        if _hfull : maxLen ≤ total' then result ++ ellipsis
        else if buf.length < chunk then result
        else readChunks m addr maxLen total' result
  termination_by maxLen - total
  decreasing_by
    have hprogress := copyChunk_progress (by assumption) (by assumption) (by omega)
    omega

/-- `readCStringBounded`; the default of `maxLen` is 1024. -/
def readCStringBounded (m : Memory) (addr : UInt32) (maxLen : Nat) : Bytes :=
  if addr = 0 then literal "(null)" else readChunks m addr maxLen 0 []

/-! ## One chunk -/

section
variable {m : Memory} {addr : UInt32} {maxLen total : Nat} {buf result text : Bytes}

theorem readProcessMemory_at (m : Memory) (addr : UInt32) (total size : Nat) :
    readProcessMemory m (addr + UInt32.ofNat total) size = read (m.cells addr) total size := by
  rw [readProcessMemory, ← read_shift (m.cells addr)]
  congr 1
  funext i
  rw [Memory.cells, Memory.cells, UInt32.add_assoc, UInt32.ofNat_add]

theorem readChunks_unreadable (h : read (m.cells addr) total chunk = none) :
    readChunks m addr maxLen total result = result := by
  rw [readChunks, readProcessMemory_at, h]

theorem readChunks_readable (h : read (m.cells addr) total chunk = some buf) :
    readChunks m addr maxLen total result =
      match copyChunk maxLen buf total result with
      | (true, _, result) => result
      | (false, total', result) =>
        if maxLen ≤ total' then result ++ ellipsis else readChunks m addr maxLen total' result := by
  have hlength : buf.length = chunk := read_length h
  have hempty : buf ≠ [] := by
    rintro rfl
    simp [chunk] at hlength
  rw [readChunks, readProcessMemory_at, h]
  dsimp only
  rw [dif_neg hempty]
  split
  · rename_i heq
    rw [heq]
  · rename_i heq
    rw [heq]
    dsimp only
    rw [if_neg (by omega)]
    split <;> rfl

/-- A chunk without an end, or with one that `maxLen` keeps the loop from reaching. -/
theorem copyChunk_clean (h : 0 ∉ buf.take (maxLen - total)) (hle : total ≤ maxLen) :
    copyChunk maxLen buf total result =
      (false, total + (buf.take (maxLen - total)).length, result ++ buf.take (maxLen - total)) := by
  induction buf generalizing total result with
  | nil => simp [copyChunk]
  | cons c buf ih =>
    rw [copyChunk]
    by_cases hlt : total < maxLen
    · obtain ⟨k, hk⟩ : ∃ k, maxLen - total = k + 1 := ⟨maxLen - total - 1, by omega⟩
      rw [hk, List.take_succ_cons, List.mem_cons, not_or] at h
      rw [if_pos hlt, if_neg (Ne.symm h.1), ih (by rw [show maxLen - (total + 1) = k by omega]; exact h.2) hlt,
        hk, show maxLen - (total + 1) = k by omega, List.take_succ_cons, List.length_cons, List.append_assoc]
      congr 2
      omega
    · rw [if_neg hlt, show maxLen - total = 0 by omega]
      simp

theorem copyChunk_end (rest : Bytes) (h : 0 ∉ text) (hlt : total + text.length < maxLen) :
    copyChunk maxLen (text ++ 0 :: rest) total result = (true, total + text.length, result ++ text) := by
  induction text generalizing total result with
  | nil =>
    rw [List.nil_append, copyChunk, if_pos (by simpa using hlt), if_pos rfl]
    simp
  | cons c text ih =>
    rw [List.length_cons] at hlt
    rw [List.mem_cons, not_or] at h
    rw [List.cons_append, copyChunk, if_pos (by omega), if_neg (Ne.symm h.1), ih h.2 (by omega), List.append_assoc,
      List.length_cons]
    congr 2
    omega

/-! ## The whole string -/

/-- Whether `ReadProcessMemory` succeeds on the chunk of this number. -/
def chunkReadable (m : Memory) (addr : UInt32) (i : Nat) : Bool :=
  (readProcessMemory m (addr + UInt32.ofNat (chunk * i)) chunk).isSome

theorem chunkReadable_iff {i : Nat} :
    chunkReadable m addr i = true ↔ ∃ buf, read (m.cells addr) (chunk * i) chunk = some buf := by
  rw [chunkReadable, readProcessMemory_at, Option.isSome_iff_exists]

theorem not_chunkReadable_iff {i : Nat} :
    ¬ chunkReadable m addr i = true ↔ read (m.cells addr) (chunk * i) chunk = none := by
  rw [chunkReadable, readProcessMemory_at, Option.not_isSome_iff_eq_none]

/-- The loop gets through the chunks that lie inside the string and inside `maxLen`. -/
theorem readChunks_reaches (hread : read (m.cells addr) 0 text.length = some text) (hnul : 0 ∉ text) {i : Nat}
    (hle : chunk * i ≤ text.length) (hlt : i = 0 ∨ chunk * i < maxLen) :
    readChunks m addr maxLen 0 [] = readChunks m addr maxLen (chunk * i) (text.take (chunk * i)) := by
  induction i with
  | zero => rfl
  | succ i ih =>
    have hnext : chunk * (i + 1) = chunk * i + chunk := Nat.mul_succ _ _
    have hchunk : read (m.cells addr) (chunk * i) chunk = some ((text.drop (chunk * i)).take chunk) := by
      have hslice := read_slice hread (show chunk * i + chunk ≤ text.length by omega)
      rwa [Nat.zero_add] at hslice
    have hlength := read_length hchunk
    have htake : ((text.drop (chunk * i)).take chunk).take (maxLen - chunk * i) = (text.drop (chunk * i)).take chunk :=
      List.take_of_length_le (by omega)
    have hclean : 0 ∉ ((text.drop (chunk * i)).take chunk).take (maxLen - chunk * i) := by
      rw [htake]
      exact fun hmem => hnul (List.mem_of_mem_drop (List.mem_of_mem_take hmem))
    rw [ih (by omega) (by omega), readChunks_readable hchunk, copyChunk_clean hclean (by omega), htake, hlength]
    dsimp only
    rw [if_neg (by omega), hnext, List.take_add]

theorem readChunks_ends (hread : read (m.cells addr) 0 (text.length + 1) = some (text ++ [0])) (hnul : 0 ∉ text)
    (hlt : text.length < maxLen) :
    readChunks m addr maxLen 0 [] =
      if chunkReadable m addr (text.length / chunk) then text else text.take (chunk * (text.length / chunk)) := by
  have hle : chunk * (text.length / chunk) ≤ text.length := Nat.mul_div_le _ _
  have hnext : text.length < chunk * (text.length / chunk) + chunk := Nat.lt_mul_div_succ _ (by decide)
  have htext : read (m.cells addr) 0 text.length = some text := by
    have hslice := read_slice hread (j := 0) (k := text.length) (by omega)
    rwa [Nat.zero_add, List.drop_zero, List.take_left' rfl] at hslice
  rw [readChunks_reaches htext hnul hle (.inr (by omega))]
  by_cases hreadable : chunkReadable m addr (text.length / chunk) = true
  · obtain ⟨buf, hbuf⟩ := chunkReadable_iff.mp hreadable
    have hover := read_overlap hread hbuf (by omega) (by omega)
    rw [List.drop_append_of_le_length hle] at hover
    have hsplit : buf = text.drop (chunk * (text.length / chunk)) ++ 0 ::
        buf.drop (text.length + 1 - chunk * (text.length / chunk)) := by
      conv_lhs => rw [← List.take_append_drop (text.length + 1 - chunk * (text.length / chunk)) buf, hover]
      rw [List.append_assoc, List.singleton_append]
    have hrest : 0 ∉ text.drop (chunk * (text.length / chunk)) := fun hmem => hnul (List.mem_of_mem_drop hmem)
    rw [if_pos hreadable, readChunks_readable hbuf, hsplit, copyChunk_end _ hrest (by rw [List.length_drop]; omega),
      List.take_append_drop]
  · rw [if_neg hreadable, readChunks_unreadable (not_chunkReadable_iff.mp hreadable)]

/-- A string that fills `maxLen` gets the ellipsis, or is read up to the last chunk. -/
theorem readChunks_fills (hread : read (m.cells addr) 0 text.length = some text) (hnul : 0 ∉ text)
    (hlength : text.length = maxLen) :
    readChunks m addr maxLen 0 [] =
      if chunkReadable m addr ((maxLen - 1) / chunk) then text ++ ellipsis
      else text.take (chunk * ((maxLen - 1) / chunk)) := by
  have hle : chunk * ((maxLen - 1) / chunk) ≤ maxLen - 1 := Nat.mul_div_le _ _
  have hnext : maxLen - 1 < chunk * ((maxLen - 1) / chunk) + chunk := Nat.lt_mul_div_succ _ (by decide)
  have hfirst : (maxLen - 1) / chunk = 0 ∨ chunk * ((maxLen - 1) / chunk) < maxLen := by
    by_cases hzero : maxLen = 0
    · exact .inl (by rw [hzero]; rfl)
    · exact .inr (by omega)
  rw [readChunks_reaches hread hnul (by omega) hfirst]
  by_cases hreadable : chunkReadable m addr ((maxLen - 1) / chunk) = true
  · obtain ⟨buf, hbuf⟩ := chunkReadable_iff.mp hreadable
    have hover := read_overlap hread hbuf (by omega) (by omega)
    rw [hlength] at hover
    have hclean : 0 ∉ buf.take (maxLen - chunk * ((maxLen - 1) / chunk)) := by
      rw [hover]
      exact fun hmem => hnul (List.mem_of_mem_drop hmem)
    rw [if_pos hreadable, readChunks_readable hbuf, copyChunk_clean hclean (by omega), hover]
    dsimp only
    rw [if_pos (by rw [List.length_drop]; omega), List.take_append_drop]
  · rw [if_neg hreadable, readChunks_unreadable (not_chunkReadable_iff.mp hreadable)]

end

/-! ## The results -/

/-- At `addr` stands `text`, then a NUL, and all of it is readable. -/
def Terminated (m : Memory) (addr : UInt32) (text : Bytes) : Prop :=
  0 ∉ text ∧ readProcessMemory m addr (text.length + 1) = some (text ++ [0])

/-- At `addr` stand `maxLen + 1` readable bytes without a NUL. -/
def Unterminated (m : Memory) (addr : UInt32) (maxLen : Nat) (text : Bytes) : Prop :=
  0 ∉ text ∧ readProcessMemory m addr (maxLen + 1) = some text

/-- A string of at most `maxLen` bytes is returned as it is, and of a longer one the first
`maxLen` bytes with the ellipsis. -/
def ReadsExactly (m : Memory) (addr : UInt32) (maxLen : Nat) : Prop :=
  (∀ text, Terminated m addr text → text.length ≤ maxLen → readCStringBounded m addr maxLen = text) ∧
    ∀ text, Unterminated m addr maxLen text → readCStringBounded m addr maxLen = text.take maxLen ++ ellipsis

/-- A string shorter than `maxLen` ends at the beginning of a chunk, or the chunk in which
it ends is readable; a string of exactly `maxLen` bytes is empty, and the first chunk is
not readable; and of a longer one the chunk of the last byte to be returned is readable. -/
def ChunksSuffice (m : Memory) (addr : UInt32) (maxLen : Nat) : Prop :=
  (∀ text, Terminated m addr text → text.length < maxLen →
      chunk ∣ text.length ∨ chunkReadable m addr (text.length / chunk) = true) ∧
    (∀ text, Terminated m addr text → text.length = maxLen → maxLen = 0 ∧ chunkReadable m addr 0 = false) ∧
    ∀ text, Unterminated m addr maxLen text → chunkReadable m addr ((maxLen - 1) / chunk) = true

section
variable {m : Memory} {addr : UInt32} {maxLen : Nat} {text : Bytes}

theorem readCStringBounded_eq (haddr : addr ≠ 0) : readCStringBounded m addr maxLen = readChunks m addr maxLen 0 [] :=
  if_neg haddr

/-- What a text that was cut at a chunk lost. -/
theorem take_chunk_eq_iff : text.take (chunk * (text.length / chunk)) = text ↔ chunk ∣ text.length := by
  rw [List.take_eq_self_iff, Nat.dvd_iff_mod_eq_zero]
  have hdiv := Nat.div_add_mod text.length chunk
  omega

theorem ellipsis_ne (text rest : Bytes) (h : rest.length ≤ text.length) : text ++ ellipsis ≠ rest := by
  intro heq
  have hlength := congrArg List.length heq
  rw [List.length_append] at hlength
  simp only [ellipsis, List.length_cons] at hlength
  omega

theorem shorter_exact_iff (haddr : addr ≠ 0) (h : Terminated m addr text) (hlt : text.length < maxLen) :
    readCStringBounded m addr maxLen = text ↔
      chunk ∣ text.length ∨ chunkReadable m addr (text.length / chunk) = true := by
  rw [readCStringBounded_eq haddr, readChunks_ends h.2 h.1 hlt]
  split
  · rename_i hreadable
    exact iff_of_true rfl (.inr hreadable)
  · rename_i hreadable
    rw [take_chunk_eq_iff, or_iff_left hreadable]

theorem read_first {k : Nat} (h : readProcessMemory m addr (maxLen + k) = some text) :
    read (m.cells addr) 0 (text.take maxLen).length = some (text.take maxLen) := by
  have hlength : text.length = maxLen + k := read_length h
  have hslice := read_slice h (j := 0) (k := maxLen) (by omega)
  rw [Nat.zero_add, List.drop_zero] at hslice
  rw [List.length_take_of_le (show maxLen ≤ text.length by omega)]
  exact hslice

theorem filling_exact_iff (haddr : addr ≠ 0) (h : Terminated m addr text) (hlength : text.length = maxLen) :
    readCStringBounded m addr maxLen = text ↔ maxLen = 0 ∧ chunkReadable m addr 0 = false := by
  have hread : read (m.cells addr) 0 text.length = some text := by
    have hfirst := read_first h.2
    rwa [List.take_left' rfl] at hfirst
  rw [readCStringBounded_eq haddr, readChunks_fills hread h.1 hlength]
  split
  · rename_i hreadable
    refine iff_of_false (ellipsis_ne text text (Nat.le_refl _)) ?_
    rintro ⟨rfl, hunreadable⟩
    exact absurd hreadable (by simpa using hunreadable)
  · rename_i hreadable
    rw [List.take_eq_self_iff, hlength]
    refine ⟨?_, ?_⟩
    · intro hle
      have hdiv := Nat.mul_div_le (maxLen - 1) chunk
      obtain rfl : maxLen = 0 := by omega
      exact ⟨rfl, by simpa using hreadable⟩
    · rintro ⟨rfl, -⟩
      exact Nat.zero_le _

theorem longer_exact_iff (haddr : addr ≠ 0) (h : Unterminated m addr maxLen text) :
    readCStringBounded m addr maxLen = text.take maxLen ++ ellipsis ↔
      chunkReadable m addr ((maxLen - 1) / chunk) = true := by
  have hlength : text.length = maxLen + 1 := read_length h.2
  have hnul : 0 ∉ text.take maxLen := fun hmem => h.1 (List.mem_of_mem_take hmem)
  rw [readCStringBounded_eq haddr, readChunks_fills (read_first h.2) hnul (List.length_take_of_le (by omega))]
  split
  · rename_i hreadable
    exact iff_of_true rfl hreadable
  · rename_i hreadable
    refine iff_of_false (fun heq => ellipsis_ne (text.take maxLen) _ ?_ heq.symm) hreadable
    rw [List.length_take]
    exact Nat.min_le_right _ _

/-- **The bounded read is exact** exactly when the chunk that decides can be read. -/
theorem readsExactly_iff (haddr : addr ≠ 0) : ReadsExactly m addr maxLen ↔ ChunksSuffice m addr maxLen := by
  refine ⟨?_, ?_⟩
  · rintro ⟨hshort, hlong⟩
    refine ⟨?_, ?_, ?_⟩
    · intro text h hlt
      exact (shorter_exact_iff haddr h hlt).mp (hshort text h (by omega))
    · intro text h hlength
      exact (filling_exact_iff haddr h hlength).mp (hshort text h (by omega))
    · intro text h
      exact (longer_exact_iff haddr h).mp (hlong text h)
  · rintro ⟨hshorter, hfilling, hlonger⟩
    refine ⟨?_, ?_⟩
    · intro text h hle
      rcases Nat.lt_or_eq_of_le hle with hlt | hlength
      · exact (shorter_exact_iff haddr h hlt).mpr (hshorter text h hlt)
      · exact (filling_exact_iff haddr h hlength).mpr (hfilling text h hlength)
    · intro text h
      exact (longer_exact_iff haddr h).mpr (hlonger text h)

end

/-- One readable page, with `"hi"` at its beginning and at its end. -/
def page (addr : UInt32) : Option UInt8 :=
  if addr = 0x10000 ∨ addr = 0x10FFD then some 0x68
  else if addr = 0x10001 ∨ addr = 0x10FFE then some 0x69
  else if 0x10002 ≤ addr ∧ addr < 0x11000 then some 0
  else none

theorem readsExactly_iff_page : ReadsExactly page 0x10000 1024 ↔ ChunksSuffice page 0x10000 1024 :=
  readsExactly_iff (by decide)

/-- **A string at the end of a page is lost, and one that just fits gets an ellipsis.** -/
theorem reads_inexactly :
    (¬ ∀ m addr maxLen, addr ≠ 0 → ReadsExactly m addr maxLen) ∧
      readCStringBounded page 0x10FFD 1024 = [] ∧
      readCStringBounded page 0x10000 2 = [0x68, 0x69] ++ ellipsis := by
  have hlost : readCStringBounded page 0x10FFD 1024 = [] := by decide +kernel
  have hfull : readCStringBounded page 0x10000 2 = [0x68, 0x69] ++ ellipsis := by decide +kernel
  refine ⟨fun h => ?_, hlost, hfull⟩
  have hstring : Terminated page 0x10FFD [0x68, 0x69] := ⟨by decide, by decide +kernel⟩
  have hexact := (h page 0x10FFD 1024 (by decide)).1 _ hstring (by decide)
  rw [hlost] at hexact
  simp at hexact

end Icecap.Hooks
