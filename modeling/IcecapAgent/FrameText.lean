import IcecapAgent.FrameScript

/- What the texts of game events are, for every memory.

   1. `readCStringBounded_reference` — a string read from memory is what the chunks before
      the first unreadable one hold of it, in every case;
   2. `formatCustomArgs_append` — a format may be cut anywhere but behind an open `%`: the
      second part goes on where the first left the stack;
   3. `formatCustomArgs_escape` — a text whose `%` are doubled comes out as it went in;
   4. `formatCustomArgs_bounded` — whatever the game has in its memory, the text is at most
      1027 bytes for every two of the format, and has no NUL. -/
namespace Icecap.Hooks
open CellRange

/-! ## The string reader -/

/-- What is returned of the bytes that can be read from an address on. -/
def bounded (bytes : Bytes) (maxLen : Nat) : Bytes :=
  let text := cStr (bytes.take maxLen)
  if bytes ≠ [] ∧ text.length = maxLen then text ++ ellipsis else text

section
variable {m : Memory} {addr : UInt32} {maxLen total n : Nat} {buf rest : Bytes}

theorem cStr_cons (c : UInt8) (text : Bytes) : cStr (c :: text) = if c = 0 then [] else c :: cStr text := by
  by_cases hc : c = 0
  · simp [cStr, hc]
  · simp [cStr, hc]

theorem cStr_append {text : Bytes} (h : 0 ∉ text) (rest : Bytes) : cStr (text ++ rest) = text ++ cStr rest := by
  induction text with
  | nil => rfl
  | cons c text ih =>
    rw [List.mem_cons, not_or] at h
    rw [List.cons_append, cStr_cons, if_neg (Ne.symm h.1), ih h.2, List.cons_append]

theorem exists_cStr {text : Bytes} (h : 0 ∈ text) : ∃ rest, text = cStr text ++ 0 :: rest ∧ 0 ∉ cStr text := by
  induction text with
  | nil => simp at h
  | cons c text ih =>
    by_cases hc : c = 0
    · subst hc
      exact ⟨text, by simp [cStr], by simp [cStr]⟩
    · obtain ⟨rest, htext, hnul⟩ := ih (by simpa [Ne.symm hc] using h)
      rw [cStr_cons, if_neg hc]
      refine ⟨rest, ?_, by simp [hnul, Ne.symm hc]⟩
      conv_lhs => rw [htext]
      rfl

theorem bounded_ends (h : 0 ∈ buf.take maxLen) : bounded (buf ++ rest) maxLen = cStr (buf.take maxLen) := by
  obtain ⟨after, htext, hnul⟩ := exists_cStr h
  have hseen : cStr ((buf ++ rest).take maxLen) = cStr (buf.take maxLen) := by
    rw [List.take_append]
    conv_lhs => rw [htext, List.append_assoc, cStr_append hnul, List.cons_append, cStr_cons, if_pos rfl, List.append_nil]
  have hshort : (cStr (buf.take maxLen)).length ≠ maxLen := by
    have hlength := congrArg List.length htext
    have htake := List.length_take_le maxLen buf
    rw [List.length_append, List.length_cons] at hlength
    omega
  simp only [bounded, hseen]
  exact if_neg fun hfull => hshort hfull.2

theorem bounded_fills (h : 0 ∉ buf.take maxLen) (hle : maxLen ≤ buf.length) (hne : buf ≠ []) :
    bounded (buf ++ rest) maxLen = buf.take maxLen ++ ellipsis := by
  simp only [bounded, List.take_append_of_le_length hle, cStr_eq_iff.mpr h]
  exact if_pos ⟨by simp [hne], List.length_take_of_le hle⟩

theorem bounded_passes (h : 0 ∉ buf) (hlt : buf.length < maxLen) :
    bounded (buf ++ rest) maxLen = buf ++ bounded rest (maxLen - buf.length) := by
  have hseen : cStr ((buf ++ rest).take maxLen) = buf ++ cStr (rest.take (maxLen - buf.length)) := by
    rw [List.take_append, List.take_of_length_le (by omega), cStr_append h]
  simp only [bounded, hseen, List.length_append]
  by_cases hrest : rest = []
  · subst hrest
    simp only [List.take_nil, cStr, List.takeWhile_nil, List.length_nil]
    rw [if_neg (by omega), if_neg (by simp)]
  · by_cases hfull : (cStr (rest.take (maxLen - buf.length))).length = maxLen - buf.length
    · rw [if_pos ⟨by simp [hrest], by omega⟩, if_pos ⟨hrest, hfull⟩, List.append_assoc]
    · rw [if_neg (by omega), if_neg (fun h => hfull h.2)]

/-- From a chunk on, the loop returns what the readable chunks hold. -/
theorem readChunks_blocks (hle : total ≤ maxLen) (hn : maxLen - total ≤ chunk * n) (hpos : 0 < n) (result : Bytes) :
    readChunks m addr maxLen total result =
      result ++ bounded (blocks (m.cells addr) chunk total n) (maxLen - total) := by
  induction n generalizing total result with
  | zero => omega
  | succ n ih =>
    cases hbuf : read (m.cells addr) total chunk with
    | none =>
      rw [readChunks_unreadable hbuf, blocks_unreadable hbuf]
      simp [bounded, cStr]
    | some buf =>
      have hlength : buf.length = chunk := read_length hbuf
      have hne : buf ≠ [] := by
        rintro rfl
        simp [chunk] at hlength
      rw [readChunks_readable hbuf, blocks_readable hbuf]
      by_cases hnul : 0 ∈ buf.take (maxLen - total)
      · -- the end of the string is in this chunk
        obtain ⟨after, htext, hclean⟩ := exists_cStr hnul
        have hshort := congrArg List.length htext
        have htake := List.length_take_le (maxLen - total) buf
        rw [List.length_append, List.length_cons] at hshort
        have hsplit : buf = cStr (buf.take (maxLen - total)) ++ 0 :: (after ++ buf.drop (maxLen - total)) := by
          conv_lhs => rw [← List.take_append_drop (maxLen - total) buf, htext, List.append_assoc, List.cons_append]
        rw [bounded_ends hnul, hsplit, copyChunk_end _ hclean (by omega), ← hsplit]
      · rw [copyChunk_clean hnul hle]
        dsimp only
        by_cases hfull : maxLen - total ≤ chunk
        · rw [if_pos (by rw [List.length_take]; omega), bounded_fills hnul (by omega) hne, List.append_assoc]
        · have hall : buf.take (maxLen - total) = buf := List.take_of_length_le (by omega)
          have hrest : 0 < n := by
            apply Nat.pos_of_ne_zero
            rintro rfl
            omega
          rw [hall] at hnul ⊢
          rw [if_neg (by omega), bounded_passes hnul (by omega), hlength,
            ih (by omega) (by rw [Nat.mul_succ] at hn; omega) hrest, List.append_assoc, Nat.sub_sub]

end

/-- **The string reader, in every case**: it returns what the chunks before the first
unreadable one hold of the string. -/
theorem readCStringBounded_reference (m : Memory) (addr : UInt32) (maxLen : Nat) :
    readCStringBounded m addr maxLen =
      if addr = 0 then literal "(null)" else bounded (blocks (m.cells addr) chunk 0 (maxLen / chunk + 1)) maxLen := by
  have hchunks : maxLen ≤ chunk * (maxLen / chunk + 1) := Nat.le_of_lt (Nat.lt_mul_div_succ _ (by decide))
  rw [readCStringBounded, readChunks_blocks (Nat.zero_le _) hchunks (Nat.succ_pos _), List.nil_append, Nat.sub_zero]

theorem bounded_length (bytes : Bytes) (maxLen : Nat) : (bounded bytes maxLen).length ≤ maxLen + 3 := by
  have hseen : (cStr (bytes.take maxLen)).length ≤ maxLen :=
    Nat.le_trans (List.takeWhile_prefix _).length_le (List.length_take_le _ _)
  simp only [bounded]
  split
  · rw [List.length_append]
    exact Nat.add_le_add_right hseen 3
  · omega

theorem not_mem_cStr (text : Bytes) : 0 ∉ cStr text := by
  intro h
  simpa using List.mem_takeWhile_imp h

theorem bounded_clean (bytes : Bytes) (maxLen : Nat) : 0 ∉ bounded bytes maxLen := by
  simp only [bounded]
  split
  · simp [not_mem_cStr, ellipsis]
  · exact not_mem_cStr _

/-! ## Formats one after the other -/

/-- The format does not end behind an open `%`. -/
def complete : Bytes → Bool
  | [] => true
  | [c] => c != ascii '%'
  | c :: d :: rest => if c = ascii '%' then complete rest else complete (d :: rest)

theorem pieces_append {fmt : Bytes} (h : complete fmt = true) (rest : Bytes) :
    pieces (fmt ++ rest) = pieces fmt ++ pieces rest := by
  induction fmt using pieces.induct with
  | case1 => rfl
  | case2 => simp [complete] at h
  | case3 c hc =>
    cases rest with
    | nil => simp [pieces, hc]
    | cons d rest => simp [pieces, hc]
  | case4 d fmt ih =>
    have hrest : complete fmt = true := by simpa [complete] using h
    simp [pieces, ih hrest]
  | case5 c d fmt hc ih =>
    have hrest : complete (d :: fmt) = true := by simpa [complete, hc] using h
    simp only [List.cons_append] at ih ⊢
    rw [pieces, if_neg hc, ih hrest, pieces, if_neg hc, List.cons_append]

section
variable {r : ArgReader} {addr : UInt32}

theorem renderFrom_append (ps qs : List Piece) :
    renderFrom r addr (ps ++ qs) = renderFrom r addr ps ++ renderFrom r (addr + UInt32.ofNat (widths ps)) qs := by
  induction ps generalizing addr with
  | nil => simp [renderFrom, widths]
  | cons piece ps ih =>
    rw [List.cons_append, renderFrom, ih, renderFrom, widths, UInt32.ofNat_add, UInt32.add_assoc, List.append_assoc]

theorem formatCustomArgs_eq (fmt : Bytes) (argsBase : Int32) :
    formatCustomArgs r (some fmt) argsBase = renderFrom r argsBase.toUInt32 (pieces (cStr fmt)) := by
  rw [formatCustomArgs, formatLoop_eq (start_at (cStr fmt) argsBase)]
  rfl

end

/-- **A format may be cut**: what is behind the cut is rendered on its own, from where the
arguments before it end. -/
theorem formatCustomArgs_append (r : ArgReader) {fmt : Bytes} (hnul : 0 ∉ fmt) (h : complete fmt = true)
    (rest : Bytes) (argsBase : Int32) :
    formatCustomArgs r (some (fmt ++ rest)) argsBase =
      formatCustomArgs r (some fmt) argsBase ++
        formatCustomArgs r (some rest) (argsBase + Int32.ofNat (widths (pieces fmt))) := by
  rw [formatCustomArgs_eq, formatCustomArgs_eq, formatCustomArgs_eq, cStr_append hnul, pieces_append h,
    renderFrom_append, cStr_eq_iff.mpr hnul, Int32.toUInt32_add, Int32.toUInt32_ofNat']

/-- A memory of zeros, with every double rendered as 0. -/
def zeros : ArgReader := Memory.argReader (fun _ => some 0) fun _ => literal "0"

theorem formatCustomArgs_append_double :
    formatCustomArgs zeros (some (literal "%f!" ++ literal "%d")) 0 =
      formatCustomArgs zeros (some (literal "%f!")) 0 ++
        formatCustomArgs zeros (some (literal "%d")) (0 + Int32.ofNat (widths (pieces (literal "%f!")))) :=
  formatCustomArgs_append zeros (by decide) (by decide) _ 0

/-- A text with every `%` doubled. -/
def escape (text : Bytes) : Bytes := text.flatMap fun c => if c = ascii '%' then [ascii '%', ascii '%'] else [c]

theorem pieces_escape (text : Bytes) : pieces (escape text) = text.map fun c => .copy [c] := by
  induction text with
  | nil => rfl
  | cons c text ih =>
    have hfirst : complete (if c = ascii '%' then [ascii '%', ascii '%'] else [c]) = true ∧
        pieces (if c = ascii '%' then [ascii '%', ascii '%'] else [c]) = [.copy [c]] := by
      by_cases hc : c = ascii '%'
      · subst hc
        exact ⟨by decide, by decide⟩
      · simp [hc, complete, pieces]
    rw [escape, List.flatMap_cons, pieces_append hfirst.1, hfirst.2]
    exact congrArg _ ih

theorem cStr_escape (text : Bytes) : cStr (escape text) = escape (cStr text) := by
  induction text with
  | nil => rfl
  | cons c text ih =>
    by_cases hzero : c = 0
    · subst hzero
      rfl
    · have hfirst : 0 ∉ (if c = ascii '%' then [ascii '%', ascii '%'] else [c]) := by
        split
        · decide
        · simp [Ne.symm hzero]
      rw [escape, List.flatMap_cons, cStr_append hfirst, cStr_cons, if_neg hzero, escape, List.flatMap_cons]
      exact congrArg _ ih

theorem renderFrom_copies (r : ArgReader) (addr : UInt32) (text : Bytes) :
    renderFrom r addr (text.map fun c => .copy [c]) = text := by
  induction text generalizing addr with
  | nil => rfl
  | cons c text ih =>
    rw [List.map_cons, renderFrom, ih]
    rfl

/-- **A text with its `%` doubled comes out as it went in**, up to its first NUL, wherever
the arguments are and whatever they hold. -/
theorem formatCustomArgs_escape (r : ArgReader) (text : Bytes) (argsBase : Int32) :
    formatCustomArgs r (some (escape text)) argsBase = cStr text := by
  rw [formatCustomArgs_eq, cStr_escape, pieces_escape, renderFrom_copies]

/-! ## How long a text can be -/

section
variable {r : ArgReader} {addr : UInt32} {m : Memory} {formatDouble : UInt64 → Bytes}

/-- A text for an argument: of at most 1027 bytes, none of them NUL. -/
def Fair (text : Bytes) : Prop := text.length ≤ 1027 ∧ 0 ∉ text

theorem literal_append (s t : String) : literal (s ++ t) = literal s ++ literal t := by
  simp [literal]

theorem ofNat_toNat_ne_zero {c : Char} (h : c.isDigit = true) : UInt8.ofNat c.toNat ≠ 0 := by
  have hbounds : 48 ≤ c.toNat ∧ c.toNat ≤ 57 := by
    simp only [Char.isDigit, Bool.and_eq_true, decide_eq_true_eq] at h
    exact ⟨h.1, h.2⟩
  intro hzero
  have hvalue := congrArg UInt8.toNat hzero
  rw [UInt8.toNat_ofNat'] at hvalue
  have hsmall : c.toNat % 2 ^ 8 = c.toNat := Nat.mod_eq_of_lt (by omega)
  rw [hsmall] at hvalue
  have hnum : (0 : UInt8).toNat = 0 := rfl
  omega

theorem literal_repr {n : Nat} (h : n < 2^32) : (literal n.repr).length ≤ 10 ∧ 0 ∉ literal n.repr := by
  have hdigits : literal n.repr = (Nat.toDigits 10 n).map fun c => UInt8.ofNat c.toNat := by
    rw [literal, Nat.toList_repr]
  rw [hdigits]
  refine ⟨?_, ?_⟩
  · rw [List.length_map]
    exact (Nat.length_toDigits_le_iff (by decide) (by decide)).mpr (by omega)
  · intro hmem
    obtain ⟨c, hc, hzero⟩ := List.mem_map.mp hmem
    exact ofNat_toNat_ne_zero (Nat.isDigit_of_mem_toDigits (by decide) (by decide) hc) hzero

theorem decimal_fair {n : Int} (hlo : -4294967296 < n) (hhi : n < 4294967296) : Fair (decimal n) := by
  cases n with
  | ofNat n =>
    have hsmall : (n : Int) < 4294967296 := hhi
    have hdigits := literal_repr (n := n) (by omega)
    exact ⟨Nat.le_trans hdigits.1 (by omega), hdigits.2⟩
  | negSucc n =>
    have hdigits := literal_repr (n := n + 1) (by omega)
    have hsign : decimal (.negSucc n) = literal "-" ++ literal (n + 1).repr := by
      rw [← literal_append]
      rfl
    rw [hsign]
    refine ⟨?_, ?_⟩
    · rw [List.length_append]
      have hone : (literal "-").length = 1 := rfl
      omega
    · rw [List.mem_append, not_or]
      exact ⟨by decide, hdigits.2⟩

theorem argument_fair {α : Type} {value : Option α} {text : α → Bytes} {placeholder : String}
    (htext : ∀ v, Fair (text v)) (hplaceholder : Fair (literal placeholder)) :
    Fair (argument value text placeholder) := by
  cases value with
  | none => exact hplaceholder
  | some v => exact htext v

theorem readCStringBounded_fair (m : Memory) (addr : UInt32) : Fair (readCStringBounded m addr 1024) := by
  rw [readCStringBounded_reference]
  split
  · exact ⟨by decide, by decide⟩
  · exact ⟨bounded_length _ _, bounded_clean _ _⟩

theorem Specifier.render_fair (hdouble : ∀ bits, Fair (formatDouble bits)) (specifier : Specifier) (addr : UInt32) :
    Fair (specifier.render (m.argReader formatDouble) addr) := by
  have hint (v : UInt32) : Fair (decimal (toInt v.toNat)) := by
    have hlow := Int.le_bmod (x := v.toNat) (m := 2^32) (by decide)
    have hhigh := Int.bmod_lt (x := v.toNat) (m := 2^32) (by decide)
    exact decimal_fair (by unfold toInt; omega) (by unfold toInt; omega)
  have huint (v : UInt32) : Fair (decimal v.toNat) := by
    have hlt := v.toNat_lt
    exact decimal_fair (by omega) (by omega)
  have hbool (v : UInt32) : Fair (literal (if v ≠ 0 then "1" else "0")) := by
    split
    · exact ⟨by decide, by decide⟩
    · exact ⟨by decide, by decide⟩
  cases specifier with
  | d => exact argument_fair hint ⟨by decide, by decide⟩
  | u => exact argument_fair huint ⟨by decide, by decide⟩
  | b => exact argument_fair hbool ⟨by decide, by decide⟩
  | f => exact argument_fair hdouble ⟨by decide, by decide⟩
  | s => exact argument_fair (readCStringBounded_fair m) ⟨by decide, by decide⟩

theorem ofByte_render_fair (hrender : ∀ specifier addr, Fair (Specifier.render r addr specifier)) {c : UInt8}
    (hc : c ≠ 0) (addr : UInt32) : Fair ((Piece.ofByte c).render r addr) := by
  unfold Piece.ofByte
  split_ifs
  · exact hrender .d addr
  · exact hrender .u addr
  · exact hrender .b addr
  · exact hrender .f addr
  · exact hrender .s addr
  · exact ⟨by show 1 ≤ 1027; decide, by show 0 ∉ [ascii '%']; decide⟩
  · refine ⟨by show 2 ≤ 1027; decide, ?_⟩
    simp only [Piece.render, List.mem_cons, List.not_mem_nil, or_false, not_or]
    exact ⟨by decide, Ne.symm hc⟩

theorem renderFrom_pieces_bounded (hrender : ∀ specifier addr, Fair (Specifier.render r addr specifier)) {fmt : Bytes}
    (h : 0 ∉ fmt) (addr : UInt32) :
    2 * (renderFrom r addr (pieces fmt)).length ≤ 1027 * fmt.length ∧ 0 ∉ renderFrom r addr (pieces fmt) := by
  induction fmt using pieces.induct generalizing addr with
  | case1 => exact ⟨Nat.le_refl _, List.not_mem_nil⟩
  | case2 => simp [pieces, renderFrom]
  | case3 c hc =>
    rw [pieces, if_neg hc]
    simp only [List.mem_singleton] at h
    simp [renderFrom, Piece.render, h]
  | case4 d fmt ih =>
    simp only [List.mem_cons, not_or] at h
    obtain ⟨-, hd, hfmt⟩ := h
    have hfirst := ofByte_render_fair hrender (Ne.symm hd) addr
    have hrest := ih hfmt (addr + UInt32.ofNat (Piece.ofByte d).width)
    rw [pieces, if_pos rfl, renderFrom]
    refine ⟨?_, ?_⟩
    · simp only [List.length_append, List.length_cons]
      have hshort := hfirst.1
      omega
    · rw [List.mem_append, not_or]
      exact ⟨hfirst.2, hrest.2⟩
  | case5 c d fmt hc ih =>
    simp only [List.mem_cons, not_or] at h ih
    have hrest := ih h.2 (addr + UInt32.ofNat 0)
    rw [pieces, if_neg hc, renderFrom]
    refine ⟨?_, ?_⟩
    · simp only [Piece.render, Piece.width, List.length_append, List.length_cons, List.length_nil] at hrest ⊢
      omega
    · simp only [Piece.render, Piece.width, List.mem_append, List.mem_singleton, not_or]
      exact ⟨h.1, hrest.2⟩

end

/-- **The text is bounded by the format**, whatever the arguments and the memory are: 1027
bytes for every two of the format, and none of them NUL. -/
theorem formatCustomArgs_bounded (m : Memory) {formatDouble : UInt64 → Bytes}
    (hdouble : ∀ bits, (formatDouble bits).length ≤ 63 ∧ 0 ∉ formatDouble bits) (fmt : Bytes) (argsBase : Int32) :
    2 * (formatCustomArgs (m.argReader formatDouble) (some fmt) argsBase).length ≤ 1027 * fmt.length ∧
      0 ∉ formatCustomArgs (m.argReader formatDouble) (some fmt) argsBase := by
  have hfair (bits : UInt64) : Fair (formatDouble bits) := ⟨Nat.le_trans (hdouble bits).1 (by omega), (hdouble bits).2⟩
  have hseen : (cStr fmt).length ≤ fmt.length := (List.takeWhile_prefix _).length_le
  obtain ⟨hlength, hnul⟩ := renderFrom_pieces_bounded (r := m.argReader formatDouble)
    (Specifier.render_fair hfair) (not_mem_cStr fmt) argsBase.toUInt32
  rw [formatCustomArgs_eq]
  exact ⟨by omega, hnul⟩

theorem formatCustomArgs_bounded_zeros :
    2 * (formatCustomArgs zeros (some (literal "%d %f %s")) 8).length ≤ 1027 * (literal "%d %f %s").length ∧
      0 ∉ formatCustomArgs zeros (some (literal "%d %f %s")) 8 :=
  formatCustomArgs_bounded (fun _ => some 0) (fun _ => ⟨by decide, by decide⟩) _ 8

end Icecap.Hooks
