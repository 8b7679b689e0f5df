import Mathlib.Logic.Relation
import IcecapAgent.ProcessMemory

/- Rebuilding the text of a game event from its format string and the arguments on the
   game's stack.

   `formatCustomArgs` walks the format with two cursors into the stack, one for arguments
   of four bytes and one for doubles. Each is biased, by 4 and by 8, and both are advanced
   by the width of every argument.

   `formatCustomArgs_reference` — the result is what the pieces of the format give, each
   argument read at the base plus the widths of the arguments before it, and at every turn
   of the loop the cursors name the same place.

   The reads of arguments, the text of a double and the string reader are given; a memory
   of the process gives the reads (`Memory.argReader`). -/
namespace Icecap.Hooks

/-- What `formatCustomArgs` takes as given: `readVal` of four and of eight bytes, the text
of a double by its bits, and `readCStringBounded`. -/
structure ArgReader where
  readVal32 : UInt32 → Option UInt32
  readVal64 : UInt32 → Option UInt64
  formatDouble : UInt64 → Bytes
  readCString : UInt32 → Bytes

/-- The value of bytes in memory, least significant first. -/
def littleEndian (bytes : Bytes) : Nat := bytes.foldr (fun b value => value * 256 + b.toNat) 0

/-- The reads of `formatCustomArgs` from the memory of the process. -/
def Memory.argReader (m : Memory) (formatDouble : UInt64 → Bytes) : ArgReader where
  readVal32 := fun addr => (readProcessMemory m addr 4).map fun bytes => UInt32.ofNat (littleEndian bytes)
  readVal64 := fun addr => (readProcessMemory m addr 8).map fun bytes => UInt64.ofNat (littleEndian bytes)
  formatDouble := formatDouble
  readCString := fun addr => readCStringBounded m addr 1024

/-! ## `formatCustomArgs` -/

def ascii (c : Char) : UInt8 := UInt8.ofNat c.toNat

/-- `std::to_string` of an integer. -/
def decimal (n : Int) : Bytes := literal (toString n)

/-- The text of a value that was read, or the placeholder of one that was not. -/
def argument {α : Type} (value : Option α) (text : α → Bytes) (placeholder : String) : Bytes :=
  match value with
  | some v => text v
  | none => literal placeholder

/-- The `switch` of `formatCustomArgs`: the text appended, `i32` and `base`. -/
def formatSwitch (r : ArgReader) (c : UInt8) (i32 base : UInt32) : Bytes × UInt32 × UInt32 :=
  if c = ascii 'd' then
    (argument (r.readVal32 (i32 + 4)) (fun v => decimal (toInt v.toNat)) "<bad-int>", i32 + 4, base + 4)
  else if c = ascii 'u' then
    (argument (r.readVal32 (i32 + 4)) (fun v => decimal v.toNat) "<bad-uint>", i32 + 4, base + 4)
  else if c = ascii 'b' then
    (argument (r.readVal32 (i32 + 4)) (fun v => literal (if v ≠ 0 then "1" else "0")) "<bad-bool>", i32 + 4, base + 4)
  else if c = ascii 'f' then
    (argument (r.readVal64 (base + 8)) r.formatDouble "<bad-double>", i32 + 8, base + 8)
  else if c = ascii 's' then
    (argument (r.readVal32 (i32 + 4)) r.readCString "<bad-str*>", i32 + 4, base + 4)
  else if c = ascii '%' then ([ascii '%'], i32, base)
  else ([ascii '%', c], i32, base)

/-- The loop of `formatCustomArgs`; `rest` is the part of the format from `p` on. -/
structure FormatState where
  rest : Bytes
  i32 : UInt32
  base : UInt32
  out : Bytes

/-- One turn of the loop; `none` when it is over. -/
def formatTurn (r : ArgReader) (s : FormatState) : Option FormatState :=
  match s.rest with
  | [] => none
  | c :: rest =>
    if c ≠ ascii '%' then some { s with rest, out := s.out ++ [c] }
    else
      match rest with
      | [] => none
      | c :: rest =>
        let (text, i32, base) := formatSwitch r c s.i32 s.base
        some ⟨rest, i32, base, s.out ++ text⟩

theorem formatTurn_shrinks {r : ArgReader} {s s' : FormatState} (h : formatTurn r s = some s') :
    s'.rest.length < s.rest.length := by
  unfold formatTurn at h
  cases hrest : s.rest with
  | nil => simp [hrest] at h
  | cons c rest =>
    rw [hrest] at h
    dsimp only at h
    split at h
    · obtain rfl := Option.some.inj h
      exact Nat.lt_succ_self _
    · cases rest with
      | nil => simp at h
      | cons d rest =>
        obtain rfl := Option.some.inj h
        exact Nat.lt_succ_of_lt (Nat.lt_succ_self _)

def formatLoop (r : ArgReader) (s : FormatState) : Bytes :=
  match _h : formatTurn r s with
  | none => s.out
  | some s' => formatLoop r s'
  termination_by s.rest.length
  decreasing_by exact formatTurn_shrinks (by assumption)

/-- The state before the loop. -/
def FormatState.start (fmt : Bytes) (argsBase : Int32) : FormatState where
  rest := fmt
  i32 := argsBase.toUInt32 - 4
  base := argsBase.toUInt32 - 8
  out := []

/-- `formatCustomArgs`; the format is `none` when its pointer is null. -/
def formatCustomArgs (r : ArgReader) (fmt : Option Bytes) (argsBase : Int32) : Bytes :=
  match fmt with
  | none => []
  | some fmt => formatLoop r (.start (cStr fmt) argsBase)

/-! ## The pieces of a format -/

/-- The specifiers that take an argument. -/
inductive Specifier where
  | d
  | u
  | b
  | f
  | s
  deriving DecidableEq, Repr

/-- The width of the argument on the stack. -/
def Specifier.width : Specifier → Nat
  | .f => 8
  | _ => 4

/-- The text of the argument at an address. -/
def Specifier.render (r : ArgReader) (addr : UInt32) : Specifier → Bytes
  | .d => argument (r.readVal32 addr) (fun v => decimal (toInt v.toNat)) "<bad-int>"
  | .u => argument (r.readVal32 addr) (fun v => decimal v.toNat) "<bad-uint>"
  | .b => argument (r.readVal32 addr) (fun v => literal (if v ≠ 0 then "1" else "0")) "<bad-bool>"
  | .f => argument (r.readVal64 addr) r.formatDouble "<bad-double>"
  | .s => argument (r.readVal32 addr) r.readCString "<bad-str*>"

/-- A part of a format: text that is copied, or an argument. -/
inductive Piece where
  | copy (text : Bytes)
  | argument (specifier : Specifier)
  deriving DecidableEq, Repr

def Piece.width : Piece → Nat
  | .copy _ => 0
  | .argument specifier => specifier.width

def Piece.render (r : ArgReader) (addr : UInt32) : Piece → Bytes
  | .copy text => text
  | .argument specifier => specifier.render r addr

/-- The piece that `%` and a character stand for. -/
def Piece.ofByte (c : UInt8) : Piece :=
  if c = ascii 'd' then .argument .d
  else if c = ascii 'u' then .argument .u
  else if c = ascii 'b' then .argument .b
  else if c = ascii 'f' then .argument .f
  else if c = ascii 's' then .argument .s
  else if c = ascii '%' then .copy [ascii '%']
  else .copy [ascii '%', c]

/-- The pieces of a format, left to right; a `%` at the end is dropped. -/
def pieces : Bytes → List Piece
  | [] => []
  | [c] => if c = ascii '%' then [] else [.copy [c]]
  | c :: d :: rest => if c = ascii '%' then .ofByte d :: pieces rest else .copy [c] :: pieces (d :: rest)

/-- The width of all arguments of some pieces. -/
def widths : List Piece → Nat
  | [] => 0
  | piece :: ps => piece.width + widths ps

/-- The text of a format: each piece is rendered at the base plus the widths of the
arguments before it. -/
def reference (r : ArgReader) (argsBase : UInt32) (fmt : Bytes) : Bytes :=
  (pieces fmt).zipIdx.flatMap fun (piece, i) =>
    piece.render r (argsBase + UInt32.ofNat (widths ((pieces fmt).take i)))

/-! ## One turn -/

section
variable {r : ArgReader} {s s' : FormatState} {addr : UInt32}

/-- Both cursors name the address. -/
def FormatState.At (s : FormatState) (addr : UInt32) : Prop := s.i32 + 4 = addr ∧ s.base + 8 = addr

/-- The `switch` renders a piece at the address the cursors name, and moves both of them
by its width. -/
theorem formatSwitch_eq {i32 base : UInt32} (hi32 : i32 + 4 = addr) (hbase : base + 8 = addr) (c : UInt8) :
    formatSwitch r c i32 base =
      ((Piece.ofByte c).render r addr, i32 + UInt32.ofNat (Piece.ofByte c).width,
        base + UInt32.ofNat (Piece.ofByte c).width) := by
  subst hi32
  unfold formatSwitch Piece.ofByte
  split_ifs
  · rfl
  · rfl
  · rfl
  · rw [← hbase]
    rfl
  · rfl
  · simp [Piece.render, Piece.width]
  · simp [Piece.render, Piece.width]

theorem add_width {a b : UInt32} (h : a + b = addr) (w : UInt32) : a + w + b = addr + w := by
  calc a + w + b = a + (w + b) := UInt32.add_assoc a w b
    _ = a + (b + w) := by rw [UInt32.add_comm w b]
    _ = a + b + w := (UInt32.add_assoc a b w).symm
    _ = addr + w := by rw [h]

theorem formatTurn_char {c : UInt8} {rest : Bytes} (hrest : s.rest = c :: rest) (hc : c ≠ ascii '%') :
    formatTurn r s = some { s with rest, out := s.out ++ [c] } := by
  rw [formatTurn, hrest]
  exact if_pos hc

theorem formatTurn_percent {c : UInt8} {rest : Bytes} (hrest : s.rest = ascii '%' :: c :: rest) (h : s.At addr) :
    ∃ s', formatTurn r s = some s' ∧ s'.rest = rest ∧ s'.out = s.out ++ (Piece.ofByte c).render r addr ∧
      s'.At (addr + UInt32.ofNat (Piece.ofByte c).width) := by
  refine ⟨⟨rest, s.i32 + UInt32.ofNat (Piece.ofByte c).width, s.base + UInt32.ofNat (Piece.ofByte c).width,
    s.out ++ (Piece.ofByte c).render r addr⟩, ?_, rfl, rfl, add_width h.1 _, add_width h.2 _⟩
  rw [formatTurn, hrest]
  dsimp only
  rw [if_neg (not_not.mpr rfl), formatSwitch_eq h.1 h.2]

theorem formatTurn_at (hs : formatTurn r s = some s') (h : s.At addr) : ∃ addr', s'.At addr' := by
  cases hrest : s.rest with
  | nil => simp [formatTurn, hrest] at hs
  | cons c rest =>
    by_cases hc : c = ascii '%'
    · subst hc
      cases rest with
      | nil => simp [formatTurn, hrest] at hs
      | cons d rest =>
        obtain ⟨t, ht, -, -, hat⟩ := formatTurn_percent (r := r) hrest h
        rw [ht] at hs
        obtain rfl := Option.some.inj hs
        exact ⟨_, hat⟩
    · rw [formatTurn_char hrest hc] at hs
      obtain rfl := Option.some.inj hs
      exact ⟨addr, h⟩

theorem formatLoop_turn (hs : formatTurn r s = some s') : formatLoop r s = formatLoop r s' := by
  rw [formatLoop]
  split
  · rename_i hnone
    rw [hs] at hnone
    simp at hnone
  · rename_i t hsome
    rw [hs] at hsome
    obtain rfl := Option.some.inj hsome
    rfl

theorem formatLoop_done (hs : formatTurn r s = none) : formatLoop r s = s.out := by
  rw [formatLoop]
  split
  · rfl
  · rename_i t hsome
    rw [hs] at hsome
    simp at hsome

/-! ## The loop -/

/-- Pieces rendered one after the other from an address. -/
def renderFrom (r : ArgReader) : UInt32 → List Piece → Bytes
  | _, [] => []
  | addr, piece :: ps => piece.render r addr ++ renderFrom r (addr + UInt32.ofNat piece.width) ps

theorem formatLoop_eq (h : s.At addr) : formatLoop r s = s.out ++ renderFrom r addr (pieces s.rest) := by
  generalize hrest : s.rest = rest
  induction rest using pieces.induct generalizing s addr with
  | case1 =>
    rw [formatLoop_done (by rw [formatTurn, hrest]), pieces, renderFrom, List.append_nil]
  | case2 =>
    have hdone : formatTurn r s = none := by
      rw [formatTurn, hrest]
      rfl
    rw [formatLoop_done hdone, pieces, if_pos rfl, renderFrom, List.append_nil]
  | case3 c hc =>
    rw [formatLoop_turn (formatTurn_char hrest hc), formatLoop_done rfl, pieces, if_neg hc]
    simp [renderFrom, Piece.render]
  | case4 c rest ih =>
    obtain ⟨s', hs, hrest', hout, hat⟩ := formatTurn_percent (r := r) hrest h
    rw [formatLoop_turn hs, ih hat hrest', hout, pieces, if_pos rfl, renderFrom, List.append_assoc]
  | case5 c d rest hc ih =>
    have hat : FormatState.At { s with rest := d :: rest, out := s.out ++ [c] } addr := h
    rw [formatLoop_turn (formatTurn_char hrest hc), ih hat rfl, pieces, if_neg hc]
    simp [renderFrom, Piece.render, Piece.width]

theorem renderFrom_eq (addr : UInt32) (ps : List Piece) :
    renderFrom r addr ps =
      ps.zipIdx.flatMap fun (piece, i) => piece.render r (addr + UInt32.ofNat (widths (ps.take i))) := by
  induction ps generalizing addr with
  | nil => rfl
  | cons piece ps ih =>
    have hnext (i : Nat) : addr + UInt32.ofNat (widths ((piece :: ps).take (i + 1))) =
        addr + UInt32.ofNat piece.width + UInt32.ofNat (widths (ps.take i)) := by
      rw [List.take_succ_cons, widths, UInt32.ofNat_add, UInt32.add_assoc]
    rw [renderFrom, ih, List.zipIdx_cons, List.flatMap_cons, List.zipIdx_succ, List.flatMap_map]
    simp only [hnext]
    simp [widths]

theorem start_at (fmt : Bytes) (argsBase : Int32) : (FormatState.start fmt argsBase).At argsBase.toUInt32 :=
  ⟨UInt32.sub_add_cancel _ _, UInt32.sub_add_cancel _ _⟩

end

/-- **The argument walk**: for every format, base and memory the result is the reference
rendering, and at every turn of the loop the cursors name the same address. -/
theorem formatCustomArgs_reference (r : ArgReader) (fmt : Bytes) (argsBase : Int32) :
    formatCustomArgs r (some fmt) argsBase = reference r argsBase.toUInt32 (cStr fmt) ∧
      ∀ s, Relation.ReflTransGen (fun s s' => formatTurn r s = some s') (.start (cStr fmt) argsBase) s →
        s.i32 + 4 = s.base + 8 := by
  refine ⟨?_, ?_⟩
  · have hloop := formatLoop_eq (r := r) (start_at (cStr fmt) argsBase)
    rw [formatCustomArgs, hloop, renderFrom_eq]
    rfl
  · intro s hturns
    have htogether : ∃ addr, s.At addr := by
      induction hturns with
      | refl => exact ⟨_, start_at _ _⟩
      | tail _ hturn ih =>
        obtain ⟨addr, hat⟩ := ih
        exact formatTurn_at hturn hat
    obtain ⟨addr, hi32, hbase⟩ := htogether
    exact hi32.trans hbase.symm

/-- The base may be so small that the cursors begin below 0. -/
example : formatCustomArgs (Memory.argReader (fun addr => some addr.toUInt8) fun _ => literal "0.5")
    (some (literal "%d%%%f%x%u%")) 0 = literal "50462976%0.5%x252579084" := by decide +kernel

end Icecap.Hooks
