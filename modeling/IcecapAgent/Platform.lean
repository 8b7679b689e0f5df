import Mathlib.Algebra.Group.Nat.Defs
import Mathlib.Data.List.TakeWhile

/- What the agent takes from its platform: a 32-bit Windows build, where `size_t`
   and `int` are 32 bits wide and a `std::string` holds fewer than `2^31` bytes.

   A `std::string` is the list of its bytes and its size the length of the list.
   `append` is list append: running out of memory is not modelled. `assign` does
   check the length it is asked for, because the frame decoder can ask for one
   that no string has. -/
namespace Icecap

/-- The bytes of a `std::string`, or of a buffer handed to or by the sockets. -/
abbrev Bytes := List UInt8

/-- `std::string::max_size()` of the build. -/
def maxSize : Nat := 2^31 - 1

/-- The standard exceptions the modelled code can raise. -/
inductive StdError where
  | lengthError
  deriving DecidableEq, Repr

/-- `std::string::assign(src, n)`: the first `n` bytes at `src`. -/
def assign (src : Bytes) (n : Nat) : Except StdError Bytes :=
  if maxSize < n then .error .lengthError else .ok (src.take n)

/-- `std::string::erase(0, n)`; a count past the end erases everything. -/
def erase (s : Bytes) (n : Nat) : Bytes := s.drop n

/-- What a function that takes a NUL-terminated string sees of `s.c_str()`. -/
def cStr (s : Bytes) : Bytes := s.takeWhile (· ≠ 0)

/-- The bytes of a string literal of ASCII characters. -/
def literal (s : String) : Bytes := s.toList.map (fun c => UInt8.ofNat c.toNat)

/-- `static_cast<int>` of a 32-bit value. -/
def toInt (n : Nat) : Int := Int.bmod n (2^32)

/-- A `SOCKET` handle. -/
abbrev Socket := UInt32

/-- `INVALID_SOCKET`. -/
def invalidSocket : Socket := 0xFFFFFFFF

theorem toInt_of_lt {n : Nat} (h : n ≤ maxSize) : toInt n = n := by
  unfold toInt maxSize at *
  rw [Int.bmod_def]
  omega

theorem cStr_eq_iff {s : Bytes} : cStr s = s ↔ 0 ∉ s := by
  unfold cStr
  rw [List.takeWhile_eq_self_iff]
  refine ⟨?_, ?_⟩
  · intro h h0
    simpa using h 0 h0
  · intro h b hb
    have : b ≠ 0 := fun e => h (e ▸ hb)
    simpa using this

end Icecap
