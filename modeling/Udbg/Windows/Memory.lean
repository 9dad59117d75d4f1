import Mathlib.Algebra.Group.Nat.Basic
import Mathlib.Order.Basic
import Mathlib.Data.Nat.Defs

/-!
# The target's memory

What the cross-process readers of `src/os/windows/mod.rs` see of a target: the bytes
`ReadProcessMemory` can read, and `usize` arithmetic on the addresses they compute.

`ReadMemory for Process` reads through `read_process_memory`, which reports `0` whenever
`ReadProcessMemory` fails, and `ReadProcessMemory` fails on any range that reaches a byte it
cannot read. So a Windows read returns the whole range or nothing: the bytes copied before the
first unreadable one are dropped, and no short read is ever returned.

## Main definitions

* `wrappingAdd`: `usize` addition
* `Memory`, `Memory.readCopy`: the readable bytes, and a fixed-size read
* `Memory.readProcessMemory`, `readProcessMemory`, `ReadMemory.readMemory`: the read path
* `le16`, `le32`, `le64`: little-endian fields of a byte window

## Main results

* `readMemory_eq`: `read_memory` of a non-empty buffer is `read_copy` of its length
* `readMemory_eq_some`: it returns bytes exactly when the whole range can be read, and then
  the bytes of the whole range
-/

namespace Udbg.Windows

/-- `usize` addition as a release build computes it, wrapping at `2^width`; a debug build
panics where this wraps. -/
def wrappingAdd (width a b : Nat) : Nat := (a + b) % 2 ^ width

theorem wrappingAdd_of_lt {width a b : Nat} (h : a + b < 2 ^ width) :
    wrappingAdd width a b = a + b := Nat.mod_eq_of_lt h

/-- The target's memory as `ReadProcessMemory` reads it: the byte at each readable address.
Nothing at or past `2^64` is readable. -/
structure Memory where
  byte : Nat → Option UInt8
  bounded : ∀ a, 2 ^ 64 ≤ a → byte a = none

/-- Modelled from the spec (§9, a fixed byte window): `read_copy::<T>(address)`, which is not in
the source: the `size` bytes from `address`, when all of them can be read. -/
def Memory.readCopy (m : Memory) (address size : Nat) : Option (List UInt8) :=
  (List.range size).mapM fun k => m.byte (address + k)

/-! ## Reading the target -/

namespace Memory

variable (m : Memory)

/-- The bytes `ReadProcessMemory` copies from `address` on into a buffer of `n` bytes: those
before the first byte it cannot read. -/
def readPrefix (address : Nat) : Nat → List UInt8
  | 0 => []
  | n + 1 =>
    match m.byte address with
    | some b => b :: readPrefix (address + 1) n
    | none => []

/-- `ReadProcessMemory(handle, address, buffer, len, &readed)`, as documented: it copies the
bytes before the first one it cannot read into the buffer and reports their number in
`readed`, and it succeeds only when it copied all `len` of them. -/
def readProcessMemory (address : Nat) (data : List UInt8) : Bool × Nat × List UInt8 :=
  let copied := m.readPrefix address data.length
  (copied.length == data.length, copied.length, copied ++ data.drop copied.length)

/-- A copy of all `n` bytes is the bytes of the range, and there is one exactly when every
byte of the range can be read. -/
theorem readPrefix_full (address n : Nat) (bytes : List UInt8) :
    (m.readPrefix address n).length = n ∧ m.readPrefix address n = bytes ↔
      bytes.length = n ∧ ∀ k < n, m.byte (address + k) = bytes[k]? := by
  induction n generalizing address bytes with
  | zero => cases bytes <;> simp [readPrefix]
  | succ n ih =>
    rw [Nat.forall_lt_succ_left]
    cases bytes with
    | nil => cases h : m.byte address <;> simp [readPrefix, h]
    | cons b bs =>
      cases h : m.byte address with
      | none => simp [readPrefix, h]
      | some c =>
        have key := ih (address + 1) bs
        simp only [Nat.add_assoc, Nat.add_comm 1] at key
        simp only [readPrefix, h, List.length_cons, Nat.add_right_cancel_iff, List.cons.injEq,
          Nat.add_zero, List.getElem?_cons_zero, Option.some.injEq, List.getElem?_cons_succ]
        rw [and_left_comm, key]
        exact and_left_comm

/-- The fold of `read_copy` from offset `s` on. -/
theorem mapM_byte_range' (address s n : Nat) :
    (List.range' s n).mapM (fun k => m.byte (address + k)) =
      if (m.readPrefix (address + s) n).length = n then some (m.readPrefix (address + s) n)
      else none := by
  induction n generalizing s with
  | zero => rfl
  | succ n ih =>
    rw [List.range'_succ, List.mapM_cons, ih]
    cases h : m.byte (address + s) with
    | none => simp only [readPrefix, h, List.length_nil, Nat.zero_ne_add_one, if_false]; rfl
    | some c =>
      simp only [readPrefix, h, List.length_cons, Nat.add_right_cancel_iff, ← Nat.add_assoc]
      split_ifs <;> rfl

/-- `read_copy` reads what `ReadProcessMemory` copies, when it copies the whole range. -/
theorem readCopy_eq (address n : Nat) :
    m.readCopy address n =
      if (m.readPrefix address n).length = n then some (m.readPrefix address n) else none := by
  rw [readCopy, List.range_eq_range', mapM_byte_range', Nat.add_zero]

end Memory

/-- `read_process_memory`: `readed` when `ReadProcessMemory` succeeds, `0` when it fails, and
the buffer as the call left it. -/
def readProcessMemory (m : Memory) (address : Nat) (data : List UInt8) : Nat × List UInt8 :=
  let (ok, readed, data) := m.readProcessMemory address data
  (if ok then readed else 0, data)

/-- `ReadMemory for Process::read_memory`: the first `r` bytes of the buffer when
`read_process_memory` reports `r > 0`. -/
def ReadMemory.readMemory (m : Memory) (addr : Nat) (data : List UInt8) : Option (List UInt8) :=
  let (r, data) := readProcessMemory m addr data
  if r > 0 then some (data.take r) else none

/-- `read_memory` is `read_copy` of the buffer's length, for a buffer that is not empty. -/
theorem readMemory_eq (m : Memory) (addr : Nat) (data : List UInt8) :
    ReadMemory.readMemory m addr data =
      if 0 < data.length then m.readCopy addr data.length else none := by
  rw [Memory.readCopy_eq]
  simp only [ReadMemory.readMemory, readProcessMemory, Memory.readProcessMemory, beq_iff_eq]
  by_cases hp : (m.readPrefix addr data.length).length = data.length
  · simp only [hp, if_true, GT.gt, List.take_left' hp]
  · simp [hp]

/-- **Reads are all or nothing.** `read_memory` returns bytes exactly when the buffer is not
empty and every byte of the range can be read, and it then returns the whole range: a read
that reaches a byte it cannot read returns `None`, although `ReadProcessMemory` reports the
bytes it copied before that one. -/
theorem readMemory_eq_some (m : Memory) (addr : Nat) (data bytes : List UInt8) :
    ReadMemory.readMemory m addr data = some bytes ↔
      0 < data.length ∧ bytes.length = data.length ∧
        ∀ k < data.length, m.byte (addr + k) = bytes[k]? := by
  have full := m.readPrefix_full addr data.length bytes
  rw [readMemory_eq, Memory.readCopy_eq]
  split_ifs with hlen hp
  · simp only [Option.some.injEq, hlen, true_and, ← full, hp]
  · simp only [reduceCtorEq, false_iff, not_and]
    exact fun _ hb hk => hp (full.mpr ⟨hb, hk⟩).1
  · simp [hlen]

/-- The little-endian `u16` at offset `o` of a byte window. -/
def le16 (bs : List UInt8) (o : Nat) : UInt16 :=
  (bs.getD o 0).toUInt16 ||| (bs.getD (o + 1) 0).toUInt16 <<< 8

/-- The little-endian `u32` at offset `o` of a byte window. -/
def le32 (bs : List UInt8) (o : Nat) : UInt32 :=
  (le16 bs o).toUInt32 ||| (le16 bs (o + 2)).toUInt32 <<< 16

/-- The little-endian `u64` at offset `o` of a byte window. -/
def le64 (bs : List UInt8) (o : Nat) : UInt64 :=
  (le32 bs o).toUInt64 ||| (le32 bs (o + 4)).toUInt64 <<< 32

end Udbg.Windows
