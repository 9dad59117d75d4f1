import Udbg.Windows.Memory

/-!
# Protection-restoring writes

`write_process_memory` (`src/os/windows/mod.rs`) relaxes the protection of the pages it
writes to `PAGE_EXECUTE_READWRITE` with `VirtualProtectEx`, writes with
`WriteProcessMemory`, and calls `VirtualProtectEx` again with the protection the first call
reported. `VirtualProtectEx` reports only the old protection of the first page of the range,
so the second call gives every page of the range the first page's old protection: pages that
had another protection, which a write straddling a page boundary can reach, keep the wrong
one afterwards, whether the write succeeded or failed.

`VirtualProtectEx` and `WriteProcessMemory` both fail, with no effect, when a page of the
range is not committed. Then `old_protect` keeps its initial `0`, which the restoring call
rejects, so the call reports `0` and no protection changes.

The protection every page of a committed range in one allocation ends with is that old
protection, so a successful write reads back through `ReadMemory for Process` whenever that
protection can be read through, whatever the other pages' protections were.

## Main definitions

* `Target`: the pages of a target, with their allocations, commit state and protections
* `Target.virtualProtectEx`, `Target.writeProcessMemory`: the two calls, as documented
* `writeProcessMemory`, `Process.writeMemory`, `WriteMemory.writeMemory`
* `Target.memory`: what `ReadProcessMemory` reads of a target

## Main results

* `protect_after_writeProcessMemory`: after the call, every page of the range has the first
  page's old protection, and every other page its own
* `writeProcessMemory_restores`: so the protections are restored exactly when the pages of the
  range shared one
* `writeProcessMemory_uncommitted`: a range that reaches an uncommitted page writes nothing and
  changes no protection
* `writeProcessMemory_changes_protection`: a write across an `RX` and an `R` page leaves the
  second one `RX`
* `readMemory_writeMemory`: a successful write within one allocation reads back
-/

namespace Udbg.Windows

/-- The base page protections, `PAGE_NOACCESS` to `PAGE_EXECUTE_WRITECOPY`. -/
def pageProtections : List UInt32 := [0x01, 0x02, 0x04, 0x08, 0x10, 0x20, 0x40, 0x80]

/-- A protection `VirtualProtectEx` accepts: one base protection, and only the modifiers
`PAGE_GUARD`, `PAGE_NOCACHE` and `PAGE_WRITECOMBINE`. -/
def validProtection (p : UInt32) : Bool :=
  pageProtections.contains (p &&& 0xff) && (p &&& 0xfffff800) == 0

/-- `PAGE_EXECUTE_READWRITE`. -/
def PAGE_EXECUTE_READWRITE : UInt32 := 0x40

/-- The pages of a target: the allocation, commit state and protection of each page, and the
memory contents. Every page has a protection `VirtualProtectEx` accepts; that of a page that
is not committed is never read. -/
structure Target where
  pageSize : Nat
  allocation : Nat → Nat
  committed : Nat → Bool
  protect : Nat → UInt32
  bytes : Nat → UInt8
  pageSize_pos : 0 < pageSize
  protect_valid : ∀ i, validProtection (protect i) = true

namespace Target

variable (t : Target)

/-- The page of the first byte of `[address, address + len)`. -/
def firstPage (address : Nat) : Nat := address / t.pageSize

/-- Page `i` holds a byte of `[address, address + len)` (holds `address`, when `len` is `0`). -/
def Touches (address len i : Nat) : Prop :=
  address / t.pageSize ≤ i ∧ i ≤ (address + len - 1) / t.pageSize

instance (address len i : Nat) : Decidable (t.Touches address len i) :=
  inferInstanceAs (Decidable (_ ∧ _))

/-- Every page of the range lies in the allocation of its first page. -/
def OneAllocation (address len : Nat) : Prop :=
  ∀ i, address / t.pageSize ≤ i → i < (address + len - 1) / t.pageSize + 1 →
    t.allocation i = t.allocation (t.firstPage address)

instance (address len : Nat) : Decidable (t.OneAllocation address len) :=
  Nat.decidableLoHi _ _ _

/-- Every page of the range is committed. -/
def Committed (address len : Nat) : Prop :=
  ∀ i, address / t.pageSize ≤ i → i < (address + len - 1) / t.pageSize + 1 → t.committed i = true

instance (address len : Nat) : Decidable (t.Committed address len) :=
  Nat.decidableLoHi _ _ _

/-- `VirtualProtectEx(address, len, p)`, as documented: when the range lies in one allocation,
every page of it is committed, and `p` is a valid protection, every page of the range gets
`p`, and the call reports the old protection of the first page; otherwise it fails and
changes nothing. -/
def virtualProtectEx (address len : Nat) (p : UInt32) : Bool × UInt32 × Target :=
  if h : validProtection p = true ∧ t.OneAllocation address len ∧ t.Committed address len then
    (true, t.protect (t.firstPage address),
      { t with
        protect := fun i => if t.Touches address len i then p else t.protect i
        protect_valid := fun i => by dsimp only; split; exacts [h.1, t.protect_valid i] })
  else (false, 0, t)

/-- `WriteProcessMemory(address, data)`: it fails when a page of the range is not committed,
and otherwise succeeds or fails as the kernel answers (`ok`). On success the bytes are written
and all of them counted; on failure nothing is written. Protections are unchanged either
way. -/
def writeProcessMemory (address : Nat) (data : List UInt8) (ok : Bool) : Bool × Nat × Target :=
  if ok = true ∧ t.Committed address data.length then
    (true, data.length,
      { t with bytes := fun a =>
          if address ≤ a ∧ a < address + data.length then data.getD (a - address) 0
          else t.bytes a })
  else (false, 0, t)

section Frame

variable {t} {t' : Target}

/-- The range tests read only the page size and the allocations. -/
theorem touches_congr (hp : t'.pageSize = t.pageSize) (address len i : Nat) :
    t'.Touches address len i ↔ t.Touches address len i := by
  simp only [Touches, hp]

theorem oneAllocation_congr (hp : t'.pageSize = t.pageSize) (ha : t'.allocation = t.allocation)
    (address len : Nat) : t'.OneAllocation address len ↔ t.OneAllocation address len := by
  simp only [OneAllocation, firstPage, hp, ha]

theorem committed_congr (hp : t'.pageSize = t.pageSize) (hc : t'.committed = t.committed)
    (address len : Nat) : t'.Committed address len ↔ t.Committed address len := by
  simp only [Committed, hp, hc]

end Frame

@[simp] theorem pageSize_virtualProtectEx (address len : Nat) (p : UInt32) :
    (t.virtualProtectEx address len p).2.2.pageSize = t.pageSize := by
  unfold virtualProtectEx; split <;> rfl

@[simp] theorem allocation_virtualProtectEx (address len : Nat) (p : UInt32) :
    (t.virtualProtectEx address len p).2.2.allocation = t.allocation := by
  unfold virtualProtectEx; split <;> rfl

@[simp] theorem committed_virtualProtectEx (address len : Nat) (p : UInt32) :
    (t.virtualProtectEx address len p).2.2.committed = t.committed := by
  unfold virtualProtectEx; split <;> rfl

theorem protect_virtualProtectEx (address len : Nat) (p : UInt32) (i : Nat) :
    (t.virtualProtectEx address len p).2.2.protect i =
      if validProtection p = true ∧ t.OneAllocation address len ∧ t.Committed address len ∧
          t.Touches address len i then p
      else t.protect i := by
  unfold virtualProtectEx
  by_cases h : validProtection p = true ∧ t.OneAllocation address len ∧ t.Committed address len
  · rw [dif_pos h]
    simp only [h, true_and]
  · rw [dif_neg h]
    rw [if_neg (fun h' => h ⟨h'.1, h'.2.1, h'.2.2.1⟩)]

theorem oldProtect_virtualProtectEx (address len : Nat) (p : UInt32) :
    (t.virtualProtectEx address len p).2.1 =
      if validProtection p = true ∧ t.OneAllocation address len ∧ t.Committed address len then
        t.protect (t.firstPage address)
      else 0 := by
  unfold virtualProtectEx; split_ifs <;> rfl

@[simp] theorem protect_writeProcessMemory (address : Nat) (data : List UInt8) (ok : Bool) :
    (t.writeProcessMemory address data ok).2.2.protect = t.protect := by
  unfold writeProcessMemory; split <;> rfl

@[simp] theorem allocation_writeProcessMemory (address : Nat) (data : List UInt8) (ok : Bool) :
    (t.writeProcessMemory address data ok).2.2.allocation = t.allocation := by
  unfold writeProcessMemory; split <;> rfl

@[simp] theorem pageSize_writeProcessMemory (address : Nat) (data : List UInt8) (ok : Bool) :
    (t.writeProcessMemory address data ok).2.2.pageSize = t.pageSize := by
  unfold writeProcessMemory; split <;> rfl

@[simp] theorem committed_writeProcessMemory (address : Nat) (data : List UInt8) (ok : Bool) :
    (t.writeProcessMemory address data ok).2.2.committed = t.committed := by
  unfold writeProcessMemory; split <;> rfl

@[simp] theorem bytes_virtualProtectEx (address len : Nat) (p : UInt32) :
    (t.virtualProtectEx address len p).2.2.bytes = t.bytes := by
  unfold virtualProtectEx; split <;> rfl

theorem bytes_writeProcessMemory (address : Nat) (data : List UInt8)
    (h : t.Committed address data.length) (a : Nat) :
    (t.writeProcessMemory address data true).2.2.bytes a =
      if address ≤ a ∧ a < address + data.length then data.getD (a - address) 0
      else t.bytes a := by
  rw [writeProcessMemory, if_pos ⟨rfl, h⟩]

/-- A write that reaches a page that is not committed fails and changes nothing. -/
theorem writeProcessMemory_of_not_committed (address : Nat) (data : List UInt8) (ok : Bool)
    (h : ¬ t.Committed address data.length) :
    t.writeProcessMemory address data ok = (false, 0, t) := by
  rw [writeProcessMemory, if_neg fun h' => h h'.2]

/-! The calls change no allocation and no page size, so no range test. -/

@[simp] theorem oneAllocation_virtualProtectEx (address len : Nat) (p : UInt32) (x n : Nat) :
    (t.virtualProtectEx address len p).2.2.OneAllocation x n ↔ t.OneAllocation x n :=
  oneAllocation_congr (by simp) (by simp) x n

@[simp] theorem touches_virtualProtectEx (address len : Nat) (p : UInt32) (x n i : Nat) :
    (t.virtualProtectEx address len p).2.2.Touches x n i ↔ t.Touches x n i :=
  touches_congr (by simp) x n i

@[simp] theorem committed_range_virtualProtectEx (address len : Nat) (p : UInt32) (x n : Nat) :
    (t.virtualProtectEx address len p).2.2.Committed x n ↔ t.Committed x n :=
  committed_congr (by simp) (by simp) x n

@[simp] theorem committed_range_writeProcessMemory (address : Nat) (data : List UInt8)
    (ok : Bool) (x n : Nat) :
    (t.writeProcessMemory address data ok).2.2.Committed x n ↔ t.Committed x n :=
  committed_congr (by simp) (by simp) x n

@[simp] theorem oneAllocation_writeProcessMemory (address : Nat) (data : List UInt8) (ok : Bool)
    (x n : Nat) :
    (t.writeProcessMemory address data ok).2.2.OneAllocation x n ↔ t.OneAllocation x n :=
  oneAllocation_congr (by simp) (by simp) x n

@[simp] theorem touches_writeProcessMemory (address : Nat) (data : List UInt8) (ok : Bool)
    (x n i : Nat) : (t.writeProcessMemory address data ok).2.2.Touches x n i ↔ t.Touches x n i :=
  touches_congr (by simp) x n i

end Target

/-- `write_process_memory`: relax the range to `PAGE_EXECUTE_READWRITE`, write, and set the
range to the protection the first call reported (`old_protect` keeps its initial `0` when
that call fails). Returns the bytes written, `0` on failure, and the target after. -/
def writeProcessMemory (t : Target) (address : Nat) (data : List UInt8) (ok : Bool) :
    Nat × Target :=
  let (_, oldProtect, t1) := t.virtualProtectEx address data.length PAGE_EXECUTE_READWRITE
  let (result, written, t2) := t1.writeProcessMemory address data ok
  let (_, _, t3) := t2.virtualProtectEx address data.length oldProtect
  (if result then written else 0, t3)

/-- `Process::write_memory`. -/
def Process.writeMemory (t : Target) (address : Nat) (data : List UInt8) (ok : Bool) :
    Nat × Target :=
  writeProcessMemory t address data ok

/-- `WriteMemory::write_memory` for `Process`: `None` when nothing was written. -/
def WriteMemory.writeMemory (t : Target) (address : Nat) (data : List UInt8) (ok : Bool) :
    Option Nat × Target :=
  let (r, t') := Process.writeMemory t address data ok
  (if r > 0 then some r else none, t')

/-- **The protections after `write_process_memory`.** When the range lies in one allocation and
is committed, every page of it ends with the old protection of the first page, whether the
write succeeded or not; every other page, and every page when the range spans allocations or
reaches an uncommitted page, keeps its own. -/
theorem protect_after_writeProcessMemory (t : Target) (address : Nat) (data : List UInt8)
    (ok : Bool) (i : Nat) :
    (writeProcessMemory t address data ok).2.protect i =
      if t.OneAllocation address data.length ∧ t.Committed address data.length ∧
          t.Touches address data.length i then
        t.protect (t.firstPage address)
      else t.protect i := by
  have hrwx : validProtection PAGE_EXECUTE_READWRITE = true := by decide
  have h0 : validProtection 0 = false := by decide
  simp only [writeProcessMemory, Target.protect_virtualProtectEx,
    Target.oldProtect_virtualProtectEx, Target.protect_writeProcessMemory,
    Target.oneAllocation_writeProcessMemory, Target.oneAllocation_virtualProtectEx,
    Target.committed_range_writeProcessMemory, Target.committed_range_virtualProtectEx,
    Target.touches_writeProcessMemory, Target.touches_virtualProtectEx, hrwx, true_and]
  by_cases hone : t.OneAllocation address data.length ∧ t.Committed address data.length
  · simp only [hone, and_self, if_true, t.protect_valid, true_and]
    split_ifs <;> rfl
  · simp only [hone, false_and, if_false, h0, Bool.false_eq_true, and_false, ite_self]
    split_ifs with h'
    exacts [absurd ⟨h'.1, h'.2.1⟩ hone, rfl]

/-- **A range that reaches an uncommitted page is left alone.** The first `VirtualProtectEx`
fails, so `old_protect` keeps its `0`; `WriteProcessMemory` fails; and the restoring call,
asked for protection `0`, fails too. The call reports `0` bytes and no page changes its
protection, whatever the kernel would have answered. -/
theorem writeProcessMemory_uncommitted (t : Target) (address : Nat) (data : List UInt8)
    (ok : Bool) (h : ¬ t.Committed address data.length) :
    (writeProcessMemory t address data ok).1 = 0 ∧
      (writeProcessMemory t address data ok).2.protect = t.protect := by
  refine ⟨?_, funext fun i => ?_⟩
  · simp only [writeProcessMemory]
    rw [Target.writeProcessMemory_of_not_committed _ _ _ _ (by simpa using h)]
    rfl
  · rw [protect_after_writeProcessMemory, if_neg fun h' => h h'.2.1]

/-- An allocation of two committed pages at `0x400000`, an `RX` page followed by an `R`
page, with the pages around them reserved. -/
def straddleTarget : Target where
  pageSize := 0x1000
  allocation _ := 0x400000
  committed i := i = 0x400 || i = 0x401
  protect i := if i = 0x400 then 0x20 else 0x02
  bytes _ := 0
  pageSize_pos := by decide
  protect_valid i := by dsimp only; split <;> decide

/-- A two-byte write across the boundary of the two pages leaves the `R` page `RX`, whether
the write succeeds or fails. -/
theorem writeProcessMemory_changes_protection (ok : Bool) :
    straddleTarget.protect 0x401 = 0x02 ∧
      (writeProcessMemory straddleTarget 0x400fff [0x90, 0x90] ok).2.protect 0x401 = 0x20 := by
  rw [protect_after_writeProcessMemory]
  decide

/-- A write that runs from the `R` page into the reserved page after it reports `0` and leaves
every protection as it was. -/
theorem writeProcessMemory_uncommitted_reserved :
    ¬ straddleTarget.Committed 0x401fff 2 ∧
      (writeProcessMemory straddleTarget 0x401fff [0x90, 0x90] true).1 = 0 ∧
      (writeProcessMemory straddleTarget 0x401fff [0x90, 0x90] true).2.protect =
        straddleTarget.protect :=
  ⟨by decide, writeProcessMemory_uncommitted _ _ _ _ (by decide)⟩

/-! ## Reading a write back -/

/-- The memory `ReadProcessMemory` reads of a target, given the protections it reads through:
the bytes below `2^64` of the committed pages whose protection it reads through. -/
def Target.memory (t : Target) (readable : UInt32 → Bool) : Memory where
  byte a :=
    if a < 2 ^ 64 ∧ t.committed (a / t.pageSize) = true ∧
        readable (t.protect (a / t.pageSize)) = true then some (t.bytes a)
    else none
  bounded a h := if_neg fun h' => absurd h'.1 (by omega)

@[simp] theorem committed_after_writeProcessMemory (t : Target) (address : Nat)
    (data : List UInt8) (ok : Bool) :
    (writeProcessMemory t address data ok).2.committed = t.committed := by
  simp [writeProcessMemory]

/-- After `write_process_memory`, the bytes of the range are the bytes written. -/
theorem bytes_after_writeProcessMemory (t : Target) (address : Nat) (data : List UInt8) (k : Nat)
    (hcommit : t.Committed address data.length) (hk : k < data.length) :
    (writeProcessMemory t address data true).2.bytes (address + k) = data[k] := by
  simp only [writeProcessMemory, Target.bytes_virtualProtectEx]
  rw [Target.bytes_writeProcessMemory _ _ _ (by simpa using hcommit),
    if_pos ⟨Nat.le_add_right _ _, by omega⟩, Nat.add_sub_cancel_left, List.getD_eq_getElem?_getD,
    List.getElem?_eq_getElem hk, Option.getD_some]

/-- **A write reads back.** When the range lies in one allocation below `2^64`, is committed,
and `WriteProcessMemory` succeeds, `write_memory` reports every byte written, and
`read_memory` of the range returns them, provided `ReadProcessMemory` reads through the first
page's old protection: the protection every page of the range has afterwards. -/
theorem readMemory_writeMemory (readable : UInt32 → Bool) (t : Target) (address : Nat)
    (data : List UInt8) (hne : data ≠ []) (hbound : address + data.length ≤ 2 ^ 64)
    (hone : t.OneAllocation address data.length) (hcommit : t.Committed address data.length)
    (hread : readable (t.protect (t.firstPage address)) = true) :
    (WriteMemory.writeMemory t address data true).1 = some data.length ∧
      ReadMemory.readMemory ((WriteMemory.writeMemory t address data true).2.memory readable)
        address (List.replicate data.length 0) = some data := by
  have hpos : 0 < data.length := List.length_pos.mpr hne
  have hP := t.pageSize_pos
  have hps : (writeProcessMemory t address data true).2.pageSize = t.pageSize := by
    simp [writeProcessMemory]
  have hbyte : ∀ k < data.length,
      ((writeProcessMemory t address data true).2.memory readable).byte (address + k) =
        data[k]? := fun k hk => by
    have htouch : t.Touches address data.length ((address + k) / t.pageSize) :=
      ⟨Nat.div_le_div_right (Nat.le_add_right _ _), Nat.div_le_div_right (by omega)⟩
    have hc : t.committed ((address + k) / t.pageSize) = true :=
      hcommit _ htouch.1 (Nat.lt_succ_of_le htouch.2)
    simp only [Target.memory, hps, protect_after_writeProcessMemory, hone, hcommit, htouch,
      and_self, if_true, hread, committed_after_writeProcessMemory, hc,
      bytes_after_writeProcessMemory t address data k hcommit hk, List.getElem?_eq_getElem hk]
    rw [if_pos ⟨by omega, trivial⟩]
  have hfull := ((writeProcessMemory t address data true).2.memory readable).readPrefix_full
    address data.length data
  refine ⟨?_, ?_⟩
  · simp [WriteMemory.writeMemory, Process.writeMemory, writeProcessMemory,
      Target.writeProcessMemory, hpos, hcommit]
  · rw [show (WriteMemory.writeMemory t address data true).2 =
        (writeProcessMemory t address data true).2 from rfl,
      readMemory_eq, Memory.readCopy_eq, List.length_replicate, if_pos hpos,
      (hfull.mpr ⟨rfl, hbyte⟩).2]
    exact if_pos rfl

/-- Reading back the write across the `RX` and `R` pages, through every protection but
`PAGE_NOACCESS`. -/
theorem readMemory_writeMemory_straddle :
    (WriteMemory.writeMemory straddleTarget 0x400fff [0x90, 0x90] true).1 = some 2 ∧
      ReadMemory.readMemory
        ((WriteMemory.writeMemory straddleTarget 0x400fff [0x90, 0x90] true).2.memory
          fun p => p != 0x01) 0x400fff (List.replicate 2 0) = some [0x90, 0x90] :=
  readMemory_writeMemory _ straddleTarget 0x400fff [0x90, 0x90] (by decide) (by decide)
    (by decide) (by decide) (by decide)

end Udbg.Windows
