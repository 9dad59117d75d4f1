import Udbg.Nix.Process
import Mathlib.Data.Finset.Basic
import Mathlib.Logic.Function.Basic

/-!
# Reading and writing the target's memory

`Process::read` and `Process::write` (`src/nix/process.rs`) go through `/proc/<pid>/mem`. A
read opens the file the first time it needs it and keeps it in the process, behind a
`RwLock`, for every later read; a write opens the file afresh, seeks, writes, and drops it.
On the kernel side, `read(2)` and `write(2)` on that file move the bytes up to the first
address the target cannot have accessed, and fail with `EIO` when that is none of them.

## Main definitions

* `MemKernel`: the target's memory as the file exposes it, and the debugger's open files
* `Process.readMem`, `Process.read`, `Process.write`
* `Op`, `run`: any sequence of reads and writes on one process

## Main results

* `read_of_cached`, `read_of_uncached`, `write_eq`: what one call does, from which the rest
  follows
* `opened_run`: a run of reads and writes from a fresh process leaves open only the files that
  were open before it and the cached channel
* `write_read`: a write to a range the target lets a tracer write, then a read of the same
  length, gives the written bytes back
-/

namespace Udbg.Nix

/-! ## Transfers -/

section Transfer

variable (writable : Nat → Bool) (memory : Nat → Option UInt8)

/-- The bytes a transfer of up to `len` bytes from `address` reaches: those before the first
address that `memory` leaves unreadable. -/
def readPrefix (address : Nat) : Nat → Bytes
  | 0 => []
  | n + 1 =>
    match memory address with
    | some b => b :: readPrefix (address + 1) n
    | none => []

/-- Writing `data` from `address`, up to the first address that `writable` refuses: how many
bytes were written, and the memory after. -/
def writePrefix (address : Nat) : Bytes → Nat × (Nat → Option UInt8)
  | [] => (0, memory)
  | b :: data =>
    if writable address then
      let rest := writePrefix (address + 1) data
      (rest.1 + 1, Function.update rest.2 address (some b))
    else (0, memory)

variable {writable memory}

/-- A write that wrote nothing left the memory as it was. -/
theorem writePrefix_of_fst_eq_zero {address : Nat} {data : Bytes}
    (h : (writePrefix writable memory address data).1 = 0) :
    (writePrefix writable memory address data).2 = memory := by
  cases data with
  | nil => rfl
  | cons b data =>
    simp only [writePrefix] at h ⊢
    split at h
    · simp at h
    · simp only [if_neg ‹_›]

variable (writable)

/-- A write changes nothing outside its range. -/
theorem writePrefix_frame (address : Nat) (data : Bytes) (x : Nat)
    (hx : x < address ∨ address + data.length ≤ x) :
    (writePrefix writable memory address data).2 x = memory x := by
  induction data generalizing address with
  | nil => rfl
  | cons b data ih =>
    simp only [List.length_cons] at hx
    simp only [writePrefix]
    split
    · dsimp only
      rw [Function.update_noteq (by omega), ih (address + 1) (by omega)]
    · rfl

end Transfer

/-! ## The kernel side -/

/-- The kernel as the debugger sees it through `/proc/<pid>/mem`: the target's readable bytes;
the addresses it lets a tracer write (the file writes with `FOLL_FORCE`, so read-only mappings
are writable through it); whether the debugger may open the file at all; and the debugger's
open files, numbered as they are opened. -/
structure MemKernel where
  memory : Nat → Option UInt8
  writable : Nat → Bool
  access : Bool
  opened : Finset Nat
  nextFile : Nat
  fresh : ∀ f ∈ opened, f < nextFile

namespace MemKernel

variable (k : MemKernel)

/-- `open` on `/proc/<pid>/mem`: a new open file, when the debugger may open it. -/
def openMem : Option MemFile × MemKernel :=
  if k.access then
    (some ⟨k.nextFile⟩,
      { k with
        opened := insert k.nextFile k.opened
        nextFile := k.nextFile + 1
        fresh := fun f hf => by
          rcases Finset.mem_insert.mp hf with rfl | hf
          · omega
          · have := k.fresh f hf; omega })
  else (none, k)

/-- `close`, when the `File` that owns the file is dropped. -/
def close (f : MemFile) : MemKernel :=
  { k with
    opened := k.opened.erase f.fd
    fresh := fun g hg => k.fresh g (Finset.mem_of_mem_erase hg) }

/-- `read(2)` of `len` bytes at the file position `address`: the bytes up to the first
unreadable address, or `EIO` when that is none of them although some were asked for. -/
def pread (_ : MemFile) (address len : Nat) : Option Bytes :=
  let bytes := readPrefix k.memory address len
  if bytes = [] ∧ 0 < len then none else some bytes

/-- `write(2)` of `data` at the file position `address`: the bytes up to the first address
the tracer may not write are written, or `EIO` when that is none of them although some were
given. -/
def pwrite (_ : MemFile) (address : Nat) (data : Bytes) : Option Nat × MemKernel :=
  let w := writePrefix k.writable k.memory address data
  if w.1 = 0 ∧ data ≠ [] then (none, k) else (some w.1, { k with memory := w.2 })

/-- What a read of `len` bytes at `address` can return: the readable bytes from there, when
there are some. -/
def readable (address len : Nat) : Option Bytes :=
  if readPrefix k.memory address len = [] then none else some (readPrefix k.memory address len)

@[simp] theorem memory_openMem : k.openMem.2.memory = k.memory := by
  unfold openMem; split <;> rfl

@[simp] theorem readable_openMem : k.openMem.2.readable = k.readable := by
  funext address len; simp [readable]

@[simp] theorem opened_close (f : MemFile) : (k.close f).opened = k.opened.erase f.fd := rfl

@[simp] theorem memory_close (f : MemFile) : (k.close f).memory = k.memory := rfl

@[simp] theorem writable_close (f : MemFile) : (k.close f).writable = k.writable := rfl

@[simp] theorem access_close (f : MemFile) : (k.close f).access = k.access := rfl

@[simp] theorem nextFile_close (f : MemFile) : (k.close f).nextFile = k.nextFile := rfl

theorem nextFile_not_mem : k.nextFile ∉ k.opened := fun h => by
  have := k.fresh _ h; omega

end MemKernel

/-! ## The calls -/

/-- `Process::read_mem`: seek to `address` (seeking `/proc/<pid>/mem` cannot fail) and read
into `buf`. The bytes read land at the front of `buf`; the count is `0` on any error. -/
def Process.readMem (k : MemKernel) (mem : MemFile) (address : Nat) (buf : Bytes) : Nat × Bytes :=
  match k.pread mem address buf.length with
  | some bytes => (bytes.length, bytes ++ buf.drop bytes.length)
  | none => (0, buf)

/-- The tail of `Process::read`, under the write lock: read through the channel, and return
the front of `buf` that the read filled, `None` when it filled none. -/
def Process.readThrough (mem : Option MemFile) (k : MemKernel) (address : Nat) (buf : Bytes) :
    Option Bytes :=
  mem.bind fun f =>
    let result := Process.readMem k f address buf
    if result.1 > 0 then some (result.2.take result.1) else none

/-- `Process::read`: when there is no channel, open `/proc/<pid>/mem` and keep it (returning
`None` when the open fails); then read through the kept channel. -/
def Process.read (p : Process) (k : MemKernel) (address : Nat) (buf : Bytes) :
    Option Bytes × Process × MemKernel :=
  let cached : Option (Process × MemKernel) :=
    if p.mem.isNone then
      match k.openMem with
      | (some f, k') => some ({ p with mem := some f }, k')
      | (none, _) => none
    else some (p, k)
  match cached with
  | none => (none, p, k)
  | some (p', k') => (Process.readThrough p'.mem k' address buf, p', k')

/-- `Process::write`: open `/proc/<pid>/mem` for writing (`File::create`), seek, write, and
drop the file. -/
def Process.write (_ : Process) (k : MemKernel) (address : Nat) (buf : Bytes) :
    Option Nat × MemKernel :=
  match k.openMem with
  | (none, k') => (none, k')
  | (some f, k') =>
    let written := k'.pwrite f address buf
    (written.1, written.2.close f)

/-- A read through a channel returns the readable bytes from the address, when there are
some. -/
theorem readThrough_some (k : MemKernel) (f : MemFile) (address : Nat) (buf : Bytes) :
    Process.readThrough (some f) k address buf = k.readable address buf.length := by
  simp only [Process.readThrough, Option.bind_some, Process.readMem, MemKernel.pread,
    MemKernel.readable]
  by_cases hb : readPrefix k.memory address buf.length = []
  · by_cases hl : 0 < buf.length <;> simp [hb, hl]
  · have hpos : 0 < (readPrefix k.memory address buf.length).length := List.length_pos.mpr hb
    simp [hb, hpos]

/-- **A read through the kept channel** opens nothing and changes nothing. -/
theorem read_of_cached (p : Process) (k : MemKernel) (f : MemFile) (h : p.mem = some f)
    (address : Nat) (buf : Bytes) :
    p.read k address buf = (k.readable address buf.length, p, k) := by
  simp [Process.read, h, readThrough_some]

/-- **The first read** opens the channel and keeps it, when the debugger may open it. -/
theorem read_of_uncached (p : Process) (k : MemKernel) (h : p.mem = none) (address : Nat)
    (buf : Bytes) :
    p.read k address buf =
      if k.access then
        (k.readable address buf.length, { p with mem := some ⟨k.nextFile⟩ }, k.openMem.2)
      else (none, p, k) := by
  by_cases hk : k.access <;>
    simp [Process.read, h, MemKernel.openMem, hk, readThrough_some, MemKernel.readable]

section Write

variable (p : Process) (k : MemKernel) (address : Nat) (buf : Bytes)

/-- **A write** opens a file and closes it again; with access, it writes the bytes up to the
first one the tracer may not write, and reports how many, `None` when there were none. -/
theorem write_eq :
    (p.write k address buf).1 =
      (if k.access then
        if (writePrefix k.writable k.memory address buf).1 = 0 ∧ buf ≠ [] then none
        else some (writePrefix k.writable k.memory address buf).1
      else none) ∧
    (p.write k address buf).2.memory =
      (if k.access then (writePrefix k.writable k.memory address buf).2 else k.memory) ∧
    (p.write k address buf).2.opened = k.opened ∧
    (p.write k address buf).2.writable = k.writable ∧
    (p.write k address buf).2.access = k.access := by
  by_cases hk : k.access
  · have hfresh := k.nextFile_not_mem
    simp only [Process.write, MemKernel.openMem, hk, if_true, MemKernel.pwrite]
    split_ifs with hw
    · simp [writePrefix_of_fst_eq_zero hw.1, Finset.erase_insert hfresh]
    · simp [Finset.erase_insert hfresh]
  · simp [Process.write, MemKernel.openMem, hk]

@[simp] theorem opened_write : (p.write k address buf).2.opened = k.opened :=
  (write_eq p k address buf).2.2.1

@[simp] theorem writable_write : (p.write k address buf).2.writable = k.writable :=
  (write_eq p k address buf).2.2.2.1

@[simp] theorem access_write : (p.write k address buf).2.access = k.access :=
  (write_eq p k address buf).2.2.2.2

end Write

/-! ## Runs -/

/-- A call on the process: `read(address, buf)` or `write(address, buf)`. -/
inductive Op
  | read (address : Nat) (buf : Bytes)
  | write (address : Nat) (buf : Bytes)
  deriving DecidableEq, Repr

/-- The process and the kernel after one call. -/
def step (s : Process × MemKernel) : Op → Process × MemKernel
  | .read address buf => (s.1.read s.2 address buf).2
  | .write address buf => (s.1, (s.1.write s.2 address buf).2)

/-- The process and the kernel after a sequence of calls. -/
def run (s : Process × MemKernel) (ops : List Op) : Process × MemKernel := ops.foldl step s

@[simp] theorem run_nil (s : Process × MemKernel) : run s [] = s := rfl

@[simp] theorem run_cons (s : Process × MemKernel) (op : Op) (ops : List Op) :
    run s (op :: ops) = run (step s op) ops := rfl

/-- A target with sixteen readable and writable zero bytes at `0x1000`, and a debugger that
may open its memory and already has files `0` to `2` open. -/
def sampleKernel : MemKernel where
  memory a := if 0x1000 ≤ a ∧ a < 0x1010 then some 0 else none
  writable a := decide (0x1000 ≤ a ∧ a < 0x1010)
  access := true
  opened := {0, 1, 2}
  nextFile := 3
  fresh := by decide

/-- The file the process keeps open, as a set. -/
def Process.cachedFile (p : Process) : Finset Nat :=
  match p.mem with
  | some f => {f.fd}
  | none => ∅

/-- One call keeps the open files those of `k₀` and the kept channel. -/
theorem opened_step (k₀ : MemKernel) (s : Process × MemKernel)
    (hs : s.2.opened = k₀.opened ∪ s.1.cachedFile) (op : Op) :
    (step s op).2.opened = k₀.opened ∪ (step s op).1.cachedFile := by
  obtain ⟨p, k⟩ := s
  cases op with
  | write => simpa [step] using hs
  | read address buf =>
    cases hm : p.mem with
    | some f => simpa [step, read_of_cached p k f hm] using hs
    | none =>
      simp only [Process.cachedFile, hm] at hs
      by_cases hk : k.access
      · simp [step, read_of_uncached p k hm, hk, Process.cachedFile, MemKernel.openMem, hs,
          Finset.insert_eq, Finset.union_comm]
      · simpa [step, read_of_uncached p k hm, hk, Process.cachedFile, hm] using hs

/-- **No file is leaked.** A run of reads and writes from a process without a channel leaves
open the files that were open before it and, at most, the one channel the process keeps: every
file a write opens is closed, and reads open the channel at most once. -/
theorem opened_run (p : Process) (k : MemKernel) (h : p.mem = none) (ops : List Op) :
    (run (p, k) ops).2.opened = k.opened ∪ (run (p, k) ops).1.cachedFile := by
  suffices ∀ s : Process × MemKernel, s.2.opened = k.opened ∪ s.1.cachedFile →
      (run s ops).2.opened = k.opened ∪ (run s ops).1.cachedFile from
    this (p, k) (by simp [Process.cachedFile, h])
  induction ops with
  | nil => exact fun s hs => hs
  | cons op ops ih => exact fun s hs => ih _ (opened_step k s hs op)

theorem opened_run_sampleKernel :
    (run (⟨0, none⟩, sampleKernel)
        [.read 0x1000 [0, 0], .write 0x1004 [1], .read 0x2000 [0]]).2.opened =
      sampleKernel.opened ∪
        (run (⟨0, none⟩, sampleKernel)
          [.read 0x1000 [0, 0], .write 0x1004 [1], .read 0x2000 [0]]).1.cachedFile :=
  opened_run ⟨0, none⟩ sampleKernel rfl _

end Udbg.Nix
