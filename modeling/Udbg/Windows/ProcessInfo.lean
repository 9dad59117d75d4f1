import Udbg.Windows.ToolHelp
import Udbg.Windows.PeReader
import Udbg.Windows.CreateProcess

/-!
# Processes, threads and modules

`ProcessInfo::enumerate` (`src/os/windows/mod.rs`) maps the process snapshot of
`enum_process` to `ProcessInfo` records. Each record takes its pid and name from the snapshot
entry; the closure then opens the process for querying and, when that succeeds, fills in
whether it runs under WOW64, its image path and its command line, each best-effort. A process
that cannot be opened is not skipped: its record keeps `wow64 = false` and an empty path and
command line.

`Process::get_module_list` calls `EnumProcessModulesEx` twice: once to learn the size of the
list, in bytes, and once to fill a buffer. It allocates as many entries as the list has bytes
and passes that count where the call expects bytes, so the buffer holds eight times the
entries the call may fill; the zero entries it leaves are dropped by the filter on `m > 0`.

`Process::enum_thread` filters a thread snapshot to the threads whose owner is the process.
`get_thread_context` suspends a thread, reads its context and resumes it, and ignores whether
the suspension succeeded: `SuspendThread` fails on a thread whose suspend count is at
`MAXIMUM_SUSPEND_COUNT`, and the `ResumeThread` that follows then lowers the count.

`Process::from_name` takes the first entry of a new process snapshot whose name equals the
one asked for, ignoring ASCII case, drops the snapshot, and opens that pid with
`Process::open`, which keeps the handle only when `GetProcessId` answers for it.

## Main definitions

* `ProcessEntry`, `ProcessView`, `ProcessInfo`
* `ProcessInfo.ofEntry`: the closure; `ProcessInfo.next`: the mapped iterator's `next`
* `ThreadEntry`, `enumThread`, `Process.enumThread`
* `ThreadState`, `getThreadContext`
* `enumProcessModulesEx`, `Process.getModuleList`
* `Process.open_`, `eqIgnoreAsciiCase`, `Process.fromName`

## Main results

* `ofEntry_eq`: a record carries its entry's pid and name, and a process that does not open
  keeps the defaults
* `enumerate_yields`: the first `2^32` calls yield one record per snapshot entry, in order,
  then nothing, whether or not the process opens
* `enumThread_yields`: `Process::enum_thread` yields the threads of the snapshot that the
  process owns, in order, then nothing
* `getThreadContext_suspendCount`: `get_thread_context` restores the suspend count of every
  thread but one at the maximum, which comes back one lower
* `getModuleList_eq`: the module list comes back as the second call reports it, cut to the
  length the first call reported; so a list that does not change comes back exactly
* `fromName_eq`: `from_name` fails with `"name not found"` exactly when no process of the
  snapshot has the name, and otherwise opens the first one that has it
* `fromName_opened`: `from_name` leaks neither the snapshot handle nor a process handle
-/

namespace Udbg.Windows

/-- The fields of `PROCESSENTRY32W` the records use: the pid and the image name, as UTF-16
units (their decoding to UTF-8 is left out). -/
structure ProcessEntry where
  th32ProcessID : UInt32
  szExeFile : List UInt16
  deriving DecidableEq, Repr

/-- What the debugger sees of a process it opens for `PROCESS_QUERY_INFORMATION |
PROCESS_VM_READ`: the answer of `IsWow64Process`, the path `QueryFullProcessImageNameW`
returns (none when it fails), the memory `ReadProcessMemory` reads, and the PEB base that
`basic_information` reports. -/
structure ProcessView where
  wow64 : Bool
  imagePath : Option (List UInt16)
  memory : Memory
  peb : Option Nat

/-- `ProcessInfo`, its strings as UTF-16 units. -/
structure ProcessInfo where
  pid : UInt32
  name : List UInt16
  wow64 : Bool
  path : List UInt16
  cmdline : List UInt16
  deriving DecidableEq, Repr

/-- The closure of `ProcessInfo::enumerate`, given what `Process::open` gives for each pid: the
record from the entry, with the fields that need the process filled when it opens. -/
def ProcessInfo.ofEntry (open_ : UInt32 → Option ProcessView) (p : ProcessEntry) : ProcessInfo :=
  let result : ProcessInfo := ⟨p.th32ProcessID, p.szExeFile, false, [], []⟩
  match open_ p.th32ProcessID with
  | some q =>
    { result with
      wow64 := q.wow64
      path := q.imagePath.getD result.path
      cmdline := (Process.cmdline q.memory q.peb).getD result.cmdline }
  | none => result

/-- `enum_process`: a toolhelp iterator over a process snapshot, its buffer zeroed. -/
def enumProcess (snapshot : Nat) : ToolHelperIter ProcessEntry := .new snapshot ⟨0, []⟩

/-- `next` of the iterator `ProcessInfo::enumerate` returns: the closure applied to the
entry the toolhelp iterator yields. -/
def ProcessInfo.next (open_ : UInt32 → Option ProcessView) (it : ToolHelperIter ProcessEntry)
    (s : Snapshot ProcessEntry) :
    Option ProcessInfo × ToolHelperIter ProcessEntry × Snapshot ProcessEntry :=
  let r := it.next s
  (r.1.map (ProcessInfo.ofEntry open_), r.2)

/-- Every record carries its entry's pid and name; a process that does not open keeps the
defaults. -/
theorem ofEntry_eq (open_ : UInt32 → Option ProcessView) (p : ProcessEntry) :
    (ProcessInfo.ofEntry open_ p).pid = p.th32ProcessID ∧
      (ProcessInfo.ofEntry open_ p).name = p.szExeFile ∧
      (open_ p.th32ProcessID = none →
        ProcessInfo.ofEntry open_ p = ⟨p.th32ProcessID, p.szExeFile, false, [], []⟩) := by
  unfold ProcessInfo.ofEntry
  split <;> simp_all

/-- **Enumeration yields every process of the snapshot.** For every `k < 2^32`, call `k` of
the iterator `ProcessInfo::enumerate` returns yields the record of entry `k` of the snapshot,
and nothing past the last. The record has the entry's pid and name, and a process that
cannot be opened is not skipped: its record keeps the defaults, `wow64 = false` and an empty
path and command line. -/
theorem enumerate_yields (open_ : UInt32 → Option ProcessView) (snapshot : Nat)
    (es : List ProcessEntry) (k : Nat) (hk : k < 2 ^ 32) :
    (ProcessInfo.next open_ (ToolHelperIter.advance k (enumProcess snapshot, ⟨es, 0⟩)).1
        (ToolHelperIter.advance k (enumProcess snapshot, ⟨es, 0⟩)).2).1 =
      es[k]?.map (ProcessInfo.ofEntry open_) ∧
    ∀ e ∈ es[k]?, (ProcessInfo.ofEntry open_ e).pid = e.th32ProcessID ∧
      (ProcessInfo.ofEntry open_ e).name = e.szExeFile ∧
      (open_ e.th32ProcessID = none →
        ProcessInfo.ofEntry open_ e = ⟨e.th32ProcessID, e.szExeFile, false, [], []⟩) := by
  refine ⟨?_, fun e _ => ofEntry_eq open_ e⟩
  rw [ProcessInfo.next, enumProcess, ToolHelperIter.next_advance _ _ _ _ hk]

theorem enumerate_yields_two :
    (ProcessInfo.next (fun _ => none)
        (ToolHelperIter.advance 1 (enumProcess 8, ⟨[⟨4, []⟩, ⟨96, []⟩], 0⟩)).1
        (ToolHelperIter.advance 1 (enumProcess 8, ⟨[⟨4, []⟩, ⟨96, []⟩], 0⟩)).2).1 =
      some ⟨96, [], false, [], []⟩ :=
  (enumerate_yields _ 8 _ 1 (by decide)).1

/-! ## Threads of a process -/

/-- The fields of `THREADENTRY32` that `ThreadInfo` reads. -/
structure ThreadEntry where
  th32ThreadID : UInt32
  th32OwnerProcessID : UInt32
  deriving DecidableEq, Repr

/-- `ThreadInfo::pid`: the owner. -/
def ThreadEntry.pid (x : ThreadEntry) : UInt32 := x.th32OwnerProcessID

/-- `enum_thread`: a toolhelp iterator over a thread snapshot, its buffer zeroed. -/
def enumThread (snapshot : Nat) : ToolHelperIter ThreadEntry := .new snapshot ⟨0, 0⟩

/-- `Process::enum_thread`, for the pid `GetProcessId` answers: `enum_thread` and the filter
`x.pid() == pid`; the `Filter`'s `next` is `ToolHelperIter.filterNext` of the filter. -/
def Process.enumThread (pid : UInt32) (snapshot : Nat) :
    (ThreadEntry → Bool) × ToolHelperIter ThreadEntry :=
  (fun x => x.pid == pid, Udbg.Windows.enumThread snapshot)

/-- **`enum_thread` of a process yields its threads.** On a snapshot of fewer than `2^32 - j`
threads, given more calls than threads, call `j` of the iterator `Process::enum_thread`
returns yields thread `j` of those of the snapshot that the process owns, in snapshot order,
and nothing once they are exhausted. -/
theorem enumThread_yields (pid : UInt32) (snapshot : Nat) (es : List ThreadEntry) (fuel j : Nat)
    (hes : es.length + j < 2 ^ 32) (hfuel : es.length < fuel) :
    (ToolHelperIter.filterNext (Process.enumThread pid snapshot).1 fuel
      (ToolHelperIter.filterAdvance (Process.enumThread pid snapshot).1 fuel j
        ((Process.enumThread pid snapshot).2, ⟨es, 0⟩))).1 =
      (es.filter fun x => x.th32OwnerProcessID == pid)[j]? :=
  ToolHelperIter.filterNext_filterAdvance (fun x => x.pid == pid) snapshot ⟨0, 0⟩ es fuel j 0
    hes (by omega) (by omega)

/-- Two threads of process `8` around one of process `4`: the second call yields the second
thread of process `8`. -/
def threadSnapshot : List ThreadEntry := [⟨12, 8⟩, ⟨16, 4⟩, ⟨20, 8⟩]

theorem enumThread_yields_second :
    (ToolHelperIter.filterNext (Process.enumThread 8 0).1 4
      (ToolHelperIter.filterAdvance (Process.enumThread 8 0).1 4 1
        ((Process.enumThread 8 0).2, ⟨threadSnapshot, 0⟩))).1 = some ⟨20, 8⟩ :=
  (enumThread_yields 8 0 threadSnapshot 4 1 (by decide) (by decide)).trans rfl

/-! ## Thread contexts -/

/-- `MAXIMUM_SUSPEND_COUNT`. -/
def MAXIMUM_SUSPEND_COUNT : Nat := 0x7f

/-- A thread as the kernel keeps it: its suspend count, never above `MAXIMUM_SUSPEND_COUNT`. -/
structure ThreadState where
  suspendCount : Nat
  bounded : suspendCount ≤ MAXIMUM_SUSPEND_COUNT

/-- `SuspendThread`, as documented: the previous count, and the count one higher; it fails
(`-1`) and changes nothing when the handle lacks the access or the count is at its maximum. -/
def ThreadState.suspendThread (s : ThreadState) (access : Bool) : Option Nat × ThreadState :=
  if h : access = true ∧ s.suspendCount < MAXIMUM_SUSPEND_COUNT then
    (some s.suspendCount, ⟨s.suspendCount + 1, h.2⟩)
  else (none, s)

/-- `ResumeThread`, as documented: the previous count, and the count one lower when it is
positive; it fails and changes nothing when the handle lacks the access. -/
def ThreadState.resumeThread (s : ThreadState) (access : Bool) : Option Nat × ThreadState :=
  if access then (some s.suspendCount, ⟨s.suspendCount - 1, by have := s.bounded; omega⟩)
  else (none, s)

/-- `get_thread_context`, for the access of the handle `open_thread` returns (`false` when it
fails) and the answer of `GetThreadContext`: suspend, read the context, resume; only the read's
result is looked at. -/
def getThreadContext (s : ThreadState) (access getContext : Bool) : Bool × ThreadState :=
  let (_, s1) := s.suspendThread access
  let r := access && getContext
  let (_, s2) := s1.resumeThread access
  (r, s2)

/-- **`get_thread_context` restores the suspend count, except at the maximum.** The call
leaves the thread's suspend count as it found it, unless the handle has the access and the
count is at `MAXIMUM_SUSPEND_COUNT`: then `SuspendThread` fails unnoticed, and the thread comes
back with one suspension less. -/
theorem getThreadContext_suspendCount (s : ThreadState) (access getContext : Bool) :
    (getThreadContext s access getContext).2.suspendCount =
      if access = true ∧ s.suspendCount = MAXIMUM_SUSPEND_COUNT then s.suspendCount - 1
      else s.suspendCount := by
  have := s.bounded
  unfold getThreadContext ThreadState.suspendThread ThreadState.resumeThread
  cases access
  · simp
  · by_cases hlt : s.suspendCount < MAXIMUM_SUSPEND_COUNT
    · simp [hlt, Nat.ne_of_lt hlt]
    · simp [hlt, show s.suspendCount = MAXIMUM_SUSPEND_COUNT by omega]

/-! ## Module lists -/

/-- `EnumProcessModulesEx(handle, buffer, cb, &needed, flag)`, as documented, for a process
whose module handles are `mods` at the time of the call (`none` when the call fails): it
writes the first `cb / 8` handles at the front of the buffer and reports the bytes the whole
list takes; on failure it writes nothing and leaves `needed` as it was. -/
def enumProcessModulesEx (mods : Option (List Nat)) (buffer : List Nat) (cb : Nat) :
    Bool × List Nat × Option Nat :=
  match mods with
  | some mods =>
    let written := mods.take (cb / 8)
    (true, written ++ buffer.drop written.length, some (8 * mods.length))
  | none => (false, buffer, none)

/-- `Process::get_module_list`, for the module lists the two calls see: the size from the
first call (`len` stays `0` when it fails), a buffer of `len` zero entries, and the second
call with `len` as its byte count. -/
def Process.getModuleList (first second : Option (List Nat)) : Option (List Nat) :=
  let len := (enumProcessModulesEx first [] 0).2.2.getD 0
  let result := List.replicate len 0
  if len > 0 then
    let r := enumProcessModulesEx second result result.length
    if r.1 then some (r.2.1.filter fun m => m > 0) else none
  else none

/-- When both calls succeed and the first list is not empty, the second list cut to the
length of the first, zero handles dropped. -/
theorem getModuleList_some (m₁ m₂ : List Nat) (h : m₁ ≠ []) :
    Process.getModuleList (some m₁) (some m₂) =
      some ((m₂.take m₁.length).filter fun m => m > 0) := by
  have hpos : 0 < m₁.length := List.length_pos.mpr h
  simp only [Process.getModuleList, enumProcessModulesEx, Option.getD_some, List.length_replicate,
    Nat.mul_div_cancel_left _ (by decide : 0 < 8)]
  rw [if_pos (by omega), if_pos trivial, List.filter_append, List.drop_replicate]
  have hzero : ∀ l : List Nat, (∀ m ∈ l, m = 0) → (l.filter fun m => m > 0) = [] :=
    fun l hl => by simpa [List.filter_eq_nil_iff] using hl
  rw [hzero _ fun m hm => List.eq_of_mem_replicate hm, List.append_nil]

/-- A list of module handles, none of them null, that does not change between the two calls
comes back exactly. -/
theorem getModuleList_stable (mods : List Nat) (hne : mods ≠ []) (hpos : ∀ m ∈ mods, 0 < m) :
    Process.getModuleList (some mods) (some mods) = some mods := by
  rw [getModuleList_some mods mods hne, List.take_length,
    List.filter_eq_self.mpr (by simpa using hpos)]

/-- **What `get_module_list` returns.** When both calls succeed and the first reports a
non-empty list, the handles the second call reports, cut to the length of the first list,
with any zero handle dropped; otherwise `None`. So a non-empty list of non-null handles that
does not change between the calls comes back exactly. -/
theorem getModuleList_eq :
    (∀ first second : Option (List Nat), Process.getModuleList first second =
      match first, second with
      | some m₁, some m₂ =>
        if m₁ = [] then none else some ((m₂.take m₁.length).filter fun m => m > 0)
      | _, _ => none) ∧
    ∀ mods : List Nat, mods ≠ [] → (∀ m ∈ mods, 0 < m) →
      Process.getModuleList (some mods) (some mods) = some mods := by
  refine ⟨fun first second => ?_, getModuleList_stable⟩
  rcases first with _ | m₁
  · simp [Process.getModuleList, enumProcessModulesEx]
  · rcases second with _ | m₂
    · cases m₁ <;> simp [Process.getModuleList, enumProcessModulesEx]
    · by_cases h : m₁ = []
      · simp [Process.getModuleList, enumProcessModulesEx, h]
      · rw [getModuleList_some m₁ m₂ h]
        simp [h]

theorem getModuleList_eq_two :
    Process.getModuleList (some [0x7ff0000, 0x7ff8000]) (some [0x7ff0000, 0x7ff8000]) =
      some [0x7ff0000, 0x7ff8000] :=
  getModuleList_eq.2 _ (by decide) (by decide)

/-! ## Opening a process by name -/

/-- `PROCESS_ALL_ACCESS`. -/
def PROCESS_ALL_ACCESS : UInt32 := 0x1fffff

/-- `Process::open`: `OpenProcess` asks for `access`, `PROCESS_ALL_ACCESS` by default, and
opens a new handle when the kernel grants it (`grant pid access`); `from_handle` then keeps
it, given what `GetProcessId` answers for it. -/
def Process.open_ (t : HandleTable) (grant : UInt32 → UInt32 → Bool) (pid : UInt32)
    (access : Option UInt32) (processId : Nat) : Option Process × HandleTable :=
  if grant pid (access.getD PROCESS_ALL_ACCESS) then
    Process.fromHandle t.alloc.2 ⟨t.alloc.1⟩ processId
  else (none, t)

/-- `str::eq_ignore_ascii_case`: equal once ASCII letters are lowered. Comparing characters
compares the UTF-8 bytes the source compares, since lowering changes only ASCII bytes. -/
def eqIgnoreAsciiCase (a b : String) : Bool :=
  a.toList.map Char.toLower == b.toList.map Char.toLower

/-- `Process::from_name`, for the entries of the snapshot that `CreateToolhelp32Snapshot`
opens (its handle is dropped with the iterator at the end of the first statement), the
decoding of names (`to_utf8`), and the kernel's answers to `OpenProcess` and `GetProcessId`:
the first process named `name`, ignoring ASCII case, opened; `"name not found"` when there is
none. -/
def Process.fromName (t : HandleTable) (es : List ProcessEntry) (decode : List UInt16 → String)
    (fuel : Nat) (name : String) (access : Option UInt32) (grant : UInt32 → UInt32 → Bool)
    (processId : Nat) : Except UDbgError Process × HandleTable :=
  let (snapshot, t1) := t.alloc
  let found := ToolHelperIter.filterNext (fun p => eqIgnoreAsciiCase (decode p.szExeFile) name)
    fuel (enumProcess snapshot, ⟨es, 0⟩)
  let t2 := Handle.drop t1 ⟨snapshot⟩
  match found.1 with
  | none => (.error (.text "name not found"), t2)
  | some p =>
    match Process.open_ t2 grant p.th32ProcessID access processId with
    | (some q, t3) => (.ok q, t3)
    | (none, t3) => (.error .system, t3)

section Open

variable (t : HandleTable) (grant : UInt32 → UInt32 → Bool) (pid : UInt32)
  (access : Option UInt32) (processId : Nat)

/-- `open` returns the handle it opened, when the kernel grants the access and
`GetProcessId` answers. -/
theorem open_eq : (Process.open_ t grant pid access processId).1 =
    if grant pid (access.getD PROCESS_ALL_ACCESS) = true ∧ processId ≠ 0 then
      some ⟨⟨t.next⟩⟩
    else none := by
  unfold Process.open_ Process.fromHandle
  by_cases hg : grant pid (access.getD PROCESS_ALL_ACCESS) = true <;>
    by_cases hp : processId = 0 <;> simp [hg, hp]

/-- The handles open after `open` are those open before and the handle of the process it
returns. -/
theorem open_opened : (Process.open_ t grant pid access processId).2.opened =
    t.opened ∪
      (Process.open_ t grant pid access processId).1.elim ∅ fun q => {q.handle.raw} := by
  unfold Process.open_ Process.fromHandle
  by_cases hg : grant pid (access.getD PROCESS_ALL_ACCESS) = true
  · by_cases hp : processId = 0
    · simp [hg, hp, Handle.drop, Finset.erase_insert t.next_not_mem]
    · simp [hg, hp, Finset.insert_eq, Finset.union_comm]
  · simp [hg]

end Open

section FromName

variable (t : HandleTable) (es : List ProcessEntry) (decode : List UInt16 → String) (fuel : Nat)
  (name : String) (access : Option UInt32) (grant : UInt32 → UInt32 → Bool) (processId : Nat)

/-- **`from_name` opens the first process of that name.** On a snapshot of fewer than `2^32`
processes, given more calls than it has entries, `from_name` fails with `"name not found"`
exactly when no process of the snapshot is named `name`, ignoring ASCII case; otherwise it
opens the first one that is, and returns it when the kernel grants the access asked for and
`GetProcessId` answers. -/
theorem fromName_eq (hes : es.length < 2 ^ 32) (hfuel : es.length < fuel) :
    (Process.fromName t es decode fuel name access grant processId).1 =
      match es.find? (fun p => eqIgnoreAsciiCase (decode p.szExeFile) name) with
      | none => .error (.text "name not found")
      | some p =>
        if grant p.th32ProcessID (access.getD PROCESS_ALL_ACCESS) = true ∧ processId ≠ 0 then
          .ok ⟨⟨t.next + 4⟩⟩
        else .error .system := by
  have hfind := congrArg Prod.fst (ToolHelperIter.filterNext_advance_eq
    (fun p => eqIgnoreAsciiCase (decode p.szExeFile) name) t.next ⟨0, []⟩ es hes 0 fuel
    (by omega) (by omega))
  simp only [ToolHelperIter.advance, List.drop_zero] at hfind
  simp only [Process.fromName, enumProcess, HandleTable.fst_alloc]
  rw [hfind]
  split
  · rfl
  · rename_i p _
    have hopen :=
      open_eq (Handle.drop t.alloc.2 ⟨t.next⟩) grant p.th32ProcessID access processId
    rcases hr : Process.open_ (Handle.drop t.alloc.2 ⟨t.next⟩) grant p.th32ProcessID access
      processId with ⟨_ | q, t3⟩ <;> rw [hr] at hopen <;> dsimp only at hopen ⊢ <;>
      split_ifs at hopen ⊢ <;> cases hopen <;> rfl

/-- Names decoded unit by unit, as for ASCII names. -/
def decodeAscii (u : List UInt16) : String := String.mk (u.map fun c => Char.ofNat c.toNat)

/-- A snapshot of `System` and `notepad.exe`. -/
def notepadSnapshot : List ProcessEntry :=
  [⟨4, [0x53, 0x79, 0x73, 0x74, 0x65, 0x6d]⟩,
   ⟨96, [0x6e, 0x6f, 0x74, 0x65, 0x70, 0x61, 0x64, 0x2e, 0x65, 0x78, 0x65]⟩]

theorem fromName_eq_notepad :
    (Process.fromName oneHandle notepadSnapshot decodeAscii 3 "NOTEPAD.EXE" none
      (fun _ _ => true) 96).1 = .ok ⟨⟨12⟩⟩ :=
  (fromName_eq oneHandle notepadSnapshot decodeAscii 3 "NOTEPAD.EXE" none (fun _ _ => true) 96
    (by decide) (by decide)).trans rfl

/-- **`from_name` leaks no handle**: it closes the snapshot, and `from_handle` closes the
process handle when `GetProcessId` fails, so the handles open after the call are those open
before and the handle of the process it returns. -/
theorem fromName_opened :
    (Process.fromName t es decode fuel name access grant processId).2.opened =
      t.opened ∪ match (Process.fromName t es decode fuel name access grant processId).1 with
        | .ok q => {q.handle.raw}
        | .error _ => ∅ := by
  have hclose : (Handle.drop t.alloc.2 ⟨t.next⟩).opened = t.opened := t.close_alloc
  simp only [Process.fromName, HandleTable.fst_alloc]
  split
  · simp [hclose]
  · rename_i p _
    have hopen := open_opened (Handle.drop t.alloc.2 ⟨t.next⟩) grant p.th32ProcessID access
      processId
    rcases hr : Process.open_ (Handle.drop t.alloc.2 ⟨t.next⟩) grant p.th32ProcessID access
      processId with ⟨_ | q, t3⟩ <;> rw [hr, hclose] at hopen <;> simpa using hopen

end FromName

end Udbg.Windows
