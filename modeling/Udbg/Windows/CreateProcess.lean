import Udbg.Windows.CommandLine
import Udbg.Windows.Handle

/-!
# Launching a debuggee

`create_debug_process` (`src/os/windows/mod.rs`) builds the command line, and, when a parent
pid is given, opens that process with `OpenProcess` and sets it as the child's parent through
a process-thread attribute list, then calls `CreateProcessW` and wraps the child's process
handle with `Process::from_handle`. The child's handles are handed to the caller: the process
handle to the returned `Process` (or closed by `from_handle` when `GetProcessId` fails), the
thread handle left in `pi`. The parent handle is a raw `HANDLE`, not a `Handle`: nothing
closes it, on the early return after a failed `UpdateProcThreadAttribute`, after a failed
`CreateProcessW`, or on success.

`CreateProcessW` with `DEBUG_PROCESS` first connects the calling thread to the debugger
(`DbgUiConnectToDbg`). On the thread's first launch this creates a debug object, whose handle
the thread keeps in its TEB for every later launch: it is opened in the debugger, not handed
to the caller, and never closed.

## Main definitions

* `CreateOutcome`: the answers of the kernel to the calls made
* `dbgUiConnectToDbg`: the thread's debug object, made on its first launch
* `procThreadAttributeValue`: the packing of a process-thread attribute number
* `Process.fromHandle`, `createDebugProcess`

## Main results

* `createDebugProcess_none_opened`: without a parent pid, the handles open after the call are
  those open before, those handed to the caller, and on the thread's first launch its debug
  object, which is not handed to the caller
* `createDebugProcess_leaks_parent`: with one, the parent handle stays open on every path
  after `OpenProcess` succeeds, and is not handed to the caller
* `procThreadAttributeValue_decode`: the packing keeps the number's low 16 bits and each
  flag in a bit of its own, so it can be decoded
-/

namespace Udbg.Windows

/-- The errors the call returns: a message, or the last OS error (`UDbgError::system()`). -/
inductive UDbgError
  | text (s : String)
  | system
  deriving DecidableEq, Repr

/-- `Process`: an owned process handle. -/
structure Process where
  handle : Handle
  deriving DecidableEq, Repr

/-- The fields of `PROCESS_INFORMATION` the call sets. -/
structure ProcessInformation where
  hProcess : Nat
  hThread : Nat
  deriving DecidableEq, Repr

/-- What the kernel answers: whether `OpenProcess` of the parent, `UpdateProcThreadAttribute`
and `CreateProcessW` succeed, whether a `CreateProcessW` that fails had already connected the
thread to the debugger (one that succeeds always has), and what `GetProcessId` returns for
the child (`0` when it fails). -/
structure CreateOutcome where
  openParent : Bool
  updateAttribute : Bool
  createProcess : Bool
  connectsDebugger : Bool
  processId : Nat
  deriving DecidableEq, Repr

/-! ## Process-thread attributes -/

/-- `PROC_THREAD_ATTRIBUTE_NUMBER`. -/
def PROC_THREAD_ATTRIBUTE_NUMBER : Nat := 0x0000FFFF

/-- `PROC_THREAD_ATTRIBUTE_THREAD`. -/
def PROC_THREAD_ATTRIBUTE_THREAD : Nat := 0x00010000

/-- `PROC_THREAD_ATTRIBUTE_INPUT`. -/
def PROC_THREAD_ATTRIBUTE_INPUT : Nat := 0x00020000

/-- `PROC_THREAD_ATTRIBUTE_ADDITIVE`. -/
def PROC_THREAD_ATTRIBUTE_ADDITIVE : Nat := 0x00040000

/-- `ProcThreadAttributeValue`, on `usize` (no value it builds reaches `2^19`). -/
def procThreadAttributeValue (number thread input additive : Nat) : Nat :=
  (number &&& PROC_THREAD_ATTRIBUTE_NUMBER) |||
    (if thread ≠ 0 then PROC_THREAD_ATTRIBUTE_THREAD else 0) |||
    (if input ≠ 0 then PROC_THREAD_ATTRIBUTE_INPUT else 0) |||
    (if additive ≠ 0 then PROC_THREAD_ATTRIBUTE_ADDITIVE else 0)

/-- `PROC_THREAD_ATTRIBUTE_PARENT_PROCESS` as `create_debug_process` builds it, from
`ProcThreadAttributeParentProcess = 0` and the input flag. -/
def PROC_THREAD_ATTRIBUTE_PARENT_PROCESS : Nat := procThreadAttributeValue 0 0 1 0

/-- Setting a flag at bit `k` of a value below `2^k` adds it. -/
theorem or_flag_eq_add {x : Nat} (k : Nat) (hx : x < 2 ^ k) (b : Prop) [Decidable b] :
    (x ||| if b then 2 ^ k else 0) = x + if b then 2 ^ k else 0 := by
  split
  · rw [Nat.or_comm, ← Nat.mul_one (2 ^ k), ← Nat.mul_add_lt_is_or hx, Nat.add_comm]
  · rw [Nat.or_zero, Nat.add_zero]

/-- The packed value is the sum of its fields, each in bits of its own. -/
theorem procThreadAttributeValue_eq (number thread input additive : Nat) :
    procThreadAttributeValue number thread input additive =
      number % 2 ^ 16 + (if thread ≠ 0 then 2 ^ 16 else 0) + (if input ≠ 0 then 2 ^ 17 else 0) +
        (if additive ≠ 0 then 2 ^ 18 else 0) := by
  have hlow := Nat.mod_lt number (Nat.two_pow_pos 16)
  rw [procThreadAttributeValue, show PROC_THREAD_ATTRIBUTE_NUMBER = 2 ^ 16 - 1 from rfl,
    Nat.and_pow_two_sub_one_eq_mod, show PROC_THREAD_ATTRIBUTE_THREAD = 2 ^ 16 from rfl,
    show PROC_THREAD_ATTRIBUTE_INPUT = 2 ^ 17 from rfl,
    show PROC_THREAD_ATTRIBUTE_ADDITIVE = 2 ^ 18 from rfl, or_flag_eq_add 16 hlow,
    or_flag_eq_add 17 ?_, or_flag_eq_add 18 ?_] <;> split_ifs <;> omega

/-- **The packing decodes.** The value keeps the low 16 bits of the number, and one bit for
each flag, set exactly when the flag is not `0`; it stays below `2^19`. -/
theorem procThreadAttributeValue_decode (number thread input additive : Nat) :
    procThreadAttributeValue number thread input additive % 2 ^ 16 = number % 2 ^ 16 ∧
      (procThreadAttributeValue number thread input additive / 2 ^ 16 % 2 = 1 ↔ thread ≠ 0) ∧
      (procThreadAttributeValue number thread input additive / 2 ^ 17 % 2 = 1 ↔ input ≠ 0) ∧
      (procThreadAttributeValue number thread input additive / 2 ^ 18 % 2 = 1 ↔
        additive ≠ 0) ∧
      procThreadAttributeValue number thread input additive < 2 ^ 19 := by
  rw [procThreadAttributeValue_eq]
  have := Nat.mod_lt number (Nat.two_pow_pos 16)
  split_ifs <;> omega

/-- The parent-process attribute is `0x20000`, the value of the SDK's
`PROC_THREAD_ATTRIBUTE_PARENT_PROCESS`. -/
example : PROC_THREAD_ATTRIBUTE_PARENT_PROCESS = 0x20000 := by decide

/-- `Process::from_handle`: the process when `GetProcessId` is not `0`; otherwise the handle
is dropped, which closes it. -/
def Process.fromHandle (t : HandleTable) (handle : Handle) (pid : Nat) :
    Option Process × HandleTable :=
  if pid = 0 then (none, handle.drop t) else (some ⟨handle⟩, t)

/-- `DbgUiConnectToDbg`, which `CreateProcessW` calls when it is asked to debug the child. The
calling thread keeps its debug object in its TEB (`DbgSsReserved[1]`): on the thread's first
call `NtCreateDebugObject` opens it into a new handle, which nothing closes, and later calls
find it there. Returns the thread's debug object and the handle table after. -/
def dbgUiConnectToDbg (t : HandleTable) : Option Nat → Option Nat × HandleTable
  | some d => (some d, t)
  | none => (some t.alloc.1, t.alloc.2)

/-- The child's creation and what follows: the kernel opens the child's process and thread
handles into `pi`, and `from_handle` takes the process handle; `last_error()?` turns its
`None` into the OS error. -/
def wrapChild (t : HandleTable) (processId : Nat) :
    Except UDbgError Process × ProcessInformation × HandleTable :=
  let (hProcess, t1) := t.alloc
  let (hThread, t2) := t1.alloc
  let pi' : ProcessInformation := ⟨hProcess, hThread⟩
  match Process.fromHandle t2 ⟨pi'.hProcess⟩ processId with
  | (some p, t3) => (.ok p, pi', t3)
  | (none, t3) => (.error .system, pi', t3)

/-- From `CreateProcessW` on, for a thread whose debug object is `debugObject`: the thread is
connected to the debugger, then the child is created and wrapped; a failed call leaves `pi`
as it was, and had connected the thread when it failed late enough. -/
def createAndWrap (t : HandleTable) (debugObject : Option Nat) (pi : ProcessInformation)
    (o : CreateOutcome) : Except UDbgError Process × ProcessInformation × HandleTable :=
  if o.createProcess then wrapChild (dbgUiConnectToDbg t debugObject).2 o.processId
  else (.error .system, pi, if o.connectsDebugger then (dbgUiConnectToDbg t debugObject).2 else t)

/-- `create_debug_process`, from a thread whose debug object is `debugObject`. With a parent
pid, `OpenProcess` opens the parent (`?` returns when it fails), and a failed
`UpdateProcThreadAttribute` returns early; the parent handle is closed on no path. The
attribute list and the command line own no kernel handle. -/
def createDebugProcess (t : HandleTable) (debugObject : Option Nat) (path : List Char)
    (args : List (List Char)) (pi : ProcessInformation) (ppid : Option Nat) (o : CreateOutcome) :
    Except UDbgError Process × ProcessInformation × HandleTable :=
  let _cmdline := lpCommandLine (debugCommandLine path args)
  match ppid with
  | some _ =>
    if o.openParent then
      let (_parent, t1) := t.alloc
      if o.updateAttribute then createAndWrap t1 debugObject pi o
      else (.error (.text "set ppid falied"), pi, t1)
    else (.error (.text "ppid open failed"), pi, t)
  | none => createAndWrap t debugObject pi o

/-! ## The handles after the call -/

/-- What a call returns: the result, `pi`, and the handle table after. -/
abbrev CallResult := Except UDbgError Process × ProcessInformation × HandleTable

/-- The handles a call hands to its caller: the process handle of the returned `Process`, and
the thread handle in `pi` when the child was created. -/
def handed (c : CallResult) (created : Bool) : Finset Nat :=
  (match c.1 with
    | .ok p => {p.handle.raw}
    | .error _ => ∅) ∪ if created then {c.2.1.hThread} else ∅

/-- The child's handles are new and handed to the caller. -/
theorem wrapChild_opened (t : HandleTable) (processId : Nat) :
    (wrapChild t processId).2.2.opened = t.opened ∪ handed (wrapChild t processId) true ∧
      ∀ h ∈ handed (wrapChild t processId) true, t.next ≤ h := by
  have hfresh := t.next_not_mem
  by_cases hpid : processId = 0
  · simp only [wrapChild, hpid, Process.fromHandle, if_true, Handle.drop,
      HandleTable.opened_close, HandleTable.opened_alloc, HandleTable.fst_alloc,
      HandleTable.next_alloc, handed]
    refine ⟨?_, by simp⟩
    ext h
    simp only [Finset.mem_erase, Finset.mem_insert, Finset.mem_union, Finset.not_mem_empty,
      Finset.mem_singleton, if_true, false_or]
    constructor
    · rintro ⟨hne, h4 | rfl | hh⟩ <;> simp_all
    · rintro (hh | rfl)
      · exact ⟨fun e => hfresh (e ▸ hh), Or.inr (Or.inr hh)⟩
      · exact ⟨by omega, Or.inl rfl⟩
  · simp only [wrapChild, hpid, Process.fromHandle, if_false, HandleTable.opened_alloc,
      HandleTable.fst_alloc, HandleTable.next_alloc, handed]
    refine ⟨?_, by simp⟩
    ext h
    simp only [Finset.mem_insert, Finset.mem_union, Finset.mem_singleton, if_true]
    rw [or_comm, @or_comm (h = t.next), or_assoc]

/-- A thread with no debug object gets one, in the next handle. -/
theorem dbgUiConnectToDbg_table (t : HandleTable) (debugObject : Option Nat) :
    (dbgUiConnectToDbg t debugObject).2.opened =
        t.opened ∪ (if debugObject = none then {t.next} else ∅) ∧
      (dbgUiConnectToDbg t debugObject).2.next = t.next + if debugObject = none then 4 else 0 := by
  cases debugObject <;> simp [dbgUiConnectToDbg, Finset.insert_eq, Finset.union_comm]

/-- From `CreateProcessW` on, the handles open after are those open before, those handed to
the caller, and the thread's new debug object when the call connects a thread that had none;
the handed ones are all new, and none of them is the debug object. -/
theorem createAndWrap_opened (t : HandleTable) (debugObject : Option Nat)
    (pi : ProcessInformation) (o : CreateOutcome) :
    (createAndWrap t debugObject pi o).2.2.opened =
        t.opened ∪ handed (createAndWrap t debugObject pi o) o.createProcess ∪
          (if debugObject = none ∧ (o.createProcess = true ∨ o.connectsDebugger = true) then
            {t.next} else ∅) ∧
      ∀ h ∈ handed (createAndWrap t debugObject pi o) o.createProcess,
        t.next ≤ h ∧ (debugObject = none → t.next ≠ h) := by
  obtain ⟨hopen, hnext⟩ := dbgUiConnectToDbg_table t debugObject
  cases hc : o.createProcess with
  | true =>
    obtain ⟨hw, hnew⟩ := wrapChild_opened (dbgUiConnectToDbg t debugObject).2 o.processId
    simp only [createAndWrap, hc, if_true, true_or, and_true]
    refine ⟨?_, fun h hh => ?_⟩
    · rw [hw, hopen, Finset.union_right_comm]
    · have := hnew h hh
      rw [hnext] at this
      refine ⟨by omega, fun hd e => ?_⟩
      rw [if_pos hd] at this
      omega
  | false =>
    cases hd : o.connectsDebugger <;> cases debugObject <;>
      simp [createAndWrap, hc, hd, handed, dbgUiConnectToDbg, Finset.insert_eq, Finset.union_comm]

/-- **Without a parent pid only the thread's debug object is kept.** The handles open after
the call are those open before, those handed to the caller, and, when the calling thread had
no debug object and the call connected it, the new debug object, which is not handed to the
caller; a thread that already has one opens nothing beyond the handed handles. -/
theorem createDebugProcess_none_opened (t : HandleTable) (debugObject : Option Nat)
    (path : List Char) (args : List (List Char)) (pi : ProcessInformation) (o : CreateOutcome) :
    (createDebugProcess t debugObject path args pi none o).2.2.opened =
        t.opened ∪ handed (createDebugProcess t debugObject path args pi none o) o.createProcess ∪
          (if debugObject = none ∧ (o.createProcess = true ∨ o.connectsDebugger = true) then
            {t.next} else ∅) ∧
      (debugObject = none →
        t.next ∉ handed (createDebugProcess t debugObject path args pi none o) o.createProcess) :=
  ⟨(createAndWrap_opened t debugObject pi o).1,
    fun hd hh => ((createAndWrap_opened t debugObject pi o).2 _ hh).2 hd rfl⟩

/-- **With a parent pid the parent handle leaks.** Whenever `OpenProcess` succeeds, its
handle is open after the call, was not before, and is not handed to the caller, whichever
later call fails. -/
theorem createDebugProcess_leaks_parent (t : HandleTable) (debugObject : Option Nat)
    (path : List Char) (args : List (List Char)) (pi : ProcessInformation) (ppid : Nat)
    (o : CreateOutcome) (h : o.openParent = true) :
    t.next ∈ (createDebugProcess t debugObject path args pi (some ppid) o).2.2.opened ∧
      t.next ∉ t.opened ∧
      t.next ∉ handed (createDebugProcess t debugObject path args pi (some ppid) o)
        (o.updateAttribute && o.createProcess) := by
  cases hu : o.updateAttribute with
  | false => simp [createDebugProcess, h, hu, handed, t.next_not_mem]
  | true =>
    obtain ⟨hopen, hnew⟩ := createAndWrap_opened t.alloc.2 debugObject pi o
    simp only [createDebugProcess, h, hu, if_true, Bool.true_and]
    refine ⟨by rw [hopen]; simp, t.next_not_mem, fun hh => ?_⟩
    have := (hnew _ hh).1
    simp only [HandleTable.next_alloc] at this
    omega

/-- A launch with a parent pid whose every call succeeds. -/
def parentLaunch : CreateOutcome := ⟨true, true, true, true, 100⟩

/-- The handle table of a process with no handle open. -/
def freshTable : HandleTable := ⟨∅, 4, by simp, by decide⟩

/-- At a successful first launch of a thread, with parent pid `4`, the parent handle `4` is
left open beside the thread's new debug object `8` and the child's handles `12` and `16`,
which are handed to the caller. -/
theorem createDebugProcess_parent_leak :
    (createDebugProcess freshTable none "notepad.exe".toList [] ⟨0, 0⟩ (some 4)
        parentLaunch).1 = .ok ⟨⟨12⟩⟩ ∧
      (createDebugProcess freshTable none "notepad.exe".toList [] ⟨0, 0⟩ (some 4)
        parentLaunch).2.1 = ⟨12, 16⟩ ∧
      (createDebugProcess freshTable none "notepad.exe".toList [] ⟨0, 0⟩ (some 4)
        parentLaunch).2.2.opened = {4, 8, 12, 16} :=
  ⟨rfl, rfl, by decide⟩

end Udbg.Windows
