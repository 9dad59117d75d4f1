import Udbg.Nix.Procfs

/-!
# The Linux process handle

`Process` (`src/nix/process.rs`) is a pid and the `/proc/<pid>/mem` channel, opened by the
first read and kept for every later one.

`Process::from_name` finds a process by the first piece of its command line.

## Main definitions

* `Process`, `Process.fromPid`, and the procfs accessors
* `Process.fromName`

## Main results

* `fromName_argv0`: `from_name` takes the first pid whose command line, before its first NUL,
  is the name, among those whose command line is not empty or all NULs
-/

namespace Udbg.Nix

/-- An open `/proc/<pid>/mem`, by the number the kernel gave it. -/
structure MemFile where
  fd : Nat
  deriving DecidableEq, Repr

/-- `Process`: the pid and the memory channel behind the `RwLock`. -/
structure Process where
  pid : PidT
  mem : Option MemFile
  deriving DecidableEq, Repr

/-- `Process::from_pid`: a process with no channel yet, when `/proc/<pid>` exists. -/
def Process.fromPid (exists_ : PidT → Bool) (pid : PidT) : Option Process :=
  if exists_ pid then some ⟨pid, none⟩ else none

/-- `Process::cmdline`. -/
def Process.cmdline (p : Process) (fs : Procfs) : List RString := processCmdline fs p.pid

/-- `Process::environ`. -/
def Process.environ (p : Process) (fs : Procfs) : Environ := processEnviron fs p.pid

/-- `Process::from_name`, for the pids `enum_pid` yields (its reading of `/proc` is outside
the source): the first whose command line starts with `name`, as a process when
`/proc/<pid>` exists. -/
def Process.fromName (fs : Procfs) (exists_ : PidT → Bool) (pids : List PidT) (name : RString) :
    Option Process :=
  (pids.find? fun pid => (processCmdline fs pid).head? == some name).bind (Process.fromPid exists_)

/-- **`from_name` matches `argv[0]`.** `Process::from_name` takes the first pid whose
command line holds a byte other than NUL and whose bytes before the first NUL are those of
`name`: a process whose command line is empty or all NULs is never found, not even by the empty
name. -/
theorem fromName_argv0 (fs : Procfs) (exists_ : PidT → Bool) (pids : List PidT) (name : RString) :
    Process.fromName fs exists_ pids name =
      (pids.find? fun pid => !(fs.data pid .cmdline).all (· == 0) &&
        (fs.data pid .cmdline).takeWhile (· != 0) == name.bytes).bind
        (Process.fromPid exists_) := by
  have hhead : ∀ pid, (processCmdline fs pid).head? = some name ↔
      ((processCmdline fs pid).map RString.bytes).head? = some name.bytes := fun pid => by
    rw [List.head?_map]
    cases (processCmdline fs pid).head? <;> simp [RString.bytes_inj]
  unfold Process.fromName
  congr 2
  funext pid
  rw [Bool.eq_iff_iff, beq_iff_eq, hhead, head?_processCmdline]
  split_ifs with h <;> simp [h]

end Udbg.Nix
