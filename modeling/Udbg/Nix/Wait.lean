import Udbg.Nix.Process
import Mathlib.Algebra.Group.Nat.Basic

/-!
# The Linux wait loop

`Process::wait` (`src/nix/process.rs`) blocks in `waitpid(-1, &status, opt)` and decodes the
status word with the libc crate's `W*` functions, in the order exited, signaled, stopped,
continued. A stop carries the ptrace event code in the upper 16 bits, which the code reads
with an arithmetic shift of the signed word and a 16-bit mask; a clone event also asks
`PTRACE_GETEVENTMSG` for the new thread id, and panics when that call fails.

The code passes that call `&new_tid`, a shared borrow of the immutable `let new_tid: pid_t =
0`. The kernel stores an 8-byte `unsigned long` through it, into a 4-byte binding that Rust
assumes never changes: undefined behaviour. The compiled code returns the binding's `0`, so
a clone event is reported as `Clone(0)`, whatever thread the kernel created.

The kernel writes a traced child's status in one of four shapes (`StatusWord`). Every one of
them decodes to its row of the classification table, whatever the event code, including the
codes from `0x8000` up that make the word negative, except that the new thread of a clone
event is `0`; `wait` never reaches its final `invalid waitpid` panic on one.

## Main definitions

* `WIFEXITED`, `WEXITSTATUS`, `WIFSIGNALED`, `WTERMSIG`, `WIFSTOPPED`, `WSTOPSIG`,
  `WIFCONTINUED`: the status functions on a 32-bit `c_int`
* `Process.wait`
* `StatusWord`, `StatusWord.encode`, `StatusWord.expected`: the words the kernel stores for a
  traced child, and the table of what each should decode to

## Main results

* `wait_statusWord`: `wait` decodes every kernel word to its row of the table, with `0` for
  the new thread of a clone event
* `wait_clone_newTid_zero`: every clone event is reported as `Clone(0)`
-/

namespace Udbg.Nix

/-- `c_int`. -/
abbrev CInt := BitVec 32

/-! ## Masks and shifts of a `c_int` -/

section Bits

/-- A low mask `2^n - 1` keeps the low `n` bits. -/
theorem toNat_and_mask (x : CInt) (n : Nat) (hn : n ≤ 32) :
    (x &&& BitVec.ofNat 32 (2 ^ n - 1)).toNat = x.toNat % 2 ^ n := by
  have : 2 ^ n ≤ 2 ^ 32 := Nat.pow_le_pow_right (by decide) hn
  rw [BitVec.toNat_and, BitVec.toNat_ofNat, Nat.mod_eq_of_lt (by omega),
    Nat.and_pow_two_sub_one_eq_mod]

theorem toNat_and_0xff (x : CInt) : (x &&& 0xff).toNat = x.toNat % 256 :=
  toNat_and_mask x 8 (by omega)

/-- Below the mask, the arithmetic shift reads the same bits as the logical one. -/
theorem sshiftRight_and_mask (x : CInt) (k n : Nat) (h : k + n ≤ 32) :
    x.sshiftRight k &&& BitVec.ofNat 32 (2 ^ n - 1) =
      x >>> k &&& BitVec.ofNat 32 (2 ^ n - 1) := by
  ext i
  simp only [BitVec.getLsbD_and, BitVec.getLsbD_sshiftRight, BitVec.getLsbD_ushiftRight,
    BitVec.getLsbD_ofNat, Nat.testBit_two_pow_sub_one]
  by_cases hi : (i : Nat) < n
  · simp [hi, show k + i < 32 by omega, show ¬ (32 ≤ (i : Nat)) by omega]
  · simp [hi]

/-- A bit field read with a signed shift and a mask. -/
theorem toNat_sshiftRight_and_mask (x : CInt) (k n : Nat) (h : k + n ≤ 32) :
    (x.sshiftRight k &&& BitVec.ofNat 32 (2 ^ n - 1)).toNat = x.toNat / 2 ^ k % 2 ^ n := by
  rw [sshiftRight_and_mask x k n h, toNat_and_mask _ _ (by omega), BitVec.toNat_ushiftRight,
    Nat.shiftRight_eq_div_pow]

/-- Or-ing a value below `2^k` into a word whose low `k` bits are clear adds it. -/
theorem toNat_or_low (x y : CInt) (k : Nat) (hx : x.toNat % 2 ^ k = 0) (hy : y.toNat < 2 ^ k) :
    (x ||| y).toNat = x.toNat + y.toNat := by
  obtain ⟨q, hq⟩ : 2 ^ k ∣ x.toNat := Nat.dvd_of_mod_eq_zero hx
  rw [BitVec.toNat_or, hq, ← Nat.mul_add_lt_is_or hy]

end Bits

/-! ## The status functions -/

/-- `WIFEXITED`. -/
def WIFEXITED (status : CInt) : Bool := status &&& 0x7f == 0

/-- `WEXITSTATUS`. -/
def WEXITSTATUS (status : CInt) : CInt := status.sshiftRight 8 &&& 0xff

/-- `WIFSIGNALED`: `((status & 0x7f) + 1) as i8 >= 2`. -/
def WIFSIGNALED (status : CInt) : Bool := (2 : BitVec 8).sle (((status &&& 0x7f) + 1).setWidth 8)

/-- `WTERMSIG`. -/
def WTERMSIG (status : CInt) : CInt := status &&& 0x7f

/-- `WIFSTOPPED`. -/
def WIFSTOPPED (status : CInt) : Bool := status &&& 0xff == 0x7f

/-- `WSTOPSIG`. -/
def WSTOPSIG (status : CInt) : CInt := status.sshiftRight 8 &&& 0xff

/-- `WIFCONTINUED`. -/
def WIFCONTINUED (status : CInt) : Bool := status == 0xffff

/-- `PTRACE_EVENT_CLONE`. -/
def PTRACE_EVENT_CLONE : CInt := 3

/-- `PTRACE_EVENT_EXEC`. -/
def PTRACE_EVENT_EXEC : CInt := 4

section Reading

variable (s : CInt)

theorem WIFEXITED_iff : WIFEXITED s = true ↔ s.toNat % 128 = 0 := by
  rw [WIFEXITED, beq_iff_eq, BitVec.toNat_eq, show (0x7f : CInt) = .ofNat 32 (2 ^ 7 - 1) from rfl,
    toNat_and_mask s 7 (by omega)]
  rfl

theorem WIFSIGNALED_iff :
    WIFSIGNALED s = true ↔ 1 ≤ s.toNat % 128 ∧ s.toNat % 128 ≤ 126 := by
  have hlow : (s &&& 0x7f).toNat = s.toNat % 128 := toNat_and_mask s 7 (by omega)
  have hsum : (((s &&& 0x7f) + 1).setWidth 8).toNat = s.toNat % 128 + 1 := by
    rw [BitVec.toNat_setWidth, BitVec.toNat_add, hlow, show (1 : CInt).toNat = 1 from rfl]
    omega
  rw [WIFSIGNALED, BitVec.sle, decide_eq_true_iff, BitVec.toInt_eq_toNat_cond,
    BitVec.toInt_eq_toNat_cond, hsum]
  split_ifs <;> simp_all <;> omega

theorem WIFSTOPPED_iff : WIFSTOPPED s = true ↔ s.toNat % 256 = 127 := by
  rw [WIFSTOPPED, beq_iff_eq, BitVec.toNat_eq, toNat_and_0xff]
  rfl

theorem WIFCONTINUED_iff : WIFCONTINUED s = true ↔ s.toNat = 65535 := by
  rw [WIFCONTINUED, beq_iff_eq, BitVec.toNat_eq]
  rfl

theorem toNat_WEXITSTATUS : (WEXITSTATUS s).toNat = s.toNat / 256 % 256 :=
  toNat_sshiftRight_and_mask s 8 8 (by omega)

theorem toNat_WSTOPSIG : (WSTOPSIG s).toNat = s.toNat / 256 % 256 :=
  toNat_sshiftRight_and_mask s 8 8 (by omega)

theorem toNat_WTERMSIG : (WTERMSIG s).toNat = s.toNat % 128 := toNat_and_mask s 7 (by omega)

/-- The ptrace event code, `(status >> 16) & 0xffff`. -/
theorem toNat_eventCode : (s.sshiftRight 16 &&& 0xffff).toNat = s.toNat / 65536 % 65536 :=
  toNat_sshiftRight_and_mask s 16 16 (by omega)

end Reading

/-! ## `Process::wait` -/

/-- Modelled from the spec: `WaitStatus`, whose declaration is not in the source; §3 gives its
variants `Exit(code)`, `Signal(sig)`, `Stop(sig)`, `Clone(new_tid)`, `Exec` and `Continue`. -/
inductive WaitStatus
  | exit (code : CInt)
  | signal (sig : CInt)
  | stop (sig : CInt)
  | clone (tid : PidT)
  | exec
  | continue
  deriving DecidableEq, Repr

/-- The kernel's answers during one `wait`: `waitpid(-1, &status, opt)` gives the thread id
and the status word (the initial `0` when it stores none), and
`ptrace(PTRACE_GETEVENTMSG, tid, 0, &new_tid)` gives its return value and the thread id it
stores through the pointer. -/
structure Kernel where
  waitpid : CInt → PidT × CInt
  getEventMsg : PidT → Int × PidT

/-- The decoding part of `Process::wait`, on the answer of `waitpid`; a panic is an error
with its message. In the clone row, `new_tid` is an immutable binding, so the store the
kernel makes through `&new_tid` is undefined behaviour and is not observed: the optimised code
returns the binding's initial `0` (the store, 8 bytes into a 4-byte slot, also overwrites the
stack beside it, which the model leaves out). -/
def classify (k : Kernel) (tid : PidT) (status : CInt) : Except String (PidT × WaitStatus) :=
  if WIFEXITED status then .ok (tid, .exit (WEXITSTATUS status))
  else if WIFSIGNALED status then .ok (tid, .signal (WTERMSIG status))
  else if WIFSTOPPED status then
    let extra := status.sshiftRight 16 &&& 0xffff
    if extra = PTRACE_EVENT_CLONE then
      let newTid : PidT := 0
      if (k.getEventMsg tid).1 < 0 then .error "PTRACE_GETEVENTMSG Failed"
      else .ok (tid, .clone newTid)
    else if extra = PTRACE_EVENT_EXEC then .ok (tid, .exec)
    else .ok (tid, .stop (WSTOPSIG status))
  else if WIFCONTINUED status then .ok (tid, .continue)
  else .error "invalid waitpid"

/-- `Process::wait`. -/
def Process.wait (_ : Process) (k : Kernel) (opt : CInt) : Except String (PidT × WaitStatus) :=
  classify k (k.waitpid opt).1 (k.waitpid opt).2

/-! ## The words of a traced child -/

/-- The status words the kernel stores for a traced child, by what happened to it. -/
inductive StatusWord
  /-- `exit(c)`. -/
  | exited (c : CInt)
  /-- Killed by signal `sig`, with or without a core dump. -/
  | killed (sig : CInt) (core : Bool)
  /-- Stopped by signal `sig`, with ptrace event code `ev`. -/
  | stopped (sig : CInt) (ev : BitVec 16)
  /-- Resumed by `SIGCONT`. -/
  | continued
  deriving DecidableEq, Repr

/-- The word the kernel stores, read as a signed 32-bit `c_int`. -/
def StatusWord.encode : StatusWord → CInt
  | exited c => (c &&& 0xff) <<< 8
  | killed sig core => sig ||| if core then 0x80 else 0
  | stopped sig ev => ev.setWidth 32 <<< 16 ||| (sig &&& 0xff) <<< 8 ||| 0x7f
  | continued => 0xffff

/-- A killing signal is one of `1..0x7e`. -/
def StatusWord.Valid : StatusWord → Prop
  | killed sig _ => 1 ≤ sig.toNat ∧ sig.toNat ≤ 0x7e
  | _ => True

instance : (w : StatusWord) → Decidable w.Valid
  | .killed sig _ => inferInstanceAs (Decidable (1 ≤ sig.toNat ∧ sig.toNat ≤ 0x7e))
  | .exited _ | .stopped _ _ | .continued => isTrue trivial

/-- A clone event, the one row whose decoding calls `PTRACE_GETEVENTMSG`. -/
def StatusWord.isClone : StatusWord → Bool
  | stopped _ ev => ev == 3
  | _ => false

/-- The classification table (§4.7), given the thread id `PTRACE_GETEVENTMSG` stores. -/
def StatusWord.expected (newTid : PidT) : StatusWord → WaitStatus
  | exited c => .exit (c &&& 0xff)
  | killed sig _ => .signal sig
  | stopped sig ev =>
    if ev = 3 then .clone newTid else if ev = 4 then .exec else .stop (sig &&& 0xff)
  | continued => .continue

section Decode

variable (k : Kernel) (tid : PidT)

/-- The number an exit status encodes to. -/
theorem toNat_encode_exited (c : CInt) :
    (StatusWord.exited c).encode.toNat = c.toNat % 256 * 256 := by
  rw [StatusWord.encode, BitVec.toNat_shiftLeft, Nat.shiftLeft_eq, toNat_and_0xff]
  omega

/-- The number a killing signal encodes to. -/
theorem toNat_encode_killed (sig : CInt) (core : Bool) (h : sig.toNat < 128) :
    (StatusWord.killed sig core).encode.toNat = sig.toNat + if core then 128 else 0 := by
  have hor := toNat_or_low (if core then 0x80 else 0) sig 7 (by split <;> rfl) h
  rw [StatusWord.encode, BitVec.or_comm, hor, Nat.add_comm]
  split <;> rfl

/-- The number a stop encodes to: the event above the signal above `0x7f`. -/
theorem toNat_encode_stopped (sig : CInt) (ev : BitVec 16) :
    (StatusWord.stopped sig ev).encode.toNat = ev.toNat * 65536 + sig.toNat % 256 * 256 + 127 := by
  have hlt := ev.isLt
  have hhi : (ev.setWidth 32 <<< 16).toNat = ev.toNat * 65536 := by
    rw [BitVec.toNat_shiftLeft, BitVec.toNat_setWidth, Nat.shiftLeft_eq]
    omega
  have hmid : ((sig &&& 0xff) <<< 8).toNat = sig.toNat % 256 * 256 := by
    rw [BitVec.toNat_shiftLeft, Nat.shiftLeft_eq, toNat_and_0xff]
    omega
  rw [StatusWord.encode,
    toNat_or_low _ _ 8 (by rw [toNat_or_low _ _ 16 (by omega) (by omega)]; omega) (by simp),
    toNat_or_low _ _ 16 (by omega) (by omega), hhi, hmid]
  rfl

theorem classify_exited (c : CInt) :
    classify k tid (.exited c : StatusWord).encode = .ok (tid, .exit (c &&& 0xff)) := by
  have hn := toNat_encode_exited c
  have hcode : WEXITSTATUS (StatusWord.exited c).encode = c &&& 0xff := by
    rw [BitVec.toNat_eq, toNat_WEXITSTATUS, hn, toNat_and_0xff]
    omega
  rw [classify, if_pos ((WIFEXITED_iff _).2 (by omega)), hcode]

theorem classify_killed (sig : CInt) (core : Bool) (h : 1 ≤ sig.toNat ∧ sig.toNat ≤ 0x7e) :
    classify k tid (.killed sig core : StatusWord).encode = .ok (tid, .signal sig) := by
  have hn := toNat_encode_killed sig core (by omega)
  have hsig : WTERMSIG (StatusWord.killed sig core).encode = sig := by
    rw [BitVec.toNat_eq, toNat_WTERMSIG, hn]
    split <;> omega
  rw [classify, if_neg (by rw [WIFEXITED_iff, hn]; split <;> omega),
    if_pos ((WIFSIGNALED_iff _).2 (by rw [hn]; split <;> omega)), hsig]

theorem classify_stopped (sig : CInt) (ev : BitVec 16) :
    classify k tid (.stopped sig ev : StatusWord).encode =
      if ev = 3 then
        if (k.getEventMsg tid).1 < 0 then .error "PTRACE_GETEVENTMSG Failed"
        else .ok (tid, .clone 0)
      else if ev = 4 then .ok (tid, .exec) else .ok (tid, .stop (sig &&& 0xff)) := by
  have hlt := ev.isLt
  have hn := toNat_encode_stopped sig ev
  set s := (StatusWord.stopped sig ev).encode
  have hev (n : Nat) (hn' : n < 16) (e : CInt) (he : e.toNat = n) :
      s.sshiftRight 16 &&& 0xffff = e ↔ ev.toNat = n := by
    rw [BitVec.toNat_eq, toNat_eventCode, hn, he]
    omega
  have hstop : WSTOPSIG s = sig &&& 0xff := by
    rw [BitVec.toNat_eq, toNat_WSTOPSIG, hn, toNat_and_0xff]
    omega
  rw [classify, if_neg (by rw [WIFEXITED_iff, hn]; omega),
    if_neg (by rw [WIFSIGNALED_iff, hn]; omega), if_pos ((WIFSTOPPED_iff _).2 (by omega))]
  simp only [hev 3 (by omega) PTRACE_EVENT_CLONE rfl, hev 4 (by omega) PTRACE_EVENT_EXEC rfl,
    hstop, BitVec.toNat_eq]
  rfl

theorem classify_continued :
    classify k tid (.continued : StatusWord).encode = .ok (tid, .continue) := by
  have hn : (StatusWord.continued).encode.toNat = 65535 := rfl
  rw [classify, if_neg (by rw [WIFEXITED_iff, hn]; omega),
    if_neg (by rw [WIFSIGNALED_iff, hn]; omega), if_neg (by rw [WIFSTOPPED_iff, hn]; omega),
    if_pos ((WIFCONTINUED_iff _).2 hn)]

end Decode

/-- **`wait` decodes every kernel word.** For every status word the kernel stores for a
traced child, `wait` returns the thread id with the word's row of the table, with `0` for the
new thread of a clone event, except that a clone event whose `PTRACE_GETEVENTMSG` fails
panics with that call's message; it never reaches the `invalid waitpid` panic. -/
theorem wait_statusWord (p : Process) (k : Kernel) (opt : CInt) (r : PidT) (w : StatusWord)
    (hw : w.Valid) (hk : k.waitpid opt = (r, w.encode)) :
    p.wait k opt =
      if w.isClone ∧ (k.getEventMsg r).1 < 0 then .error "PTRACE_GETEVENTMSG Failed"
      else .ok (r, w.expected 0) := by
  rw [Process.wait, hk]
  cases w with
  | exited c => simp [classify_exited, StatusWord.isClone, StatusWord.expected]
  | killed sig core =>
    simp [classify_killed k r sig core hw, StatusWord.isClone, StatusWord.expected]
  | stopped sig ev =>
    rw [classify_stopped]
    simp only [StatusWord.isClone, StatusWord.expected, beq_iff_eq]
    split_ifs <;> simp_all
  | continued => simp [classify_continued, StatusWord.isClone, StatusWord.expected]

/-- **A clone event is reported as thread `0`.** For every clone event of every thread, with
every signal, and every answer of `PTRACE_GETEVENTMSG`, `wait` panics when the call fails and
otherwise returns `Clone(0)`: the new thread id the kernel stores never reaches the result,
where the table has `Clone(new_tid)`. -/
theorem wait_clone_newTid_zero (p : Process) (opt : CInt) (r : PidT) (sig : CInt) (ret : Int)
    (newTid : PidT) :
    p.wait ⟨fun _ => (r, (StatusWord.stopped sig 3).encode), fun _ => (ret, newTid)⟩ opt =
      if ret < 0 then .error "PTRACE_GETEVENTMSG Failed" else .ok (r, .clone 0) := by
  rw [wait_statusWord p _ opt r (.stopped sig 3) trivial rfl]
  simp [StatusWord.isClone, StatusWord.expected]

end Udbg.Nix
