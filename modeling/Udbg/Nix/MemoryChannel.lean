import Udbg.Nix.Memory
import Mathlib.Logic.Relation
import Mathlib.Algebra.BigOperators.Group.Finset

/-!
# Concurrent reads through the kept channel

`Process::read` (`src/nix/process.rs`) takes `&self`, so several threads may read through one
`Process` at once. The channel sits behind a `RwLock`, and a read takes the lock twice. It
tests under the read lock whether there is a channel; when there is none, it opens
`/proc/<pid>/mem` with no lock held and stores the file under the write lock, dropping the
file stored there by then, if any. It then reads through the channel under the write lock.
Between the test and the store another thread may store its own file, so two first reads can
both open the file; the file stored first is then dropped, which closes it.

Here `n` readers, each inside one call of `Process::read`, take atomic steps: the two
critical sections, the open between them, and the read. Any interleaving of the steps is a
run.

## Main definitions

* `ReadPc`, `Reader`: where a thread is inside `Process::read`
* `Config`, `Config.step`, `Config.Step`: the channel, the kernel and the readers, and one
  step of one reader
* `ReadPc.stepsLeft`, `ReadPc.opensLeft`: the steps and the opens a reader has left

## Main results

* `Config.Owned`: every open file is one of the debugger's files from before, the channel, or
  the file of one reader between its open and its store; a reader about to read finds a
  channel; every finished read returned what it returns alone
* `Config.Owned.step`, `owned_of_reachable`: the invariant holds in every reachable state
* `opened_of_finished`: once every reader is done, the open files are those open before and
  the channel, whatever the interleaving
* `read_of_finished`: every read returns what `Process::read` returns run alone
* `solo_read`: a reader run alone does what `Process::read` does
* `opens_of_opening`: every reader that has passed the test without finding a channel opens
  the file at its next step, whatever the others do, so two first reads can both open it
* `opened_card_le`: at every point of every interleaving, the reads hold at most one file each
  open, the channel included
* `nextFile_le`: over every interleaving, each reader opens the file at most once
* `done_of_four_steps`: every read returns within four of its own steps, whatever the other
  readers do, and returns what it returns alone
-/

namespace Udbg.Nix

theorem MemFile.fd_inj {f g : MemFile} : f.fd = g.fd ↔ f = g := by
  cases f; cases g; simp

/-- Where a thread is inside `Process::read`. -/
inductive ReadPc
  /-- before the test of `is_none` under the read lock -/
  | start
  /-- found no channel: the open of `/proc/<pid>/mem` is next -/
  | opening
  /-- opened `f`: storing it under the write lock is next -/
  | holding (f : MemFile)
  /-- the read through the channel, under the write lock, is next -/
  | reading
  /-- returned `result` -/
  | done (result : Option Bytes)
  deriving DecidableEq, Repr

/-- A thread inside `Process::read(address, buf)`. -/
structure Reader where
  address : Nat
  buf : Bytes
  pc : ReadPc
  deriving DecidableEq, Repr

/-- Dropping the value a store replaces: the file it held, if any, is closed. -/
def MemKernel.drop (k : MemKernel) : Option MemFile → MemKernel
  | some g => k.close g
  | none => k

/-- One atomic step of a reader, from the channel and the kernel: the channel, the kernel and
the reader's program point after it. -/
def Reader.step (r : Reader) (mem : Option MemFile) (k : MemKernel) :
    Option MemFile × MemKernel × ReadPc :=
  match r.pc with
  | .start => (mem, k, if mem.isNone then .opening else .reading)
  | .opening =>
    match k.openMem with
    | (some f, k') => (mem, k', .holding f)
    | (none, k') => (mem, k', .done none)
  | .holding f => (some f, k.drop mem, .reading)
  | .reading => (mem, k, .done (Process.readThrough mem k r.address r.buf))
  | .done result => (mem, k, .done result)

/-- The channel, the kernel, and `n` readers. -/
structure Config (n : Nat) where
  mem : Option MemFile
  kernel : MemKernel
  readers : Fin n → Reader

namespace Config

variable {n : Nat}

/-- Reader `i` takes one step. -/
def step (c : Config n) (i : Fin n) : Config n :=
  let s := (c.readers i).step c.mem c.kernel
  ⟨s.1, s.2.1, Function.update c.readers i { c.readers i with pc := s.2.2 }⟩

/-- Some reader takes one step. -/
def Step (c c' : Config n) : Prop := ∃ i, c' = c.step i

/-- The readers step in the order `is`. -/
def schedule (c : Config n) (is : List (Fin n)) : Config n := is.foldl step c

/-- `n` threads about to call `p.read(address, buf)`, each with its own arguments. -/
def init (p : Process) (k : MemKernel) (calls : Fin n → Nat × Bytes) : Config n :=
  ⟨p.mem, k, fun i => ⟨(calls i).1, (calls i).2, .start⟩⟩

variable (c : Config n) (i : Fin n)

@[simp] theorem mem_step : (c.step i).mem = ((c.readers i).step c.mem c.kernel).1 := rfl

@[simp] theorem kernel_step : (c.step i).kernel = ((c.readers i).step c.mem c.kernel).2.1 := rfl

theorem readers_step_self :
    (c.step i).readers i = { c.readers i with pc := ((c.readers i).step c.mem c.kernel).2.2 } :=
  Function.update_same _ _ _

theorem readers_step_ne {i j : Fin n} (h : j ≠ i) : (c.step i).readers j = c.readers j :=
  Function.update_noteq h _ _

/-- A reader at `holding f` is the one reader holding `f` when `f` is held, by itself or by
another. -/
theorem exists_holding_iff {f : MemFile} (hpc : (c.readers i).pc = .holding f) (g : MemFile) :
    (∃ j, (c.readers j).pc = .holding g) ↔
      f = g ∨ ∃ j, j ≠ i ∧ (c.readers j).pc = .holding g := by
  constructor
  · rintro ⟨j, hj⟩
    by_cases hji : j = i
    · subst hji; rw [hpc] at hj; exact .inl (ReadPc.holding.inj hj)
    · exact .inr ⟨j, hji, hj⟩
  · rintro (rfl | ⟨j, -, hj⟩)
    exacts [⟨i, hpc⟩, ⟨j, hj⟩]

/-- The readers holding a file after a step of reader `i`: reader `i`, if it now holds it, and
the others that held it. -/
theorem exists_holding_step (g : MemFile) :
    (∃ j, ((c.step i).readers j).pc = .holding g) ↔
      ((c.readers i).step c.mem c.kernel).2.2 = .holding g ∨
        ∃ j, j ≠ i ∧ (c.readers j).pc = .holding g := by
  constructor
  · rintro ⟨j, hj⟩
    by_cases hji : j = i
    · subst hji; rw [readers_step_self] at hj; exact .inl hj
    · rw [readers_step_ne c hji] at hj; exact .inr ⟨j, hji, hj⟩
  · rintro (h | ⟨j, hji, hj⟩)
    · exact ⟨i, by rw [readers_step_self]; exact h⟩
    · exact ⟨j, by rw [readers_step_ne c hji]; exact hj⟩

end Config

/-! ## The invariant -/

/-- What a read of `(address, buf)` returns alone, from a process without a channel. -/
def firstRead (k : MemKernel) (address : Nat) (buf : Bytes) : Option Bytes :=
  if k.access then k.readable address buf.length else none

theorem readable_congr {k k' : MemKernel} (h : k.memory = k'.memory) :
    k.readable = k'.readable := by
  funext address len; simp [MemKernel.readable, h]

namespace Config

variable {n : Nat}

/-- The invariant of reads that began on a process without a channel, over a kernel `k₀`.
Each open file is one of `k₀`'s, the channel, or the file of one reader between its open and
its store, and these owners are distinct; a reader about to read finds a channel; the
memory is `k₀`'s; and a finished read returned what it returns alone. -/
structure Owned (k₀ : MemKernel) (c : Config n) : Prop where
  opened_iff : ∀ f : MemFile, f.fd ∈ c.kernel.opened ↔
    f.fd ∈ k₀.opened ∨ c.mem = some f ∨ ∃ j, (c.readers j).pc = .holding f
  cached_fresh : ∀ f, c.mem = some f → f.fd ∉ k₀.opened
  held : ∀ j f, (c.readers j).pc = .holding f →
    f.fd ∉ k₀.opened ∧ c.mem ≠ some f ∧ ∀ j', (c.readers j').pc = .holding f → j' = j
  reading : ∀ j, (c.readers j).pc = .reading → c.mem ≠ none
  access : ∀ f, (c.mem = some f ∨ ∃ j, (c.readers j).pc = .holding f) → k₀.access = true
  memory : c.kernel.memory = k₀.memory ∧ c.kernel.access = k₀.access
  done : ∀ j r, (c.readers j).pc = .done r →
    r = firstRead k₀ (c.readers j).address (c.readers j).buf

variable {k₀ : MemKernel} {c : Config n}

theorem Owned.init (p : Process) (hp : p.mem = none) (k : MemKernel)
    (calls : Fin n → Nat × Bytes) : (Config.init p k calls).Owned k where
  opened_iff f := by simp [Config.init, hp]
  cached_fresh f h := by simp [Config.init, hp] at h
  held j f h := by simp [Config.init] at h
  reading j h := by simp [Config.init] at h
  access f h := by simp [Config.init, hp] at h
  memory := ⟨rfl, rfl⟩
  done j r h := by simp [Config.init] at h

/-- A step that keeps the channel and the kernel, and moves reader `i` from a point where it
holds no file to another, keeps the invariant, when it reads only with a channel and returns
only what the read returns alone. -/
theorem Owned.move (h : c.Owned k₀) (i : Fin n) (pc : ReadPc)
    (hold : ∀ f, (c.readers i).pc ≠ .holding f) (hnew : ∀ f, pc ≠ .holding f)
    (hreading : pc = .reading → c.mem ≠ none)
    (hdone : ∀ r, pc = .done r → r = firstRead k₀ (c.readers i).address (c.readers i).buf) :
    (Config.mk c.mem c.kernel
      (Function.update c.readers i { c.readers i with pc := pc })).Owned k₀ := by
  have hpc : ∀ j, (Function.update c.readers i { c.readers i with pc := pc } j).pc =
      if j = i then pc else (c.readers j).pc := fun j => by
    by_cases hj : j = i
    · subst hj; simp
    · simp [Function.update_noteq hj, hj]
  have hfields : ∀ j, (Function.update c.readers i { c.readers i with pc := pc } j).address =
      (c.readers j).address ∧
      (Function.update c.readers i { c.readers i with pc := pc } j).buf = (c.readers j).buf :=
    fun j => by
      by_cases hj : j = i
      · subst hj; simp
      · simp [Function.update_noteq hj]
  have hheld : ∀ f j, (Function.update c.readers i { c.readers i with pc := pc } j).pc =
      .holding f ↔ (c.readers j).pc = .holding f := fun f j => by
    rw [hpc]; split_ifs with hj
    · subst hj; exact ⟨fun e => absurd e (hnew f), fun e => absurd e (hold f)⟩
    · rfl
  refine
    { opened_iff := fun f => ?opened_iff
      cached_fresh := h.cached_fresh
      held := fun j f hj => ?held
      reading := fun j hj => ?reading
      access := fun f hf => ?access
      memory := h.memory
      done := fun j r hj => ?done }
  case opened_iff => simp only [hheld]; exact h.opened_iff f
  case held =>
    obtain ⟨h1, h2, h3⟩ := h.held j f ((hheld f j).mp hj)
    exact ⟨h1, h2, fun j' hj' => h3 j' ((hheld f j').mp hj')⟩
  case reading =>
    rw [hpc] at hj; split_ifs at hj with hji
    · exact hreading hj
    · exact h.reading j hj
  case access => simp only [hheld] at hf; exact h.access f hf
  case done =>
    rw [hpc] at hj; rw [(hfields j).1, (hfields j).2]; split_ifs at hj with hji
    · subst hji; exact hdone r hj
    · exact h.done j r hj

/-- Steps of reader `i` that keep the channel and the kernel are moves. -/
theorem step_eq_move (c : Config n) (i : Fin n)
    (hm : ((c.readers i).step c.mem c.kernel).1 = c.mem)
    (hk : ((c.readers i).step c.mem c.kernel).2.1 = c.kernel) :
    c.step i = ⟨c.mem, c.kernel, Function.update c.readers i
      { c.readers i with pc := ((c.readers i).step c.mem c.kernel).2.2 }⟩ := by
  simp only [step, hm, hk]

/-- A successful open gives the reader the next file, and keeps the invariant. -/
theorem Owned.step_open (h : c.Owned k₀) (i : Fin n) (hpc : (c.readers i).pc = .opening)
    (hk : c.kernel.access = true) : (c.step i).Owned k₀ := by
  have hN := c.kernel.nextFile_not_mem
  have hnew : ((c.readers i).step c.mem c.kernel) =
      (c.mem, c.kernel.openMem.2, .holding ⟨c.kernel.nextFile⟩) := by
    simp [Reader.step, hpc, MemKernel.openMem, hk]
  have hnot : ∀ f, (c.readers i).pc ≠ .holding f := fun f e => by rw [hpc] at e; cases e
  have hopen : ∀ f : MemFile, f.fd ∈ c.kernel.opened ↔
      f.fd ∈ k₀.opened ∨ c.mem = some f ∨
        ∃ j, j ≠ i ∧ (c.readers j).pc = .holding f := fun f => by
    rw [h.opened_iff f]
    exact or_congr_right (or_congr_right
      ⟨fun ⟨j, hj⟩ => ⟨j, fun e => hnot f (e ▸ hj), hj⟩, fun ⟨j, _, hj⟩ => ⟨j, hj⟩⟩)
  have hNfile : ∀ f : MemFile, f.fd ∈ c.kernel.opened → f ≠ ⟨c.kernel.nextFile⟩ :=
    fun f hf e => hN (by rwa [e] at hf)
  have hsome : ∀ j, j ≠ i → (c.step i).readers j = c.readers j := fun j => readers_step_ne c
  have hself : ((c.step i).readers i).pc = .holding ⟨c.kernel.nextFile⟩ := by
    rw [readers_step_self, hnew]
  refine
    { opened_iff := fun f => ?opened_iff
      cached_fresh := ?cached_fresh
      held := fun j f hj => ?held
      reading := fun j hj => ?reading
      access := fun f hf => ?access
      memory := ?memory
      done := fun j r hj => ?done }
  case opened_iff =>
    rw [exists_holding_step, mem_step, kernel_step, hnew]
    have hfd : f.fd = c.kernel.nextFile ↔ (⟨c.kernel.nextFile⟩ : MemFile) = f :=
      ⟨fun e => by rw [← e], fun e => by rw [← e]⟩
    simp only [MemKernel.openMem, hk, if_true, Finset.mem_insert, hopen f, ReadPc.holding.injEq,
      hfd, or_left_comm]
  case cached_fresh => rw [mem_step, hnew]; exact h.cached_fresh
  case held =>
    rw [mem_step, hnew]
    by_cases hji : j = i
    · subst hji
      rw [hself] at hj; cases hj
      refine ⟨fun hB => hN ((h.opened_iff _).mpr (.inl hB)),
        fun hm => hN ((h.opened_iff _).mpr (.inr (.inl hm))), fun j' hj' => ?_⟩
      by_contra hj'i
      rw [hsome j' hj'i] at hj'
      exact hN ((h.opened_iff _).mpr (.inr (.inr ⟨j', hj'⟩)))
    · rw [hsome j hji] at hj
      obtain ⟨h1, h2, h3⟩ := h.held j f hj
      refine ⟨h1, h2, fun j' hj' => ?_⟩
      by_cases hj'i : j' = i
      · subst hj'i
        rw [hself] at hj'; cases hj'
        exact absurd rfl (hNfile _ ((h.opened_iff _).mpr (.inr (.inr ⟨j, hj⟩))))
      · exact h3 j' (by rwa [hsome j' hj'i] at hj')
  case reading =>
    by_cases hji : j = i
    · subst hji; rw [hself] at hj; cases hj
    · rw [mem_step, hnew]; exact h.reading j (by rwa [hsome j hji] at hj)
  case access =>
    rw [exists_holding_step, mem_step, hnew] at hf
    rcases hf with hf | hf | ⟨j, -, hj⟩
    · exact h.access f (.inl hf)
    · exact h.memory.2 ▸ hk
    · exact h.access f (.inr ⟨j, hj⟩)
  case memory => rw [kernel_step, hnew]; simpa [MemKernel.openMem, hk] using h.memory
  case done =>
    by_cases hji : j = i
    · subst hji; rw [hself] at hj; cases hj
    · rw [hsome j hji] at hj ⊢; exact h.done j r hj

@[simp] theorem memory_drop (k : MemKernel) (mem : Option MemFile) :
    (k.drop mem).memory = k.memory := by
  cases mem <;> rfl

@[simp] theorem access_drop (k : MemKernel) (mem : Option MemFile) :
    (k.drop mem).access = k.access := by
  cases mem <;> rfl

@[simp] theorem nextFile_drop (k : MemKernel) (mem : Option MemFile) :
    (k.drop mem).nextFile = k.nextFile := by
  cases mem <;> rfl

/-- The store makes the reader's file the channel and closes the one it replaces, and keeps
the invariant. -/
theorem Owned.step_store (h : c.Owned k₀) (i : Fin n) {f : MemFile}
    (hpc : (c.readers i).pc = .holding f) : (c.step i).Owned k₀ := by
  obtain ⟨hfB, hmf, huniq⟩ := h.held i f hpc
  have hnew : (c.readers i).step c.mem c.kernel = (some f, c.kernel.drop c.mem, .reading) := by
    simp [Reader.step, hpc]
  have hself : ((c.step i).readers i).pc = .reading := by rw [readers_step_self, hnew]
  have hother : ∀ j g, ((c.step i).readers j).pc = .holding g →
      j ≠ i ∧ (c.readers j).pc = .holding g := fun j g hj => by
    by_cases hji : j = i
    · subst hji; rw [hself] at hj; cases hj
    · exact ⟨hji, by rwa [readers_step_ne c hji] at hj⟩
  have hopen : ∀ g : MemFile, g.fd ∈ c.kernel.opened ↔
      g.fd ∈ k₀.opened ∨ c.mem = some g ∨ f = g ∨
        ∃ j, j ≠ i ∧ (c.readers j).pc = .holding g :=
    fun g => (h.opened_iff g).trans (by rw [exists_holding_iff c i hpc])
  refine
    { opened_iff := fun g => ?opened_iff
      cached_fresh := fun g hg => ?cached_fresh
      held := fun j g hj => ?held
      reading := fun j _ => ?reading
      access := fun g hg => ?access
      memory := ?memory
      done := fun j r hj => ?done }
  case opened_iff =>
    rw [exists_holding_step, mem_step, kernel_step, hnew]
    simp only [Option.some.injEq, reduceCtorEq, false_or]
    cases hm : c.mem with
    | none => simpa [MemKernel.drop, hm] using hopen g
    | some g₀ =>
      have hg₀B := h.cached_fresh g₀ hm
      have hfg₀ : f ≠ g₀ := fun e => hmf (e ▸ hm)
      rw [hm] at hopen
      simp only [MemKernel.drop, MemKernel.opened_close, Finset.mem_erase, ne_eq, MemFile.fd_inj,
        hopen g, Option.some.injEq]
      constructor
      · rintro ⟨hne, hg | hg | hg | hg⟩
        exacts [.inl hg, absurd hg.symm hne, .inr (.inl hg), .inr (.inr hg)]
      · rintro (hg | rfl | ⟨j, hji, hj⟩)
        · exact ⟨fun e => hg₀B (e ▸ hg), .inl hg⟩
        · exact ⟨hfg₀, .inr (.inr (.inl rfl))⟩
        · exact ⟨fun e => (h.held j g hj).2.1 (by rw [hm, e]),
            .inr (.inr (.inr ⟨j, hji, hj⟩))⟩
  case cached_fresh => rw [mem_step, hnew, Option.some.injEq] at hg; exact hg ▸ hfB
  case held =>
    obtain ⟨hji, hj⟩ := hother j g hj
    obtain ⟨h1, -, h3⟩ := h.held j g hj
    refine ⟨h1, fun e => ?_, fun j' hj' => h3 j' (hother j' g hj').2⟩
    rw [mem_step, hnew, Option.some.injEq] at e
    exact hji (huniq j (e ▸ hj))
  case reading => rw [mem_step, hnew]; exact Option.some_ne_none f
  case access =>
    rw [mem_step, hnew] at hg
    rcases hg with hg | ⟨j, hj⟩
    · exact h.access f (.inr ⟨i, (Option.some.inj hg) ▸ hpc⟩)
    · exact h.access g (.inr ⟨j, (hother j g hj).2⟩)
  case memory => rw [kernel_step, hnew]; simpa using h.memory
  case done =>
    by_cases hji : j = i
    · subst hji; rw [hself] at hj; cases hj
    · rw [readers_step_ne c hji] at hj ⊢; exact h.done j r hj

/-- **One step of any reader keeps the invariant.** -/
theorem Owned.step (h : c.Owned k₀) (i : Fin n) : (c.step i).Owned k₀ := by
  have hkeep : ∀ pc, (c.readers i).step c.mem c.kernel = (c.mem, c.kernel, pc) →
      (∀ f, (c.readers i).pc ≠ .holding f) → (∀ f, pc ≠ .holding f) →
      (pc = .reading → c.mem ≠ none) →
      (∀ r, pc = .done r → r = firstRead k₀ (c.readers i).address (c.readers i).buf) →
      (c.step i).Owned k₀ := fun pc hs hold hnew hr hd => by
    rw [step_eq_move c i (by rw [hs]) (by rw [hs]), hs]
    exact h.move i pc hold hnew hr hd
  cases hpc : (c.readers i).pc with
  | start =>
    refine hkeep (if c.mem = none then .opening else .reading) (by simp [Reader.step, hpc])
      (by simp [hpc]) (fun f => by split <;> simp) (fun e => ?_)
      (fun r e => by split at e <;> cases e)
    split at e
    · cases e
    · assumption
  | opening =>
    cases hk : c.kernel.access
    · refine hkeep (.done none) (by simp [Reader.step, hpc, MemKernel.openMem, hk]) (by simp [hpc])
        (by simp) (by simp) fun r hr => ?_
      cases hr
      simp [firstRead, ← h.memory.2, hk]
    · exact h.step_open i hpc hk
  | holding f => exact h.step_store i hpc
  | reading =>
    obtain ⟨f, hf⟩ := Option.ne_none_iff_exists'.mp (h.reading i hpc)
    refine hkeep
      (.done (Process.readThrough c.mem c.kernel (c.readers i).address (c.readers i).buf))
      (by simp [Reader.step, hpc]) (by simp [hpc]) (by simp) (by simp) fun r hr => ?_
    cases hr
    rw [hf, readThrough_some, firstRead, if_pos (h.access f (.inl hf)),
      readable_congr h.memory.1]
  | done r =>
    exact hkeep (.done r) (by simp [Reader.step, hpc]) (by simp [hpc]) (by simp) (by simp)
      fun r' hr => (ReadPc.done.inj hr) ▸ h.done i r hpc

/-- A step moves only the program point of the reader that takes it. -/
theorem call_step (c : Config n) (i j : Fin n) :
    ((c.step i).readers j).address = (c.readers j).address ∧
      ((c.step i).readers j).buf = (c.readers j).buf := by
  by_cases hji : j = i
  · subst hji; rw [readers_step_self]; exact ⟨rfl, rfl⟩
  · rw [readers_step_ne c hji]; exact ⟨rfl, rfl⟩

@[simp] theorem schedule_nil (c : Config n) : c.schedule [] = c := rfl

@[simp] theorem schedule_cons (c : Config n) (i : Fin n) (is : List (Fin n)) :
    c.schedule (i :: is) = (c.step i).schedule is := rfl

/-- The reachable states of `n` first reads of `p`, over `k`. -/
def Reachable (p : Process) (k : MemKernel) (calls : Fin n → Nat × Bytes) (c : Config n) :
    Prop :=
  Relation.ReflTransGen Step (init p k calls) c

section Reachable

variable {p : Process} {k : MemKernel} {calls : Fin n → Nat × Bytes}

/-- **The invariant holds in every reachable state**, whatever the interleaving. -/
theorem owned_of_reachable (hp : p.mem = none) (hc : Reachable p k calls c) : c.Owned k := by
  induction hc with
  | refl => exact Owned.init p hp k calls
  | tail _ hs ih => obtain ⟨i, rfl⟩ := hs; exact ih.step i

/-- Each reader keeps its arguments along a run. -/
theorem call_of_reachable (hc : Reachable p k calls c) (j : Fin n) :
    (c.readers j).address = (calls j).1 ∧ (c.readers j).buf = (calls j).2 := by
  induction hc with
  | refl => exact ⟨rfl, rfl⟩
  | tail _ hs ih =>
    obtain ⟨i, rfl⟩ := hs
    rw [(call_step _ i j).1, (call_step _ i j).2]; exact ih

/-- Every schedule from a reachable state is a run. -/
theorem Reachable.schedule (hc : Reachable p k calls c) (is : List (Fin n)) :
    Reachable p k calls (c.schedule is) := by
  induction is generalizing c with
  | nil => exact hc
  | cons i is ih => exact ih (hc.tail ⟨i, rfl⟩)

/-- Every schedule from the start is a run. -/
theorem reachable_schedule (is : List (Fin n)) :
    Reachable p k calls ((init p k calls).schedule is) :=
  Reachable.schedule .refl is

/-- **No file is leaked, in any interleaving.** Once every reader has returned, the open
files are those open before the reads and the one channel the process keeps. -/
theorem opened_of_finished (hp : p.mem = none) (hc : Reachable p k calls c)
    (hdone : ∀ j, ∃ r, (c.readers j).pc = .done r) :
    c.kernel.opened = k.opened ∪ Process.cachedFile ⟨p.pid, c.mem⟩ := by
  have h := owned_of_reachable hp hc
  ext x
  have hx := h.opened_iff ⟨x⟩
  have hnone : ¬ ∃ j, (c.readers j).pc = .holding ⟨x⟩ := fun ⟨j, hj⟩ => by
    obtain ⟨r, hr⟩ := hdone j; rw [hr] at hj; cases hj
  simp only [hnone, or_false] at hx
  rw [hx, Finset.mem_union]
  cases hm : c.mem with
  | none => simp [Process.cachedFile, hm]
  | some f =>
    simp only [Process.cachedFile, hm, Finset.mem_singleton, Option.some.injEq]
    exact or_congr_right ⟨fun e => e ▸ rfl, fun e => by rw [e]⟩

/-- Two first reads of two bytes at `0x1000` that both open the file. -/
def twoReads : Config 2 :=
  (init ⟨0, none⟩ sampleKernel fun _ => (0x1000, [0, 0])).schedule [0, 1, 0, 1, 0, 1, 0, 1]

theorem opened_of_finished_twoReads :
    twoReads.kernel.opened = sampleKernel.opened ∪ Process.cachedFile ⟨0, twoReads.mem⟩ :=
  opened_of_finished rfl (reachable_schedule _) fun | 0 => ⟨_, rfl⟩ | 1 => ⟨_, rfl⟩

/-- A first read's result, run alone, is what `Process::read` returns on a process without a
channel. -/
theorem firstRead_eq_read (hp : p.mem = none) (address : Nat) (buf : Bytes) :
    firstRead k address buf = (p.read k address buf).1 := by
  rw [read_of_uncached p k hp, firstRead]
  split <;> rfl

/-- **Every read returns what it returns alone.** However the reads interleave, each one that
has returned returned what `Process::read` returns with no other reader about. -/
theorem read_of_finished (hp : p.mem = none) (hc : Reachable p k calls c) (j : Fin n)
    (r : Option Bytes) (hj : (c.readers j).pc = .done r) :
    r = (p.read k (calls j).1 (calls j).2).1 := by
  rw [(owned_of_reachable hp hc).done j r hj, (call_of_reachable hc j).1,
    (call_of_reachable hc j).2, firstRead_eq_read hp]

theorem read_of_finished_twoReads :
    some [0, 0] = (Process.read ⟨0, none⟩ sampleKernel 0x1000 [0, 0]).1 :=
  read_of_finished rfl
    (reachable_schedule _ :
      Reachable ⟨0, none⟩ sampleKernel (fun _ => (0x1000, [0, 0])) twoReads)
    1 (some [0, 0]) rfl

/-- A reader about to read through the channel finds one: the `None` branch of the read's
`as_mut()` is never taken. -/
theorem channel_of_reading (hp : p.mem = none) (hc : Reachable p k calls c) (j : Fin n)
    (hj : (c.readers j).pc = .reading) : c.mem ≠ none :=
  (owned_of_reachable hp hc).reading j hj

theorem channel_of_reading_sampleKernel :
    ((init ⟨0, none⟩ sampleKernel fun _ : Fin 1 => (0x1000, [0])).schedule [0, 0, 0]).mem ≠
      none :=
  channel_of_reading rfl (reachable_schedule _) 0 rfl

end Reachable

/-- **A reader run alone does what `Process::read` does**: within four of its own steps it
returns the result of `Process::read`, and leaves the channel and the kernel as it does. -/
theorem solo_read (c : Config n) (i : Fin n) (hpc : (c.readers i).pc = .start) (pid : PidT) :
    ((c.schedule [i, i, i, i]).readers i).pc =
        .done (Process.read ⟨pid, c.mem⟩ c.kernel (c.readers i).address (c.readers i).buf).1 ∧
      (c.schedule [i, i, i, i]).mem =
        (Process.read ⟨pid, c.mem⟩ c.kernel (c.readers i).address (c.readers i).buf).2.1.mem ∧
      (c.schedule [i, i, i, i]).kernel =
        (Process.read ⟨pid, c.mem⟩ c.kernel (c.readers i).address (c.readers i).buf).2.2 := by
  cases hm : c.mem with
  | some f =>
    rw [read_of_cached ⟨pid, some f⟩ c.kernel f rfl]
    simp [step, Reader.step, hpc, hm, readThrough_some]
  | none =>
    rw [read_of_uncached ⟨pid, none⟩ c.kernel rfl]
    cases hk : c.kernel.access <;>
      simp [step, Reader.step, hpc, hm, hk, MemKernel.openMem, MemKernel.drop, readThrough_some,
        MemKernel.readable]

end Config

/-! ## Bounds over every interleaving

`Process::read` has no retry loop: whatever the other threads do between its two critical
sections, a read takes the test, at most one open, at most one store, and the read. So each
reader opens the file at most once, holds at most one file of its own, and returns within four
of its own steps. -/

namespace ReadPc

/-- The most steps a reader at this point takes before it returns: four from the start (the
test, the open, the store and the read), two when the test finds a channel. -/
def stepsLeft : ReadPc → Nat
  | .start => 4
  | .opening => 3
  | .holding _ => 2
  | .reading => 1
  | .done _ => 0

/-- The opens of `/proc/<pid>/mem` a reader at this point may still make: one before the open,
none after it. -/
def opensLeft : ReadPc → Nat
  | .start | .opening => 1
  | _ => 0

/-- Whether the reader is past the point where it stores a file: about to read through the
channel, or returned. -/
def pastStore : ReadPc → Bool
  | .reading | .done _ => true
  | _ => false

theorem eq_done_of_stepsLeft {pc : ReadPc} (h : pc.stepsLeft = 0) : ∃ r, pc = .done r := by
  cases pc <;> simp_all [stepsLeft]

theorem stepsLeft_le (pc : ReadPc) : pc.stepsLeft ≤ 4 := by
  cases pc <;> simp [stepsLeft]

end ReadPc

namespace Reader

variable (r : Reader) (mem : Option MemFile) (k : MemKernel)

/-- Each step of a reader brings it one step nearer to returning. -/
theorem stepsLeft_step : (r.step mem k).2.2.stepsLeft ≤ r.pc.stepsLeft - 1 := by
  simp only [step]
  split <;> (try split) <;> simp [ReadPc.stepsLeft, *]

/-- A step opens a file only by using up the reader's one open. -/
theorem nextFile_step :
    (r.step mem k).2.1.nextFile + (r.step mem k).2.2.opensLeft ≤ k.nextFile + r.pc.opensLeft := by
  rcases r with ⟨address, buf, _ | _ | f | _ | result⟩
  · simp only [step]; split <;> simp [ReadPc.opensLeft]
  · cases hk : k.access <;> simp [step, MemKernel.openMem, hk, ReadPc.opensLeft]
  all_goals simp [step, ReadPc.opensLeft]

/-- A step keeps the channel, or is the store, which leaves the reader about to read. -/
theorem mem_step_or : (r.step mem k).1 = mem ∨ (r.step mem k).2.2 = .reading := by
  simp only [step]
  split <;> (try split) <;> simp

@[simp] theorem access_step : (r.step mem k).2.1.access = k.access := by
  rcases r with ⟨address, buf, _ | _ | f | _ | result⟩ <;> cases hk : k.access <;>
    simp [step, MemKernel.openMem, hk]

theorem nextFile_le_step : k.nextFile ≤ (r.step mem k).2.1.nextFile := by
  rcases r with ⟨address, buf, _ | _ | f | _ | result⟩ <;> cases hk : k.access <;>
    simp [step, MemKernel.openMem, hk]

/-- With access, a reader between its test and its open opens a file at its step: the count
of such readers falls only as the opens rise. -/
theorem nextFile_step_opening (hk : k.access = true) :
    k.nextFile + (if r.pc = .opening then 1 else 0) ≤
      (r.step mem k).2.1.nextFile + if (r.step mem k).2.2 = .opening then 1 else 0 := by
  rcases r with ⟨address, buf, _ | _ | f | _ | result⟩ <;> simp [step, MemKernel.openMem, hk]

theorem pastStore_step (h : r.pc.pastStore) : (r.step mem k).2.2.pastStore := by
  rcases r with ⟨address, buf, _ | _ | f | _ | result⟩ <;> simp_all [step, ReadPc.pastStore]

end Reader

namespace Config

variable {n : Nat}

/-- A step moves the measure of the reader that takes it and no other's. -/
theorem sum_step (g : Fin n → Reader → Nat) (c : Config n) (i : Fin n) :
    ∑ j, g j ((c.step i).readers j) + g i (c.readers i) =
      ∑ j, g j (c.readers j) + g i ((c.step i).readers i) := by
  rw [← Finset.add_sum_erase _ _ (Finset.mem_univ i),
    ← Finset.add_sum_erase _ _ (Finset.mem_univ i),
    Finset.sum_congr rfl fun j hj => congrArg (g j) (readers_step_ne c (Finset.ne_of_mem_erase hj))]
  omega

/-- Over a schedule, each of a reader's own steps brings it one step nearer to returning, and
the others' steps leave it where it is. -/
theorem stepsLeft_schedule (c : Config n) (is : List (Fin n)) (j : Fin n) :
    ((c.schedule is).readers j).pc.stepsLeft ≤ (c.readers j).pc.stepsLeft - is.count j := by
  induction is generalizing c with
  | nil => simp
  | cons i is ih =>
    have hstep : ((c.step i).readers j).pc.stepsLeft ≤
        (c.readers j).pc.stepsLeft - if i = j then 1 else 0 := by
      by_cases hji : j = i
      · subst hji; rw [readers_step_self, if_pos rfl]; exact Reader.stepsLeft_step ..
      · rw [readers_step_ne c hji, if_neg (Ne.symm hji)]; rfl
    have := ih (c.step i)
    rw [schedule_cons, List.count_cons]
    simp only [beq_iff_eq]
    split_ifs at hstep ⊢ <;> omega

/-- No step makes more opens than it uses up. -/
theorem nextFile_step (c : Config n) (i : Fin n) :
    (c.step i).kernel.nextFile + ∑ j, ((c.step i).readers j).pc.opensLeft ≤
      c.kernel.nextFile + ∑ j, (c.readers j).pc.opensLeft := by
  have hsum := sum_step (fun _ r => r.pc.opensLeft) c i
  have hi := Reader.nextFile_step (c.readers i) c.mem c.kernel
  rw [readers_step_self] at hsum
  simp only [kernel_step] at hsum ⊢
  omega

/-- The file reader `j` answers for: the one it holds between its open and its store, or the
channel once it is past the store. -/
def fileOf (c : Config n) (j : Fin n) : Option MemFile :=
  match (c.readers j).pc with
  | .holding f => some f
  | pc => if pc.pastStore then c.mem else none

theorem fileOf_of_holding {c : Config n} {j : Fin n} {f : MemFile}
    (h : (c.readers j).pc = .holding f) : c.fileOf j = some f := by
  simp [fileOf, h]

theorem fileOf_of_pastStore {c : Config n} {j : Fin n} (h : (c.readers j).pc.pastStore) :
    c.fileOf j = c.mem := by
  unfold fileOf; split <;> simp_all [ReadPc.pastStore]

section Reachable

variable {p : Process} {k : MemKernel} {calls : Fin n → Nat × Bytes} {c : Config n}

/-- Once there is a channel, some reader is past its store: the last reader that stored one,
if no other. -/
theorem pastStore_of_reachable (hp : p.mem = none) (hc : Reachable p k calls c)
    (hm : c.mem ≠ none) : ∃ j, (c.readers j).pc.pastStore := by
  induction hc with
  | refl => simp [init, hp] at hm
  | @tail b _ _ hs ih =>
    obtain ⟨i, rfl⟩ := hs
    rcases Reader.mem_step_or (b.readers i) b.mem b.kernel with h | h
    · obtain ⟨j, hj⟩ := ih (by rwa [mem_step, h] at hm)
      by_cases hji : j = i
      · subst hji
        exact ⟨j, by rw [readers_step_self]; exact Reader.pastStore_step _ _ _ hj⟩
      · exact ⟨j, by rwa [readers_step_ne b hji]⟩
    · exact ⟨i, by rw [readers_step_self, h]; rfl⟩

/-- **At most one file per reader is open, the channel included.** At every point of every
interleaving of `n` first reads, the reads have at most `n` files of `/proc/<pid>/mem` open:
the files opened and not yet stored, one per reader at most, and the channel, which a reader
past its store answers for. Two readers both between their open and their store reach the
bound. -/
theorem opened_card_le (hp : p.mem = none) (hc : Reachable p k calls c) :
    (c.kernel.opened \ k.opened).card ≤ n := by
  have h := owned_of_reachable hp hc
  have hmaps : ∀ x ∈ c.kernel.opened \ k.opened,
      some (⟨x⟩ : MemFile) ∈ Finset.univ.image c.fileOf := fun x hx => by
    rw [Finset.mem_sdiff] at hx
    rcases (h.opened_iff ⟨x⟩).mp hx.1 with hk | hm | ⟨j, hj⟩
    · exact absurd hk hx.2
    · obtain ⟨j, hj⟩ := pastStore_of_reachable hp hc (by rw [hm]; exact Option.some_ne_none _)
      exact Finset.mem_image.mpr ⟨j, Finset.mem_univ j, (fileOf_of_pastStore hj).trans hm⟩
    · exact Finset.mem_image.mpr ⟨j, Finset.mem_univ j, fileOf_of_holding hj⟩
  calc (c.kernel.opened \ k.opened).card
      ≤ (Finset.univ.image c.fileOf).card :=
        Finset.card_le_card_of_injOn _ hmaps fun x _ y _ e => by simpa using e
    _ ≤ n := Finset.card_image_le.trans (by simp)

/-- Two readers both between their open and their store reach the bound. -/
theorem opened_card_le_bothHolding :
    (((init ⟨0, none⟩ sampleKernel fun _ : Fin 2 => (0x1000, [0])).schedule
        [0, 1, 0, 1]).kernel.opened \ sampleKernel.opened).card ≤ 2 ∧
      (((init ⟨0, none⟩ sampleKernel fun _ : Fin 2 => (0x1000, [0])).schedule
        [0, 1, 0, 1]).kernel.opened \ sampleKernel.opened).card = 2 :=
  ⟨opened_card_le rfl (reachable_schedule _), by decide⟩

/-- The opens still to come and the opens made never exceed one per reader. -/
theorem nextFile_add_opensLeft_le (hc : Reachable p k calls c) :
    c.kernel.nextFile + ∑ j, (c.readers j).pc.opensLeft ≤ k.nextFile + n := by
  induction hc with
  | refl => simp [init, ReadPc.opensLeft]
  | tail _ hs ih => obtain ⟨i, rfl⟩ := hs; exact (nextFile_step _ i).trans ih

/-- **`/proc/<pid>/mem` is opened at most once per reader.** Over every interleaving of `n`
reads, each open takes the next file number, and at most `n` are taken. With a channel
already there, no open is made at all. Readers that all pass the test before any store take
one each, see `opens_of_opening`. -/
theorem nextFile_le (hc : Reachable p k calls c) : c.kernel.nextFile ≤ k.nextFile + n :=
  (Nat.le_add_right _ _).trans (nextFile_add_opensLeft_le hc)

theorem nextFile_le_twoReads : twoReads.kernel.nextFile ≤ sampleKernel.nextFile + 2 :=
  nextFile_le
    (reachable_schedule _ :
      Reachable ⟨0, none⟩ sampleKernel (fun _ => (0x1000, [0, 0])) twoReads)

end Reachable

/-- The readers of `S` between their test and their open. -/
def opening (c : Config n) (S : Finset (Fin n)) : Nat :=
  ∑ j, if j ∈ S ∧ (c.readers j).pc = .opening then 1 else 0

/-- While access holds, the opens made and the readers of `S` still to open never fall. -/
theorem nextFile_add_opening_step (c : Config n) (S : Finset (Fin n)) (i : Fin n)
    (hk : c.kernel.access = true) :
    c.kernel.nextFile + c.opening S ≤ (c.step i).kernel.nextFile + (c.step i).opening S := by
  have hsum := sum_step (fun j r => if j ∈ S ∧ r.pc = .opening then 1 else 0) c i
  have hi := Reader.nextFile_step_opening (c.readers i) c.mem c.kernel hk
  have hle := Reader.nextFile_le_step (c.readers i) c.mem c.kernel
  rw [readers_step_self] at hsum
  simp only [opening, kernel_step] at hsum hi ⊢
  by_cases hS : i ∈ S
  · simp only [hS, true_and] at hsum
    omega
  · simp only [hS, false_and, if_false] at hsum
    omega

theorem nextFile_add_opening_schedule (c : Config n) (S : Finset (Fin n)) (is : List (Fin n))
    (hk : c.kernel.access = true) :
    c.kernel.nextFile + c.opening S ≤
      (c.schedule is).kernel.nextFile + (c.schedule is).opening S := by
  induction is generalizing c with
  | nil => exact le_rfl
  | cons i is ih =>
    have hk' : (c.step i).kernel.access = true := by
      rw [kernel_step, Reader.access_step, hk]
    exact (nextFile_add_opening_step c S i hk).trans (ih (c.step i) hk')

/-- **Every reader that has passed the test without a channel opens the file.** From any
state in which the readers of `S` have each found no channel and not yet opened the file,
every schedule in which each of them steps opens the file at least once for each of them,
whatever the other readers do in between, as long as the debugger may open it. So readers
that all pass the test before any of them stores open the file once each. -/
theorem opens_of_opening (c : Config n) (S : Finset (Fin n))
    (hS : ∀ j ∈ S, (c.readers j).pc = .opening) (hk : c.kernel.access = true)
    (is : List (Fin n)) (his : ∀ j ∈ S, j ∈ is) :
    c.kernel.nextFile + S.card ≤ (c.schedule is).kernel.nextFile := by
  have hstart : c.opening S = S.card := by
    rw [Finset.card_eq_sum_ones, ← Fintype.sum_ite_mem]
    exact Finset.sum_congr rfl fun j _ => by by_cases hj : j ∈ S <;> simp [hj, hS j]
  have hend : (c.schedule is).opening S = 0 := Finset.sum_eq_zero fun j _ => by
    refine if_neg fun ⟨hj, hpc⟩ => ?_
    have hle := stepsLeft_schedule c is j
    have hpos := List.count_pos_iff.mpr (his j hj)
    rw [hpc, hS j hj] at hle
    simp only [ReadPc.stepsLeft] at hle
    omega
  have := nextFile_add_opening_schedule c S is hk
  omega

theorem opens_of_opening_firstReads :
    ((init ⟨0, none⟩ sampleKernel fun _ : Fin 2 => (0x1000, [0])).schedule [0, 1]).kernel.nextFile +
        (Finset.univ : Finset (Fin 2)).card ≤
      (((init ⟨0, none⟩ sampleKernel fun _ : Fin 2 => (0x1000, [0])).schedule [0, 1]).schedule
        [1, 0]).kernel.nextFile :=
  opens_of_opening _ Finset.univ (by decide) rfl [1, 0] (by decide)

section Reachable

variable {p : Process} {k : MemKernel} {calls : Fin n → Nat × Bytes} {c : Config n}

/-- **Every read returns within four of its own steps, whatever the others do.** From any
state of any interleaving of first reads, a schedule in which reader `j` takes four steps,
interleaved with any steps of the others, leaves reader `j` returned. It returns what
`Process::read` returns with no other reader about. -/
theorem done_of_four_steps (hp : p.mem = none) (hc : Reachable p k calls c) (is : List (Fin n))
    (j : Fin n) (h4 : 4 ≤ is.count j) :
    ((c.schedule is).readers j).pc = .done (p.read k (calls j).1 (calls j).2).1 := by
  have hc' := hc.schedule is
  have hleft : ((c.schedule is).readers j).pc.stepsLeft = 0 := by
    have := stepsLeft_schedule c is j
    have := (c.readers j).pc.stepsLeft_le
    omega
  obtain ⟨r, hr⟩ := ReadPc.eq_done_of_stepsLeft hleft
  rw [hr, (owned_of_reachable hp hc').done j r hr, (call_of_reachable hc' j).1,
    (call_of_reachable hc' j).2, firstRead_eq_read hp]

theorem done_of_four_steps_interleaved :
    (((init ⟨0, none⟩ sampleKernel fun _ : Fin 2 => (0x1000, [0])).schedule
        [0, 1, 1, 0, 1, 1, 0]).readers 1).pc =
      .done (Process.read ⟨0, none⟩ sampleKernel 0x1000 [0]).1 :=
  done_of_four_steps rfl .refl _ 1 (by decide)

end Reachable

end Config

end Udbg.Nix
