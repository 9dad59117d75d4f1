import Mathlib.Data.Finset.Basic

/-!
# Kernel handles

`Handle` (`src/os/windows/mod.rs`) owns a kernel handle and closes it when dropped;
`Handle::clone` asks `DuplicateHandle` for a second, independent handle to the same object.
The kernel side is the handle table of the debugger process: the values of the open
handles, and the value the next one gets.

Every `Handle` value owns its handle: values are made from handles the kernel has just opened,
`Clone for Handle` (and so the derived `Clone for Process`) duplicates into a new handle or
panics, and dropping a value closes its handle. Over any run of these operations the open
handles are those owned elsewhere plus exactly one per live value, so each drop closes a
handle that no other value holds, and closes it once.

## Main definitions

* `HandleTable`, `HandleTable.alloc`, `HandleTable.close`
* `Handle`, `Handle.drop`, `Handle.clone`, `Clone.clone`
* `Owners`, `HandleOp`, `Owners.step`, `Owners.run`: the values that own handles, and what the
  code does with them
* `Owners.Exclusive`: one open handle per live value, none shared

## Main results

* `HandleTable.close_alloc`: closing the handle just opened gives the table back
* `run_exclusive`: every run keeps `Owners.Exclusive`
* `drop_closes_once`: a drop closes its value's handle, which no live value holds afterwards
-/

namespace Udbg.Windows

/-- `INVALID_HANDLE_VALUE`, the pointer `-1`. -/
def INVALID_HANDLE_VALUE : Nat := 2 ^ 64 - 1

/-- The handle table of the debugger process. The kernel never hands out a value that is
open, nor a null one. -/
structure HandleTable where
  opened : Finset Nat
  next : Nat
  bounds : ∀ h ∈ opened, 0 < h ∧ h < next
  next_pos : 0 < next

namespace HandleTable

/-- The kernel opens a handle: the next value, now open. -/
def alloc (t : HandleTable) : Nat × HandleTable :=
  (t.next, ⟨insert t.next t.opened, t.next + 4, fun h hh => by
    rcases Finset.mem_insert.mp hh with rfl | hh
    · exact ⟨t.next_pos, by omega⟩
    · have := t.bounds h hh; omega, by omega⟩)

/-- `CloseHandle`: the value is no longer open; closing a value that is not open changes
nothing. -/
def close (t : HandleTable) (h : Nat) : HandleTable :=
  ⟨t.opened.erase h, t.next, fun x hx => t.bounds x (Finset.mem_of_mem_erase hx), t.next_pos⟩

@[simp] theorem opened_alloc (t : HandleTable) : t.alloc.2.opened = insert t.next t.opened := rfl

@[simp] theorem fst_alloc (t : HandleTable) : t.alloc.1 = t.next := rfl

@[simp] theorem next_alloc (t : HandleTable) : t.alloc.2.next = t.next + 4 := rfl

@[simp] theorem opened_close (t : HandleTable) (h : Nat) :
    (t.close h).opened = t.opened.erase h := rfl

@[simp] theorem next_close (t : HandleTable) (h : Nat) : (t.close h).next = t.next := rfl

theorem next_not_mem (t : HandleTable) : t.next ∉ t.opened := fun h => by
  have := t.bounds _ h; omega

/-- Closing the handle just opened gives the open handles back. -/
theorem close_alloc (t : HandleTable) : (t.alloc.2.close t.alloc.1).opened = t.opened := by
  simp [Finset.erase_insert (next_not_mem t)]

end HandleTable

/-- `Handle`: an owned kernel handle. -/
structure Handle where
  raw : Nat
  deriving DecidableEq, Repr

/-- `Handle::is_valid`. -/
def Handle.isValid (h : Handle) : Bool := h.raw != INVALID_HANDLE_VALUE

/-- `Handle::success`: valid and not null. -/
def Handle.success (h : Handle) : Bool := h.isValid && h.raw != 0

/-- `Drop for Handle`: `CloseHandle`. -/
def Handle.drop (t : HandleTable) (h : Handle) : HandleTable := t.close h.raw

/-- `Handle::clone`: `DuplicateHandle` into a new handle when the kernel grants it (`grant`),
the last OS error otherwise. -/
def Handle.clone (t : HandleTable) (_ : Handle) (grant : Bool) :
    Except Unit Handle × HandleTable :=
  if grant then (.ok ⟨t.alloc.1⟩, t.alloc.2) else (.error (), t)

/-- The handle table of a debugger with handle `4` open. -/
def oneHandle : HandleTable := ⟨{4}, 8, by decide, by decide⟩

/-! ## Ownership of handles -/

/-- `Clone for Handle`: `Handle::clone(self).expect("clone")`, which panics, its message
starting with `clone`, when `DuplicateHandle` fails. -/
def Clone.clone (t : HandleTable) (h : Handle) (grant : Bool) :
    Except String Handle × HandleTable :=
  match Handle.clone t h grant with
  | (.ok c, t') => (.ok c, t')
  | (.error _, t') => (.error "clone", t')

/-- The values that own a handle (a `Handle` on its own, in a `Process` or in a
`ToolHelperIter`), over the handle table of the debugger. -/
structure Owners where
  table : HandleTable
  live : List Handle

/-- What the code does with handles: a new value takes a handle the kernel has just opened
(`from_raw_handle` after `OpenProcess`, `CreateToolhelp32Snapshot` and the like), a live value
is cloned (`Clone for Handle`, and so `Clone for Process`), or a live value is dropped. -/
inductive HandleOp
  | adopt
  | clone (h : Handle) (grant : Bool)
  | drop (h : Handle)

/-- One operation; a clone that panics unwinds with nothing new owned. -/
def Owners.step (s : Owners) : HandleOp → Owners
  | .adopt => ⟨s.table.alloc.2, s.live ++ [⟨s.table.alloc.1⟩]⟩
  | .clone h grant =>
    if h ∈ s.live then
      match Clone.clone s.table h grant with
      | (.ok c, t) => ⟨t, s.live ++ [c]⟩
      | (.error _, t) => ⟨t, s.live⟩
    else s
  | .drop h => if h ∈ s.live then ⟨Handle.drop s.table h, s.live.erase h⟩ else s

/-- A run of operations. -/
def Owners.run (s : Owners) (ops : List HandleOp) : Owners := ops.foldl Owners.step s

/-- The discipline of `Handle`: the open handles are those of `base`, owned outside the
values, and one per live value; no two live values hold the same handle, and none holds one
of `base`. -/
structure Owners.Exclusive (base : Finset Nat) (s : Owners) : Prop where
  opened_iff : ∀ x, x ∈ s.table.opened ↔ x ∈ base ∨ (⟨x⟩ : Handle) ∈ s.live
  nodup : s.live.Nodup
  disjoint : ∀ h ∈ s.live, h.raw ∉ base

section Exclusive

variable {base : Finset Nat} {s : Owners}

/-- A value that takes the handle the kernel opens next keeps the discipline. -/
theorem Owners.Exclusive.alloc (hs : s.Exclusive base) :
    (Owners.mk s.table.alloc.2 (s.live ++ [⟨s.table.alloc.1⟩])).Exclusive base := by
  have hfresh := s.table.next_not_mem
  have hnot : (⟨s.table.next⟩ : Handle) ∉ s.live := fun h =>
    hfresh ((hs.opened_iff _).mpr (.inr h))
  refine ⟨fun x => ?_, ?_, fun h hh => ?_⟩
  · simp only [HandleTable.opened_alloc, HandleTable.fst_alloc, Finset.mem_insert,
      hs.opened_iff, List.mem_append, List.mem_singleton, Handle.mk.injEq]
    exact or_comm.trans or_assoc
  · exact List.nodup_append.mpr ⟨hs.nodup, List.nodup_singleton _, by simpa using hnot⟩
  · rcases List.mem_append.mp hh with hh | hh
    · exact hs.disjoint h hh
    · rw [List.mem_singleton.mp hh]
      exact fun hb => hfresh ((hs.opened_iff _).mpr (.inl hb))

/-- Dropping a live value keeps the discipline. -/
theorem Owners.Exclusive.drop (hs : s.Exclusive base) {h : Handle} (hh : h ∈ s.live) :
    (Owners.mk (Handle.drop s.table h) (s.live.erase h)).Exclusive base := by
  refine ⟨fun x => ?_, hs.nodup.erase h, fun g hg => hs.disjoint g (List.mem_of_mem_erase hg)⟩
  simp only [Handle.drop, HandleTable.opened_close, Finset.mem_erase, hs.opened_iff,
    hs.nodup.mem_erase_iff]
  constructor
  · rintro ⟨hne, hx | hx⟩
    · exact .inl hx
    · exact .inr ⟨fun e => hne (by subst e; rfl), hx⟩
  · rintro (hx | ⟨hne, hx⟩)
    · exact ⟨fun e => hs.disjoint h hh (e ▸ hx), .inl hx⟩
    · exact ⟨fun e => hne (by subst e; rfl), .inr hx⟩

/-- **Every operation keeps the discipline.** -/
theorem Owners.Exclusive.step (hs : s.Exclusive base) (op : HandleOp) :
    (s.step op).Exclusive base := by
  cases op with
  | adopt => exact hs.alloc
  | clone h grant =>
    simp only [Owners.step]
    split_ifs with hh
    · cases grant
      · exact hs
      · exact hs.alloc
    · exact hs
  | drop h =>
    simp only [Owners.step]
    split_ifs with hh
    · exact hs.drop hh
    · exact hs

/-- **The discipline holds along every run**: whatever the code does with its handles, the
open handles are those owned elsewhere and one per live value, never shared. -/
theorem run_exclusive (base : Finset Nat) (s : Owners) (hs : s.Exclusive base)
    (ops : List HandleOp) : (s.run ops).Exclusive base := by
  induction ops generalizing s with
  | nil => exact hs
  | cons op ops ih => exact ih _ (hs.step op)

/-- **A drop closes its handle exactly once.** Dropping a live value closes a handle that was
open and that no live value holds afterwards, so no later drop closes it again; the handle of
every value still live stays open. -/
theorem drop_closes_once (base : Finset Nat) (s : Owners) (hs : s.Exclusive base) (h : Handle)
    (hh : h ∈ s.live) :
    h.raw ∈ s.table.opened ∧ h.raw ∉ (s.step (.drop h)).table.opened ∧
      h ∉ (s.step (.drop h)).live ∧
      ∀ g ∈ (s.step (.drop h)).live, g.raw ∈ (s.step (.drop h)).table.opened := by
  have hstep : s.step (.drop h) = ⟨Handle.drop s.table h, s.live.erase h⟩ := if_pos hh
  rw [hstep]
  exact ⟨(hs.opened_iff _).mpr (.inr hh), Finset.not_mem_erase _ _, hs.nodup.not_mem_erase,
    fun g hg => ((hs.drop hh).opened_iff g.raw).mpr (.inr hg)⟩

end Exclusive

/-- The debugger of `oneHandle`, whose handle `4` no value owns, keeps the discipline. -/
theorem oneHandle_exclusive : (Owners.mk oneHandle []).Exclusive {4} :=
  ⟨fun x => by simp [oneHandle], List.nodup_nil, fun _ h => by cases h⟩

/-- Open a handle, clone it, and drop the original. -/
def cloneDropRun : List HandleOp := [.adopt, .clone ⟨8⟩ true, .drop ⟨8⟩]

theorem run_exclusive_cloneDrop :
    ((Owners.mk oneHandle []).run cloneDropRun).Exclusive {4} :=
  run_exclusive {4} ⟨oneHandle, []⟩ oneHandle_exclusive cloneDropRun

theorem drop_closes_once_adopted :
    (8 : Nat) ∉ (((Owners.mk oneHandle []).step .adopt).step (.drop ⟨8⟩)).table.opened :=
  (drop_closes_once {4} _ (oneHandle_exclusive.step .adopt) ⟨8⟩ (by decide)).2.1

end Udbg.Windows
