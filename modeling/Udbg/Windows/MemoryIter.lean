import Udbg.Windows.Memory
import Mathlib.Tactic.Set

/-!
# The memory-map iterator

`MemoryIter` (`src/os/windows/mod.rs`) walks a target's address space with `VirtualQueryEx`:
each call of `next` queries the probe address and, when a region comes back, advances the
probe by the region's size. `Process::enum_memory(s)` starts the probe at `s`, which need
not be page-aligned, while every region the query returns starts at a page boundary; so the
probe keeps the offset of `s` within its page. It never leaves the page that starts the next
region, so the walk still visits every region once, in order, and stops after the region
ending at the user-address limit.

The address space is given as `VirtualQueryEx` documents it (`AddressSpace`): a page size,
a user-address limit, and the attributes of each page; a query below the limit returns the
page-aligned base and the maximal run of identically attributed pages from it.

## Main definitions

* `AddressSpace`, `AddressSpace.virtualQueryEx`, `Process.virtualQuery`
* `MemoryIter.next`, `Process.enumMemory`
* `Decomposition`: the maximal-run decomposition of an address range
* `MemoryIter.nextWhere`, `MemoryIter.nextCommit`: the loop of `next_commit`, which skips the
  regions that are not committed

## Main results

* `Decomposition.unique`: an address range has one maximal-run decomposition
* `Decomposition.end_le_base`: its regions do not overlap and come in increasing order
* `enumMemory_decomposition`: `enum_memory(s)` yields exactly the decomposition of
  `[s rounded down, limit)`, then nothing, and its probe never overflows
* `enumMemory_nextCommit`: `next_commit` returns exactly the committed regions of that
  decomposition, in order, then nothing
-/

namespace Udbg.Windows

/-- The fields of `MEMORY_BASIC_INFORMATION` that describe a page rather than a region. -/
structure PageAttr where
  allocationBase : Nat
  allocationProtect : UInt32
  state : UInt32
  protect : UInt32
  type_ : UInt32
  deriving DecidableEq, Repr

/-- `MEMORY_BASIC_INFORMATION`. -/
structure MemoryBasicInformation where
  baseAddress : Nat
  allocationBase : Nat
  allocationProtect : UInt32
  regionSize : Nat
  state : UInt32
  protect : UInt32
  type_ : UInt32
  deriving DecidableEq, Repr

/-- `MemoryPage`, with the fields `From<&MEMORY_BASIC_INFORMATION>` sets. -/
structure MemoryPage where
  base : Nat
  allocBase : Nat
  size : Nat
  type_ : UInt32
  state : UInt32
  protect : UInt32
  allocProtect : UInt32
  deriving DecidableEq, Repr

/-- `From<&MEMORY_BASIC_INFORMATION> for MemoryPage`. -/
def MemoryPage.ofMbi (mbi : MemoryBasicInformation) : MemoryPage where
  base := mbi.baseAddress
  allocBase := mbi.allocationBase
  size := mbi.regionSize
  type_ := mbi.type_
  state := mbi.state
  protect := mbi.protect
  allocProtect := mbi.allocationProtect

/-- The page attributes a region reports. -/
def MemoryPage.attr (m : MemoryPage) : PageAttr :=
  ⟨m.allocBase, m.allocProtect, m.state, m.protect, m.type_⟩

/-- A target's address space: `usize` is `width` bits, pages are `pageSize` bytes, user
addresses end at `limit`, and page number `i` has attributes `attr i`. -/
structure AddressSpace where
  width : Nat
  pageSize : Nat
  limit : Nat
  attr : Nat → PageAttr
  pageSize_pos : 0 < pageSize
  pageSize_dvd : pageSize ∣ limit
  limit_add_le : limit + pageSize ≤ 2 ^ width

namespace AddressSpace

variable (sp : AddressSpace)

/-- The pages from page `i` on, at most `n` of them, that have the attributes `a`, up to the
first that does not. -/
def runLength (a : PageAttr) (i : Nat) : Nat → Nat
  | 0 => 0
  | n + 1 => if sp.attr i = a then runLength a (i + 1) n + 1 else 0

/-- The information `VirtualQueryEx` reports for the region from page `i`: its base, the
run of pages from `i` with the attributes of page `i`, and those attributes. -/
def mbiAt (i : Nat) : MemoryBasicInformation where
  baseAddress := i * sp.pageSize
  allocationBase := (sp.attr i).allocationBase
  allocationProtect := (sp.attr i).allocationProtect
  regionSize := sp.runLength (sp.attr i) i (sp.limit / sp.pageSize - i) * sp.pageSize
  state := (sp.attr i).state
  protect := (sp.attr i).protect
  type_ := (sp.attr i).type_

/-- `VirtualQueryEx` at address `a`, as documented: below the limit, the region from `a`'s
page to the end of the run of pages with the same attributes. -/
def virtualQueryEx (a : Nat) : Option MemoryBasicInformation :=
  if a < sp.limit then some (sp.mbiAt (a / sp.pageSize)) else none

end AddressSpace

/-- `Process::virtual_query`: `None` when `VirtualQueryEx` returns `0`. -/
def Process.virtualQuery (sp : AddressSpace) (address : Nat) : Option MemoryPage :=
  (sp.virtualQueryEx address).map MemoryPage.ofMbi

/-- `MemoryIter`: the probe address. -/
structure MemoryIter where
  address : Nat
  deriving DecidableEq, Repr

/-- `Process::enum_memory`. -/
def Process.enumMemory (address : Nat) : MemoryIter := ⟨address⟩

/-- `Iterator::next` for `MemoryIter`: query the probe, and advance it by the size of the
region found. -/
def MemoryIter.next (sp : AddressSpace) (it : MemoryIter) : Option MemoryPage × MemoryIter :=
  let result := Process.virtualQuery sp it.address
  match result with
  | some m => (result, ⟨wrappingAdd sp.width it.address m.size⟩)
  | none => (result, it)

/-- The iterator after `k` calls of `next`. -/
def MemoryIter.advance (sp : AddressSpace) : Nat → MemoryIter → MemoryIter
  | 0, it => it
  | k + 1, it => MemoryIter.advance sp k (it.next sp).2

/-! ## The maximal-run decomposition -/

/-- Region `r` is the maximal run of identically attributed pages from address `b`: it starts
at `b`, is a positive number of pages, ends by the limit, has the attributes of each of its
pages, and the page after it, if any, has others. -/
structure IsMaximalRun (sp : AddressSpace) (b : Nat) (r : MemoryPage) : Prop where
  base_eq : r.base = b
  base_dvd : sp.pageSize ∣ b
  size_pos : 0 < r.size
  size_dvd : sp.pageSize ∣ r.size
  end_le : b + r.size ≤ sp.limit
  uniform : ∀ a, b ≤ a → a < b + r.size → sp.attr (a / sp.pageSize) = r.attr
  maximal : b + r.size < sp.limit → sp.attr ((b + r.size) / sp.pageSize) ≠ r.attr

/-- `rs` is the maximal-run decomposition of `[b, limit)`, in address order: each region is
the maximal run from where the previous one ends. -/
inductive Decomposition (sp : AddressSpace) : Nat → List MemoryPage → Prop
  | nil : Decomposition sp sp.limit []
  | cons {b : Nat} {r : MemoryPage} {rs : List MemoryPage} :
      IsMaximalRun sp b r → Decomposition sp (b + r.size) rs → Decomposition sp b (r :: rs)

theorem MemoryPage.ext_attr {m m' : MemoryPage} (hb : m.base = m'.base) (hs : m.size = m'.size)
    (ha : m.attr = m'.attr) : m = m' := by
  cases m; cases m'
  simp only [MemoryPage.attr, PageAttr.mk.injEq] at ha hb hs
  simp [ha, hb, hs]

/-- Two maximal runs from one address are the same region. -/
theorem IsMaximalRun.unique {sp : AddressSpace} {b : Nat} {r r' : MemoryPage}
    (h : IsMaximalRun sp b r) (h' : IsMaximalRun sp b r') : r = r' := by
  have hattr : r.attr = r'.attr := by
    rw [← h.uniform b le_rfl (by have := h.size_pos; omega),
      h'.uniform b le_rfl (by have := h'.size_pos; omega)]
  have shorter : ∀ {r r' : MemoryPage}, IsMaximalRun sp b r → IsMaximalRun sp b r' →
      r.attr = r'.attr → ¬ r.size < r'.size := fun h h' ha hlt =>
    h.maximal (by have := h'.end_le; omega) <|
      (h'.uniform _ (by omega) (by omega)).trans ha.symm
  refine MemoryPage.ext_attr (h.base_eq.trans h'.base_eq.symm) ?_ hattr
  have := shorter h h' hattr
  have := shorter h' h hattr.symm
  omega

/-- **An address range has one maximal-run decomposition.** -/
theorem Decomposition.unique {sp : AddressSpace} {b : Nat} {rs rs' : List MemoryPage}
    (h : Decomposition sp b rs) (h' : Decomposition sp b rs') : rs = rs' := by
  induction h generalizing rs' with
  | nil =>
    cases h' with
    | nil => rfl
    | cons hr _ => have := hr.end_le; have := hr.size_pos; omega
  | cons hr _ ih =>
    cases h' with
    | nil => have := hr.end_le; have := hr.size_pos; omega
    | cons hr' hrs' =>
      obtain rfl := hr.unique hr'
      rw [ih hrs']

/-- In a decomposition every region ends at or before the base of every later one. -/
theorem Decomposition.end_le_base {sp : AddressSpace} {b : Nat} {rs : List MemoryPage}
    (h : Decomposition sp b rs) : ∀ i j (hi : i < j) (hj : j < rs.length),
      (rs.get ⟨i, hi.trans hj⟩).base + (rs.get ⟨i, hi.trans hj⟩).size ≤
        (rs.get ⟨j, hj⟩).base := by
  induction h with
  | nil => intro i j _ hj; cases hj
  | cons hr hrs ih =>
    have base_ge : ∀ {c rs} (_ : Decomposition sp c rs) (k) (hk : k < rs.length),
        c ≤ (rs.get ⟨k, hk⟩).base := by
      intro c rs hd
      induction hd with
      | nil => intro k hk; cases hk
      | cons hr' _ ih' =>
        rintro (_ | k) hk
        · exact hr'.base_eq.ge
        · exact le_trans (by omega) (ih' k (by simpa using hk))
    rintro (_ | i) (_ | j) hij hj
    · omega
    · simpa [hr.base_eq] using base_ge hrs j (by simpa using hj)
    · omega
    · simpa using ih i j (by omega) (by simpa using hj)

/-! ## The walk -/

namespace AddressSpace

variable (sp : AddressSpace)

theorem runLength_le (a : PageAttr) (i n : Nat) : sp.runLength a i n ≤ n := by
  induction n generalizing i with
  | zero => rfl
  | succ n ih => rw [runLength]; split <;> simp [ih]

theorem attr_of_lt_runLength (a : PageAttr) (i n j : Nat) (hj : j < sp.runLength a i n) :
    sp.attr (i + j) = a := by
  induction n generalizing i j with
  | zero => cases hj
  | succ n ih =>
    rw [runLength] at hj
    split at hj
    · rcases j with _ | j
      · assumption
      · rw [show i + (j + 1) = i + 1 + j by omega]
        exact ih (i + 1) j (by omega)
    · cases hj

theorem attr_runLength_ne (a : PageAttr) (i n : Nat) (hn : sp.runLength a i n < n) :
    sp.attr (i + sp.runLength a i n) ≠ a := by
  induction n generalizing i with
  | zero => cases hn
  | succ n ih =>
    rw [runLength] at hn ⊢
    split
    · rw [show i + (sp.runLength a (i + 1) n + 1) = i + 1 + sp.runLength a (i + 1) n by omega]
      exact ih (i + 1) (by split at hn <;> omega)
    · assumption

theorem runLength_pos (i n : Nat) (hn : 0 < n) : 0 < sp.runLength (sp.attr i) i n := by
  cases n with
  | zero => cases hn
  | succ n => simp [runLength]

end AddressSpace

section Walk

variable (sp : AddressSpace)

/-- The region the query returns from page `i`. -/
def regionAt (i : Nat) : MemoryPage := MemoryPage.ofMbi (sp.mbiAt i)

@[simp] theorem regionAt_base (i : Nat) : (regionAt sp i).base = i * sp.pageSize := rfl

@[simp] theorem regionAt_size (i : Nat) :
    (regionAt sp i).size =
      sp.runLength (sp.attr i) i (sp.limit / sp.pageSize - i) * sp.pageSize := rfl

@[simp] theorem regionAt_attr (i : Nat) : (regionAt sp i).attr = sp.attr i := rfl

theorem limit_div_mul : sp.limit / sp.pageSize * sp.pageSize = sp.limit :=
  Nat.div_mul_cancel sp.pageSize_dvd

/-- A query anywhere in page `i`, below the limit, returns the region from page `i`. -/
theorem virtualQuery_page (i o : Nat) (hi : i < sp.limit / sp.pageSize) (ho : o < sp.pageSize) :
    Process.virtualQuery sp (i * sp.pageSize + o) = some (regionAt sp i) := by
  have hdiv : (i * sp.pageSize + o) / sp.pageSize = i := by
    rw [Nat.add_comm, Nat.add_mul_div_right _ _ sp.pageSize_pos, Nat.div_eq_of_lt ho, Nat.zero_add]
  have hlt : i * sp.pageSize + o < sp.limit := by
    have := Nat.mul_le_mul_right sp.pageSize (Nat.succ_le_of_lt hi)
    rw [limit_div_mul, Nat.succ_mul] at this
    omega
  simp [Process.virtualQuery, AddressSpace.virtualQueryEx, hlt, hdiv, regionAt]

/-- At or past the limit the query returns nothing. -/
theorem virtualQuery_of_le (a : Nat) (ha : sp.limit ≤ a) : Process.virtualQuery sp a = none := by
  simp [Process.virtualQuery, AddressSpace.virtualQueryEx, Nat.not_lt.mpr ha]

/-- The region from page `i`, below the limit, is the maximal run there. -/
theorem isMaximalRun_regionAt (i : Nat) (hi : i < sp.limit / sp.pageSize) :
    IsMaximalRun sp (i * sp.pageSize) (regionAt sp i) := by
  have hP := sp.pageSize_pos
  obtain ⟨c, hsize, hc⟩ : ∃ c, (regionAt sp i).size = c * sp.pageSize ∧
      c = sp.runLength (sp.attr i) i (sp.limit / sp.pageSize - i) := ⟨_, rfl, rfl⟩
  have hcle : c ≤ sp.limit / sp.pageSize - i := hc ▸ sp.runLength_le _ _ _
  have hend : (i + c) * sp.pageSize ≤ sp.limit :=
    (Nat.mul_le_mul_right _ (by omega)).trans (limit_div_mul sp).le
  rw [Nat.add_mul] at hend
  refine ⟨rfl, Nat.dvd_mul_left _ _, ?_, hsize ▸ Nat.dvd_mul_left _ _, by omega, ?_, ?_⟩
  · exact hsize ▸ Nat.mul_pos (hc ▸ sp.runLength_pos i _ (by omega)) hP
  · intro a ha ha'
    have h1 : i ≤ a / sp.pageSize := (Nat.le_div_iff_mul_le hP).mpr ha
    have h2 : a / sp.pageSize < i + c :=
      (Nat.div_lt_iff_lt_mul hP).mpr (by rw [Nat.add_mul]; omega)
    rw [regionAt_attr, show a / sp.pageSize = i + (a / sp.pageSize - i) by omega]
    exact sp.attr_of_lt_runLength (sp.attr i) i (sp.limit / sp.pageSize - i) _ (by omega)
  · intro hlt
    have hlt' : c < sp.limit / sp.pageSize - i := by
      by_contra hge
      have : sp.limit ≤ (i + c) * sp.pageSize := by
        rw [← limit_div_mul sp]; exact Nat.mul_le_mul_right _ (by omega)
      rw [Nat.add_mul] at this
      omega
    rw [hsize, ← Nat.add_mul, Nat.mul_div_cancel _ hP, regionAt_attr, hc]
    exact sp.attr_runLength_ne _ _ _ (hc ▸ hlt')

end Walk

section Run

variable (sp : AddressSpace)

/-- One call from page `i`: the region from there, and the probe advanced past it with its
offset kept; the addition does not wrap. -/
theorem next_page (i o : Nat) (hi : i < sp.limit / sp.pageSize) (ho : o < sp.pageSize) :
    MemoryIter.next sp ⟨i * sp.pageSize + o⟩ =
      (some (regionAt sp i), ⟨i * sp.pageSize + (regionAt sp i).size + o⟩) ∧
      i * sp.pageSize + o + (regionAt sp i).size < 2 ^ sp.width := by
  have hend := (isMaximalRun_regionAt sp i hi).end_le
  have hlim := sp.limit_add_le
  have hlt : i * sp.pageSize + o + (regionAt sp i).size < 2 ^ sp.width := by omega
  refine ⟨?_, hlt⟩
  simp only [MemoryIter.next, virtualQuery_page sp i o hi ho, wrappingAdd_of_lt hlt]
  congr 2
  omega

/-- Once the query returns nothing, the probe stays where it is. -/
theorem advance_of_none (it : MemoryIter) (h : Process.virtualQuery sp it.address = none) :
    ∀ n, MemoryIter.advance sp n it = it
  | 0 => rfl
  | n + 1 => by
    rw [MemoryIter.advance, show (it.next sp).2 = it by simp [MemoryIter.next, h]]
    exact advance_of_none it h n

/-- A call of `next` that yields a region moves the probe forward, and the probe was below
the limit. -/
theorem next_address_lt {it it' : MemoryIter} {m : MemoryPage} (h : it.next sp = (some m, it')) :
    sp.limit - it'.address < sp.limit - it.address := by
  have hP := sp.pageSize_pos
  have hq : Process.virtualQuery sp it.address = some m := by
    simp only [MemoryIter.next] at h
    split at h <;> simp_all
  have ha : it.address < sp.limit := by
    by_contra hge
    rw [virtualQuery_of_le sp _ (by omega)] at hq
    cases hq
  have hi : it.address / sp.pageSize < sp.limit / sp.pageSize :=
    (Nat.div_lt_iff_lt_mul hP).mpr (by rw [limit_div_mul]; exact ha)
  have hit : it = ⟨it.address / sp.pageSize * sp.pageSize + it.address % sp.pageSize⟩ := by
    rw [Nat.div_add_mod']
  obtain ⟨hnext, -⟩ := next_page sp _ _ hi (Nat.mod_lt _ hP)
  rw [← hit, h, Prod.mk.injEq] at hnext
  obtain ⟨-, rfl⟩ := hnext
  have hpos := (isMaximalRun_regionAt sp _ hi).size_pos
  have := Nat.div_add_mod' it.address sp.pageSize
  dsimp only
  omega

/-- The loop of `MemoryIter::next_commit`, for any test `keep` of the regions it returns:
call `next` until it yields a region that passes, or nothing. The loop ends because every
region yielded moves the probe towards the limit. -/
def MemoryIter.nextWhere (keep : MemoryPage → Bool) (it : MemoryIter) :
    Option MemoryPage × MemoryIter :=
  match h : it.next sp with
  | (some m, it') => if keep m then (some m, it') else MemoryIter.nextWhere keep it'
  | (none, it') => (none, it')
termination_by sp.limit - it.address
decreasing_by exact next_address_lt sp h

/-- The iterator after `k` calls of the loop. -/
def MemoryIter.advanceWhere (keep : MemoryPage → Bool) : Nat → MemoryIter → MemoryIter
  | 0, it => it
  | k + 1, it => MemoryIter.advanceWhere keep k (it.nextWhere sp keep).2

/-- The walk from page `i` with probe offset `o`: it yields the decomposition of
`[i * pageSize, limit)`, then nothing, and no probe addition wraps. -/
theorem walk_from (i o : Nat) (hi : i ≤ sp.limit / sp.pageSize) (ho : o < sp.pageSize) :
    ∃ rs, Decomposition sp (i * sp.pageSize) rs ∧
      (∀ n, ((MemoryIter.advance sp n ⟨i * sp.pageSize + o⟩).next sp).1 = rs[n]?) ∧
      ∀ n m, Process.virtualQuery sp (MemoryIter.advance sp n ⟨i * sp.pageSize + o⟩).address =
          some m →
        (MemoryIter.advance sp n ⟨i * sp.pageSize + o⟩).address + m.size < 2 ^ sp.width := by
  obtain ⟨k, h⟩ : ∃ k, sp.limit / sp.pageSize - i = k := ⟨_, rfl⟩
  induction k using Nat.strong_induction_on generalizing i with
  | _ k ih =>
  rcases Nat.lt_or_ge i (sp.limit / sp.pageSize) with hlt | hge
  · obtain ⟨hnext, hwrap⟩ := next_page sp i o hlt ho
    have hrun := isMaximalRun_regionAt sp i hlt
    obtain ⟨c, hc⟩ : ∃ c, (regionAt sp i).size = c * sp.pageSize := ⟨_, rfl⟩
    have hcpos : 0 < c := Nat.pos_of_mul_pos_right (hc ▸ hrun.size_pos)
    have hcle : i + c ≤ sp.limit / sp.pageSize :=
      (Nat.le_div_iff_mul_le sp.pageSize_pos).mpr (by rw [Nat.add_mul, ← hc]; exact hrun.end_le)
    have hb : i * sp.pageSize + (regionAt sp i).size = (i + c) * sp.pageSize := by
      rw [hc, Nat.add_mul]
    obtain ⟨rs, hdec, hres, hov⟩ := ih _ (by omega) (i + c) hcle rfl
    refine ⟨regionAt sp i :: rs, .cons hrun (hb ▸ hdec), ?_, ?_⟩
    · rintro (_ | n)
      · simp [MemoryIter.advance, hnext]
      · rw [MemoryIter.advance, hnext]
        dsimp only
        rw [hb, hres n, List.getElem?_cons_succ]
    · rintro (_ | n) m hm
      · simp only [MemoryIter.advance, virtualQuery_page sp i o hlt ho, Option.some.injEq] at hm
        exact hm ▸ hwrap
      · rw [MemoryIter.advance, hnext] at hm ⊢
        dsimp only at hm ⊢
        rw [hb] at hm ⊢
        exact hov n m hm
  · have hi' : i * sp.pageSize = sp.limit := by
      rw [show i = sp.limit / sp.pageSize by omega, limit_div_mul]
    have hnone : Process.virtualQuery sp (i * sp.pageSize + o) = none :=
      virtualQuery_of_le sp _ (by omega)
    refine ⟨[], hi' ▸ .nil, fun n => ?_, fun n m hm => ?_⟩
    · rw [advance_of_none sp _ hnone]
      simp [MemoryIter.next, hnone]
    · rw [advance_of_none sp _ hnone] at hm
      simp [hnone] at hm

/-- **`enum_memory` walks the maximal-run decomposition.** From every start address below
the limit, the calls of `next` yield, in order, exactly the regions of the maximal-run
decomposition of `[s` rounded down to a page`, limit)`, and nothing after the region that
ends at the limit; no addition to the probe wraps. -/
theorem enumMemory_decomposition (s : Nat) (hs : s < sp.limit) :
    ∃ rs, Decomposition sp (s / sp.pageSize * sp.pageSize) rs ∧
      (∀ n, ((MemoryIter.advance sp n (Process.enumMemory s)).next sp).1 = rs[n]?) ∧
      ∀ n m, Process.virtualQuery sp (MemoryIter.advance sp n (Process.enumMemory s)).address =
          some m →
        (MemoryIter.advance sp n (Process.enumMemory s)).address + m.size < 2 ^ sp.width := by
  have hP := sp.pageSize_pos
  have hi : s / sp.pageSize ≤ sp.limit / sp.pageSize := Nat.div_le_div_right hs.le
  have hs' : Process.enumMemory s = ⟨s / sp.pageSize * sp.pageSize + s % sp.pageSize⟩ := by
    rw [Nat.div_add_mod']; rfl
  rw [hs']
  exact walk_from sp _ _ hi (Nat.mod_lt _ hP)

/-- Three pages of `0x1000` bytes, the first two committed read-write and the third free. -/
def sampleSpace : AddressSpace where
  width := 64
  pageSize := 0x1000
  limit := 0x3000
  attr i := if i < 2 then ⟨0, 4, 0x1000, 4, 0x20000⟩ else ⟨0, 0, 0x10000, 1, 0⟩
  pageSize_pos := by decide
  pageSize_dvd := ⟨3, rfl⟩
  limit_add_le := by decide

theorem enumMemory_sampleSpace :
    ∃ rs, Decomposition sampleSpace (0x1234 / sampleSpace.pageSize * sampleSpace.pageSize) rs ∧
      (∀ n, ((MemoryIter.advance sampleSpace n (Process.enumMemory 0x1234)).next sampleSpace).1 =
        rs[n]?) ∧
      ∀ n m, Process.virtualQuery sampleSpace
          (MemoryIter.advance sampleSpace n (Process.enumMemory 0x1234)).address = some m →
        (MemoryIter.advance sampleSpace n (Process.enumMemory 0x1234)).address + m.size <
          2 ^ sampleSpace.width :=
  enumMemory_decomposition sampleSpace 0x1234 (by decide)

end Run

/-! ## Committed regions -/

/-- `MEM_COMMIT`, the state of a region backed by storage. -/
def MEM_COMMIT : UInt32 := 0x1000

/-- Modelled from the spec (a committed region is one backed by storage): `is_commit`, which
is not in the source, as the region's state being `MEM_COMMIT`. -/
def MemoryPage.isCommit (m : MemoryPage) : Bool := m.state == MEM_COMMIT

/-- `MemoryIter::next_commit`. -/
def MemoryIter.nextCommit (sp : AddressSpace) (it : MemoryIter) : Option MemoryPage × MemoryIter :=
  it.nextWhere sp MemoryPage.isCommit

section Filter

variable (sp : AddressSpace) (keep : MemoryPage → Bool)

/-- The calls of `next` from `it` yield the regions `rs`, then nothing. -/
def Yields (it : MemoryIter) (rs : List MemoryPage) : Prop :=
  ∀ n, ((MemoryIter.advance sp n it).next sp).1 = rs[n]?

theorem yields_nil {it : MemoryIter} (h : Yields sp it []) : it.next sp = (none, it) := by
  have h0 := h 0
  simp only [MemoryIter.advance, List.getElem?_nil] at h0
  simp only [MemoryIter.next] at h0 ⊢
  split <;> simp_all

theorem yields_cons {it : MemoryIter} {r : MemoryPage} {rs : List MemoryPage}
    (h : Yields sp it (r :: rs)) :
    it.next sp = (some r, (it.next sp).2) ∧ Yields sp (it.next sp).2 rs :=
  ⟨Prod.ext (by simpa using h 0) rfl, fun n => by simpa [MemoryIter.advance] using h (n + 1)⟩

theorem nextWhere_eq (it : MemoryIter) :
    it.nextWhere sp keep =
      match (it.next sp).1 with
      | some m => if keep m then (some m, (it.next sp).2) else (it.next sp).2.nextWhere sp keep
      | none => (none, (it.next sp).2) := by
  rw [MemoryIter.nextWhere]
  split <;> simp_all

/-- One call of the loop from a state that yields `rs` returns the first region of `rs` that
passes, and leaves a state that yields the regions after it; the regions that pass after it
are the rest of those of `rs`. -/
theorem nextWhere_yields {it : MemoryIter} {rs : List MemoryPage} (h : Yields sp it rs) :
    (it.nextWhere sp keep).1 = (rs.filter keep).head? ∧
      ∃ rs', Yields sp (it.nextWhere sp keep).2 rs' ∧
        rs'.filter keep = (rs.filter keep).tail := by
  induction rs generalizing it with
  | nil =>
    rw [nextWhere_eq, yields_nil sp h]
    exact ⟨rfl, [], h, rfl⟩
  | cons r rs ih =>
    obtain ⟨hnext, hrest⟩ := yields_cons sp h
    rw [nextWhere_eq, hnext]
    by_cases hk : keep r
    · simp only [hk, if_true, List.filter_cons_of_pos hk, List.head?_cons, List.tail_cons]
      exact ⟨trivial, rs, hrest, rfl⟩
    · simp only [hk, Bool.false_eq_true, if_false, List.filter_cons_of_neg hk]
      exact ih hrest

/-- The calls of the loop from a state that yields `rs` return, in order, the regions of `rs`
that pass, then nothing. -/
theorem advanceWhere_yields {it : MemoryIter} {rs : List MemoryPage} (h : Yields sp it rs)
    (n : Nat) :
    ((MemoryIter.advanceWhere sp keep n it).nextWhere sp keep).1 = (rs.filter keep)[n]? := by
  induction n generalizing it rs with
  | zero => rw [MemoryIter.advanceWhere, (nextWhere_yields sp keep h).1, List.head?_eq_getElem?]
  | succ n ih =>
    obtain ⟨-, rs', hrs', hfilter⟩ := nextWhere_yields sp keep h
    rw [MemoryIter.advanceWhere, ih hrs', hfilter]
    cases rs.filter keep <;> simp

/-- **`next_commit` walks the committed regions.** From every start address below the limit,
the calls of `next_commit` return, in order, exactly the committed regions of the maximal-run
decomposition of `[s` rounded down to a page`, limit)`, then nothing; each call returns. -/
theorem enumMemory_nextCommit (s : Nat) (hs : s < sp.limit) :
    ∃ rs, Decomposition sp (s / sp.pageSize * sp.pageSize) rs ∧
      ∀ n, ((MemoryIter.advanceWhere sp MemoryPage.isCommit n
        (Process.enumMemory s)).nextCommit sp).1 = (rs.filter MemoryPage.isCommit)[n]? := by
  have hP := sp.pageSize_pos
  have hs' : Process.enumMemory s = ⟨s / sp.pageSize * sp.pageSize + s % sp.pageSize⟩ := by
    rw [Nat.div_add_mod']; rfl
  obtain ⟨rs, hdec, hyields, -⟩ :=
    walk_from sp _ _ (Nat.div_le_div_right hs.le) (Nat.mod_lt s hP)
  exact ⟨rs, hdec, hs' ▸ advanceWhere_yields sp _ hyields⟩

theorem enumMemory_nextCommit_sampleSpace :
    ∃ rs, Decomposition sampleSpace (0x1234 / sampleSpace.pageSize * sampleSpace.pageSize) rs ∧
      ∀ n, ((MemoryIter.advanceWhere sampleSpace MemoryPage.isCommit n
          (Process.enumMemory 0x1234)).nextCommit sampleSpace).1 =
        (rs.filter MemoryPage.isCommit)[n]? :=
  enumMemory_nextCommit sampleSpace 0x1234 (by decide)

end Filter

end Udbg.Windows
