import Udbg.Windows.Handle

/-!
# Toolhelp iterators

`ToolHelperIter` (`src/os/windows/mod.rs`) walks a toolhelp snapshot: the first call of
`next` invokes the snapshot's `*First` function and every later one its `*Next` function,
the choice made by a `u32` call counter. The counter is incremented on every call, so after
`2^32` calls it wraps to `0` (a debug build panics on that increment instead), and the next
call invokes `*First` again: the enumeration restarts and yields its first entry a second
time.

## Main definitions

* `Snapshot`: the kernel's snapshot object and its cursor
* `ToolHelperIter`, `ToolHelperIter.nextItem`, `ToolHelperIter.next`
* `ToolHelperIter.filterNext`, `ToolHelperIter.filterAdvance`: `Filter::next` over a toolhelp
  iterator, and the state after `j` calls of it

## Main results

* `count_advance`: after `k` calls the counter is `k` modulo `2^32`
* `invokes_advance`: call `k` invokes `*First` exactly when `k` is a multiple of `2^32`
* `next_advance`: the first `2^32` calls yield the snapshot's entries, in order, then nothing
* `filterNext_advance_eq`: so a filter over a snapshot of fewer than `2^32` entries yields
  the first one it accepts
* `filterNext_filterAdvance`: and call `j` of the filter yields entry `j` of those it accepts
* `toolHelperIter_restarts`: call `2^32 + 1` restarts the enumeration
-/

namespace Udbg.Windows

variable {T : Type}

/-- A toolhelp snapshot as the kernel keeps it: its entries, and the cursor that `*First`
rewinds and `*Next` advances. -/
structure Snapshot (T : Type) where
  entries : List T
  cursor : Nat

/-- `Process32FirstW`, `Module32FirstW`, `Thread32First`: the first entry, if any, and the
cursor past it. -/
def Snapshot.first (s : Snapshot T) : Option T × Snapshot T :=
  match s.entries with
  | [] => (none, s)
  | e :: _ => (some e, { s with cursor := 1 })

/-- `Process32NextW`, `Module32NextW`, `Thread32Next`: the entry at the cursor, if any, and
the cursor past it. -/
def Snapshot.next (s : Snapshot T) : Option T × Snapshot T :=
  match s.entries[s.cursor]? with
  | none => (none, s)
  | some e => (some e, { s with cursor := s.cursor + 1 })

/-- The function a call invokes. -/
inductive Invoked
  | first
  | next
  deriving DecidableEq, Repr

/-- `ToolHelperIter`: the call counter, the snapshot handle, and the entry buffer `data`
that the toolhelp functions fill; the snapshot itself is the kernel object behind `handle`. -/
structure ToolHelperIter (T : Type) where
  count : UInt32
  handle : Handle
  data : T

namespace ToolHelperIter

/-- `ToolHelperIter::new`: the counter starts at `0`. -/
def new (handle : Nat) (data : T) : ToolHelperIter T := ⟨0, ⟨handle⟩, data⟩

/-- The function the next call invokes: `*Next` once the counter is positive. -/
def invokes (it : ToolHelperIter T) : Invoked := if it.count > 0 then .next else .first

/-- `next_item`: invoke `*First` or `*Next`, which fill `data` on success, and increment the
counter with `u32` wrap-around. -/
def nextItem (it : ToolHelperIter T) (s : Snapshot T) : Bool × ToolHelperIter T × Snapshot T :=
  let (entry, s') := match it.invokes with
    | .next => s.next
    | .first => s.first
  (entry.isSome, { it with count := it.count + 1, data := entry.getD it.data }, s')

/-- `Iterator::next`: the filled entry when the call succeeds. -/
def next (it : ToolHelperIter T) (s : Snapshot T) : Option T × ToolHelperIter T × Snapshot T :=
  let (success, it', s') := it.nextItem s
  (if success then some it'.data else none, it', s')

/-- The iterator and the snapshot after `k` calls of `next`. -/
def advance : Nat → ToolHelperIter T × Snapshot T → ToolHelperIter T × Snapshot T
  | 0, st => st
  | k + 1, st => advance k ((st.1.next st.2).2)

theorem count_next (it : ToolHelperIter T) (s : Snapshot T) :
    (it.next s).2.1.count = it.count + 1 := rfl

theorem toNat_add_one (a : UInt32) : (a + 1).toNat = (a.toNat + 1) % 2 ^ 32 := by
  rw [UInt32.add_def]
  exact BitVec.toNat_add _ _

/-- **The counter after `k` calls** is the initial one plus `k`, modulo `2^32`. -/
theorem count_advance (k : Nat) (st : ToolHelperIter T × Snapshot T) :
    (advance k st).1.count.toNat = (st.1.count.toNat + k) % 2 ^ 32 := by
  induction k generalizing st with
  | zero => exact (Nat.mod_eq_of_lt st.1.count.toNat_lt_size).symm
  | succ k ih =>
    rw [advance, ih, count_next, toNat_add_one, Nat.mod_add_mod]
    ac_rfl

/-- **Call `k` of a new iterator** (counting from `0`) invokes `*First` exactly when `k` is a
multiple of `2^32`. -/
theorem invokes_advance (k : Nat) (it : ToolHelperIter T) (s : Snapshot T) (h0 : it.count = 0) :
    (advance k (it, s)).1.invokes = if k % 2 ^ 32 = 0 then .first else .next := by
  have hc := count_advance k (it, s)
  simp only [h0, UInt32.toNat_zero, Nat.zero_add] at hc
  simp only [invokes, GT.gt, UInt32.lt_def, BitVec.lt_def]
  split_ifs with h1 h2 h2 <;> simp_all [UInt32.toNat]

/-- Neither toolhelp function changes the entries of a snapshot. -/
theorem entries_advance (k : Nat) (st : ToolHelperIter T × Snapshot T) :
    (advance k st).2.entries = st.2.entries := by
  induction k generalizing st with
  | zero => rfl
  | succ k ih =>
    rw [advance, ih]
    simp only [next, nextItem]
    split
    · simp only [Snapshot.next]; split <;> rfl
    · simp only [Snapshot.first]; split <;> rfl

/-- A call that invokes `*First` yields the snapshot's first entry. -/
theorem next_of_invokes_first (it : ToolHelperIter T) (s : Snapshot T) {e : T} {es : List T}
    (h : it.invokes = .first) (he : s.entries = e :: es) : (it.next s).1 = some e := by
  simp only [next, nextItem, h, Snapshot.first, he, Option.isSome_some, if_true, Option.getD_some]

theorem advance_succ (k : Nat) (st : ToolHelperIter T × Snapshot T) :
    advance (k + 1) st = ((advance k st).1.next (advance k st).2).2 := by
  induction k generalizing st with
  | zero => rfl
  | succ k ih => rw [advance, ih, ← advance]

/-- After `k` calls, `0 < k < 2^32`, of a new iterator on a fresh snapshot, the cursor is
past entry `k - 1`, or at the end. -/
theorem cursor_advance (h : Nat) (d : T) (es : List T) (k : Nat) (hk : k < 2 ^ 32) (h1 : 0 < k) :
    (advance k (new h d, ⟨es, 0⟩)).2.cursor = min k es.length := by
  induction k with
  | zero => cases h1
  | succ k ih =>
    rw [advance_succ]
    rcases Nat.eq_zero_or_pos k with rfl | hpos
    · cases es <;> simp [advance, next, nextItem, invokes, new, Snapshot.first]
    · have hinv := invokes_advance k (new h d) ⟨es, 0⟩ rfl
      rw [Nat.mod_eq_of_lt (by omega), if_neg (by omega)] at hinv
      have hcur := ih (by omega) hpos
      have hent := entries_advance k (new h d, ⟨es, 0⟩)
      simp only [next, nextItem, hinv, Snapshot.next, hcur, hent]
      by_cases hlt : k < es.length
      · rw [Nat.min_eq_left hlt.le, List.getElem?_eq_getElem hlt]
        simp only
        omega
      · rw [Nat.min_eq_right (by omega), List.getElem?_eq_none (le_refl _)]
        simp only
        omega

/-- **The first `2^32` calls yield the snapshot.** Call `k` of a new iterator on a fresh
snapshot, for every `k < 2^32`, yields entry `k`, and nothing past the last entry. -/
theorem next_advance (h : Nat) (d : T) (es : List T) (k : Nat) (hk : k < 2 ^ 32) :
    ((advance k (new h d, ⟨es, 0⟩)).1.next (advance k (new h d, ⟨es, 0⟩)).2).1 =
      es[k]? := by
  rcases Nat.eq_zero_or_pos k with rfl | hpos
  · cases es <;> simp [advance, next, nextItem, invokes, new, Snapshot.first]
  · have hinv := invokes_advance k (new h d) ⟨es, 0⟩ rfl
    rw [Nat.mod_eq_of_lt hk, if_neg (by omega)] at hinv
    have hcur := cursor_advance h d es k hk hpos
    have hent := entries_advance k (new h d, ⟨es, 0⟩)
    simp only [next, nextItem, hinv, Snapshot.next, hcur, hent]
    by_cases hlt : k < es.length
    · simp [Nat.min_eq_left hlt.le, List.getElem?_eq_getElem hlt]
    · rw [Nat.min_eq_right (by omega), List.getElem?_eq_none (le_refl _),
        List.getElem?_eq_none (by omega)]
      rfl

example : ((advance 2 (new 0 'a', ⟨['x', 'y', 'z'], 0⟩)).1.next
    (advance 2 (new 0 'a', ⟨['x', 'y', 'z'], 0⟩)).2).1 = some 'z' :=
  next_advance 0 'a' _ 2 (by decide)

/-- `Filter::next` over a toolhelp iterator, for at most `fuel` calls of the inner `next`: the
first entry the inner iterator yields that `keep` accepts, or `None` once it yields nothing. -/
def filterNext (keep : T → Bool) : Nat → ToolHelperIter T × Snapshot T →
    Option T × ToolHelperIter T × Snapshot T
  | 0, st => (none, st)
  | fuel + 1, st =>
    let r := st.1.next st.2
    match r.1 with
    | some e => if keep e then (some e, r.2) else filterNext keep fuel r.2
    | none => (none, r.2)

/-- **`Filter::next` finds the first match.** One `Filter::next` from call `k < 2^32` on, of a
new iterator on a fresh snapshot of fewer than `2^32` entries, given more calls than entries
are left: it yields the first entry from entry `k` on that `keep` accepts, and leaves the
iterator one call past it, or one call past the end of the snapshot. -/
theorem filterNext_advance_eq (keep : T → Bool) (h : Nat) (d : T) (es : List T)
    (hes : es.length < 2 ^ 32) (k fuel : Nat) (hk : k < 2 ^ 32) (hfuel : es.length - k < fuel) :
    filterNext keep fuel (advance k (new h d, ⟨es, 0⟩)) =
      ((es.drop k).find? keep,
        advance (k + (es.drop k).findIdx keep + 1) (new h d, ⟨es, 0⟩)) := by
  induction fuel generalizing k with
  | zero => omega
  | succ fuel ih =>
    have hnext := next_advance h d es k hk
    simp only [filterNext, hnext, ← advance_succ]
    by_cases hlt : k < es.length
    · rw [List.getElem?_eq_getElem hlt, List.drop_eq_getElem_cons hlt, List.findIdx_cons]
      by_cases he : keep es[k] = true
      · simp only [he, if_true, List.find?_cons_of_pos _ he, cond_true, Nat.add_zero]
      · simp only [he, Bool.false_eq_true, if_false, cond_false, List.find?_cons_of_neg _ he,
          ih (k + 1) (by omega) (by omega)]
        congr 2
        omega
    · rw [List.getElem?_eq_none (by omega), List.drop_eq_nil_of_le (by omega)]
      rfl

/-- The iterator and the snapshot after `j` calls of `Filter::next`. -/
def filterAdvance (keep : T → Bool) (fuel : Nat) :
    Nat → ToolHelperIter T × Snapshot T → ToolHelperIter T × Snapshot T
  | 0, st => st
  | j + 1, st => filterAdvance keep fuel j (filterNext keep fuel st).2

/-- Dropping the entries up to the first accepted one drops it from the accepted ones. -/
theorem filter_drop_findIdx (keep : T → Bool) (l : List T) :
    (l.drop (l.findIdx keep + 1)).filter keep = (l.filter keep).tail := by
  induction l with
  | nil => rfl
  | cons a l ih =>
    rw [List.findIdx_cons]
    cases ha : keep a
    · simpa [ha] using ih
    · simp [ha]

/-- **A filtered toolhelp iterator yields the accepted entries.** From call `k` on of a new
iterator on a fresh snapshot, given more calls than entries and while fewer than `2^32` calls
of the inner `next` are made, call `j` of `Filter::next` yields entry `j` of the entries from
entry `k` on that `keep` accepts, and nothing once they are exhausted. -/
theorem filterNext_filterAdvance (keep : T → Bool) (h : Nat) (d : T) (es : List T) (fuel : Nat)
    (j k : Nat) (hes : es.length + j < 2 ^ 32) (hk : k + j < 2 ^ 32)
    (hfuel : es.length - k < fuel) :
    (filterNext keep fuel (filterAdvance keep fuel j (advance k (new h d, ⟨es, 0⟩)))).1 =
      ((es.drop k).filter keep)[j]? := by
  induction j generalizing k with
  | zero =>
    rw [filterAdvance, filterNext_advance_eq keep h d es (by omega) k fuel (by omega) hfuel,
      ← List.head?_eq_getElem?, List.filter_head?]
  | succ j ih =>
    have hidx : (es.drop k).findIdx keep ≤ es.length - k := by
      simpa using @List.findIdx_le_length _ keep (es.drop k)
    rw [filterAdvance, filterNext_advance_eq keep h d es (by omega) k fuel (by omega) hfuel,
      ih _ (by omega) (by omega) (by omega), Nat.add_assoc, ← List.drop_drop,
      filter_drop_findIdx, List.getElem?_tail]

/-- **The enumeration restarts.** On a snapshot whose first entry is `e`, the first call of
a new iterator yields `e`, and call `2^32 + 1` invokes `*First` again and yields `e` a
second time. -/
theorem toolHelperIter_restarts (h : Nat) (d e : T) (es : List T) :
    ((ToolHelperIter.new h d).next ⟨e :: es, 0⟩).1 = some e ∧
      (advance (2 ^ 32) (ToolHelperIter.new h d, ⟨e :: es, 0⟩)).1.invokes = .first ∧
      ((advance (2 ^ 32) (ToolHelperIter.new h d, ⟨e :: es, 0⟩)).1.next
        (advance (2 ^ 32) (ToolHelperIter.new h d, ⟨e :: es, 0⟩)).2).1 = some e := by
  have hfirst := invokes_advance (2 ^ 32) (ToolHelperIter.new h d) ⟨e :: es, 0⟩ rfl
  simp only [Nat.mod_self, if_true] at hfirst
  exact ⟨rfl, hfirst, next_of_invokes_first _ _ hfirst (entries_advance _ _)⟩

end ToolHelperIter

end Udbg.Windows
