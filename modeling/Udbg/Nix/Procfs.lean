import Udbg.Utf8
import Mathlib.Data.List.DropRight

/-!
# The procfs readers

`process_cmdline` and `process_environ` (`src/nix/process.rs`) read a whole file under
`/proc/<pid>/` with `std::fs::read`, falling back to no bytes when the read fails, split it
at NUL bytes, and build strings from the pieces with the unchecked UTF-8 constructors.

`process_cmdline` keeps every piece and then pops the empty ones from the end, so what it
returns joins back, with single NULs, to the file without its trailing NULs. It does not
check UTF-8, so a command line that is not well-formed UTF-8 comes back as a `String` that
breaks the `String` invariant.

`process_environ` does its insertions inside a `map` adapter that it never advances.
`Iterator::map` is lazy, so no insertion runs and the map comes back empty for every
environment block. Had the adapter been consumed, the closure's `unwrap` would panic on the
empty piece after the block's final NUL.

## Main definitions

* `Procfs`: the procfs files as the readers see them
* `processCmdline`, `processEnviron`, and `environInsert`, the closure `process_environ`
  never runs

## Main results

* `processCmdline_trimmed`: no piece holds a NUL, the last is not empty, joining the pieces
  with NULs gives the file without its trailing NULs, and splitting that join gives the
  pieces back
* `processEnviron_eq_empty`: the environment map is always empty
* `consume_environInsert_panics`: consuming the adapter would panic on every block
-/

namespace Udbg.Nix

variable {α β : Type}

/-! ## Splitting at a separator and joining back -/

section Split

theorem map_rdropWhile (f : α → β) (p : β → Bool) (l : List α) :
    (l.rdropWhile (p ∘ f)).map f = (l.map f).rdropWhile p := by
  induction l using List.reverseRecOn with
  | nil => simp
  | append_singleton l a ih => by_cases h : p (f a) <;> simp [List.rdropWhile_concat, h, ih]

theorem intercalate_concat (x : α) {L : List (List α)} (hL : L ≠ []) (s : List α) :
    [x].intercalate (L ++ [s]) = [x].intercalate L ++ x :: s := by
  induction L with
  | nil => exact absurd rfl hL
  | cons a L ih =>
    cases L with
    | nil => simp [List.intercalate]
    | cons b L => simp_all [List.intercalate, List.intersperse_cons_cons]

variable [DecidableEq α] (x : α)

/-- The first piece of a split is what comes before the first separator. -/
theorem head?_splitOn (d : List α) : (d.splitOn x).head? = some (d.takeWhile (· != x)) := by
  induction d with
  | nil => rfl
  | cons a d ih =>
    rw [List.splitOn, List.splitOnP_cons]
    by_cases ha : a = x
    · simp [ha]
    · obtain ⟨p, ps, hp⟩ := List.exists_cons_of_ne_nil (List.splitOnP_ne_nil (· == x) d)
      rw [List.splitOn, hp] at ih
      simp_all

/-- Every piece of a split is empty exactly when the list holds nothing but separators. -/
theorem splitOn_all_isEmpty (d : List α) :
    (∀ s ∈ d.splitOn x, s.isEmpty) ↔ ∀ a ∈ d, a = x := by
  induction d with
  | nil => simp [List.splitOn]
  | cons a d ih =>
    rw [List.splitOn, List.splitOnP_cons] at *
    by_cases ha : a = x
    · simpa [ha] using ih
    · obtain ⟨p, ps, hp⟩ := List.exists_cons_of_ne_nil (List.splitOnP_ne_nil (· == x) d)
      simp [ha, hp]

/-- No piece of a split holds the separator. -/
theorem not_mem_of_mem_splitOn (d : List α) : ∀ s ∈ d.splitOn x, x ∉ s := by
  induction d with
  | nil => simp
  | cons a d ih =>
    simp only [List.splitOn, List.splitOnP_cons] at ih ⊢
    split_ifs with h
    · simpa using ih
    · obtain ⟨hd, tl, hht⟩ := List.exists_cons_of_ne_nil (List.splitOnP_ne_nil (· == x) d)
      rw [hht] at ih ⊢
      simp only [List.modifyHead_cons, List.mem_cons, forall_eq_or_imp, not_or] at ih ⊢
      exact ⟨⟨fun e => h (by simp [e]), ih.1⟩, ih.2⟩

/-- A trailing separator ends the split with an empty piece. -/
theorem splitOn_concat_self (d : List α) : (d ++ [x]).splitOn x = d.splitOn x ++ [[]] := by
  induction d with
  | nil => simp [List.splitOn]
  | cons a d ih =>
    simp only [List.splitOn, List.cons_append, List.splitOnP_cons] at ih ⊢
    obtain ⟨hd, tl, hht⟩ := List.exists_cons_of_ne_nil (List.splitOnP_ne_nil (· == x) d)
    split_ifs <;> simp [ih, hht]

/-- Popping the empty pieces from the end of a split pops the separators from the end of
the joined list. -/
theorem intercalate_rdropWhile_isEmpty (L : List (List α)) (hL : L ≠ [])
    (hx : ∀ s ∈ L, x ∉ s) :
    [x].intercalate (L.rdropWhile List.isEmpty) = ([x].intercalate L).rdropWhile (· == x) := by
  induction L using List.reverseRecOn with
  | nil => exact absurd rfl hL
  | append_singleton L s ih =>
    rcases s.eq_nil_or_concat with rfl | ⟨t, b, rfl⟩
    · rcases eq_or_ne L [] with rfl | hL'
      · rfl
      rw [List.rdropWhile_concat_pos _ _ _ rfl, intercalate_concat x hL',
        List.rdropWhile_concat_pos _ _ _ (by simp), ih hL' fun s hs => hx s (by simp [hs])]
    · rw [List.concat_eq_append] at hx ⊢
      have hb : ¬(b == x) = true := by simpa using fun h => hx (t ++ [b]) (by simp) (by simp [h])
      rw [List.rdropWhile_concat_neg _ _ _ (by simp)]
      rcases eq_or_ne L [] with rfl | hL'
      · simpa [List.intercalate] using (List.rdropWhile_concat_neg (· == x) t b hb).symm
      rw [intercalate_concat x hL', ← List.cons_append, ← List.append_assoc,
        List.rdropWhile_concat_neg (· == x) _ b hb]

end Split

/-! ## The files -/

/-- `pid_t`, a 32-bit `c_int`. -/
abbrev PidT := BitVec 32

/-- The files under `/proc/<pid>/` whose whole contents the readers take. -/
inductive ProcFile
  | cmdline
  | environ
  deriving DecidableEq, Repr

/-- The procfs as the readers see it: `read pid f` is what `std::fs::read` returns for
`/proc/<pid>/f`, `none` when the read fails. -/
structure Procfs where
  read : PidT → ProcFile → Option Bytes

/-- The bytes of a file, none when the read fails (`unwrap_or(vec![])`). -/
def Procfs.data (fs : Procfs) (pid : PidT) (f : ProcFile) : Bytes :=
  (fs.read pid f).getD []

/-! ## `process_cmdline` -/

/-- `process_cmdline`: the NUL-separated pieces of `/proc/<pid>/cmdline` as strings, with the
empty pieces at the end popped by the `while` loop. -/
def processCmdline (fs : Procfs) (pid : PidT) : List RString :=
  let result := ((fs.data pid .cmdline).splitOn 0).map RString.fromUtf8Unchecked
  result.rdropWhile fun s => s.bytes.isEmpty

theorem processCmdline_bytes (fs : Procfs) (pid : PidT) :
    (processCmdline fs pid).map RString.bytes =
      ((fs.data pid .cmdline).splitOn 0).rdropWhile List.isEmpty := by
  have h := map_rdropWhile RString.bytes List.isEmpty
    (((fs.data pid .cmdline).splitOn 0).map RString.fromUtf8Unchecked)
  simpa [Function.comp_def] using h

/-- **`process_cmdline` trims and nothing else.** The pieces hold no NUL, the last is not
empty, joining them with NULs gives the file without its trailing NULs, and splitting that
join at NUL gives the pieces back (one empty piece when there are none). -/
theorem processCmdline_trimmed (fs : Procfs) (pid : PidT) :
    let r := (processCmdline fs pid).map RString.bytes
    (∀ s ∈ r, 0 ∉ s) ∧ (∀ h : r ≠ [], r.getLast h ≠ []) ∧
      [0].intercalate r = (fs.data pid .cmdline).rdropWhile (· == 0) ∧
      ([0].intercalate r).splitOn 0 = if r = [] then [[]] else r := by
  intro r
  have hr : r = ((fs.data pid .cmdline).splitOn 0).rdropWhile List.isEmpty :=
    processCmdline_bytes fs pid
  clear_value r
  subst hr
  have hsub : ∀ s ∈ ((fs.data pid .cmdline).splitOn 0).rdropWhile List.isEmpty, 0 ∉ s :=
    fun s hs => not_mem_of_mem_splitOn 0 _ s ((List.rdropWhile_prefix _ _).subset hs)
  refine ⟨hsub, fun h => by simpa using List.rdropWhile_last_not _ _ h, ?_, ?_⟩
  · rw [intercalate_rdropWhile_isEmpty 0 ((fs.data pid .cmdline).splitOn 0)
      (List.splitOnP_ne_nil _ _) (not_mem_of_mem_splitOn 0 _), List.intercalate_splitOn]
  · split_ifs with h
    · simp [h, List.intercalate]
    · exact List.splitOn_intercalate _ 0 hsub h

/-- `argv[0]`: the first piece of the command line is the bytes before its first NUL when the
file holds a byte other than NUL; otherwise there is no piece. -/
theorem head?_processCmdline (fs : Procfs) (pid : PidT) :
    ((processCmdline fs pid).map RString.bytes).head? =
      if (fs.data pid .cmdline).all (· == 0) then none
      else some ((fs.data pid .cmdline).takeWhile (· != 0)) := by
  have hall := splitOn_all_isEmpty (0 : UInt8) (fs.data pid .cmdline)
  rw [processCmdline_bytes]
  split_ifs with h
  · rw [List.rdropWhile_eq_nil_iff.mpr (hall.mpr (by simpa using h))]
    rfl
  · have hne : ((fs.data pid .cmdline).splitOn 0).rdropWhile List.isEmpty ≠ [] := fun e =>
      h (by simpa using hall.mp (List.rdropWhile_eq_nil_iff.mp e))
    obtain ⟨t, ht⟩ := List.rdropWhile_prefix List.isEmpty ((fs.data pid .cmdline).splitOn 0)
    rw [← List.head?_append_of_ne_nil _ hne, ht, head?_splitOn]

/-- A command line that is not UTF-8. -/
def invalidCmdlineFs : Procfs := ⟨fun _ _ => some [0xFF]⟩

/-- `process_cmdline` returns a `String` that breaks the UTF-8 invariant. -/
theorem processCmdline_invalid_utf8 :
    processCmdline invalidCmdlineFs 0 = [⟨[0xFF]⟩] ∧ ¬ RString.Valid ⟨[0xFF]⟩ := by
  decide

/-! ## `process_environ` -/

/-- `HashMap<String, String>`, as its entries. -/
structure Environ where
  entries : List (RString × RString)
  deriving DecidableEq, Repr

/-- `HashMap::new()`. -/
def Environ.empty : Environ := ⟨[]⟩

/-- `HashMap::insert`: the new value replaces the old one of the same key. -/
def Environ.insert (m : Environ) (k v : RString) : Environ :=
  ⟨(k, v) :: m.entries.filter (·.1 != k)⟩

/-- `HashMap::get`. -/
def Environ.get? (m : Environ) (k : RString) : Option RString := m.entries.lookup k

/-- The panic of `Option::unwrap` on `None`. -/
def unwrapNone : String := "called `Option::unwrap()` on a `None` value"

/-- The closure of `process_environ`'s `map`, on one piece: `item.split("=")`, the first part
as the name and the second as the value; the `unwrap` panics on a piece without `=`. A split
always yields a first part, so the `if let` never fails. -/
def environInsert (result : Environ) (b : Bytes) : Except String Environ :=
  let item := RString.fromUtf8Unchecked b
  match item.bytes.splitOn 0x3D with
  | name :: value :: _ => .ok (result.insert ⟨name⟩ ⟨value⟩)
  | _ => .error unwrapNone

/-- A `map` adapter that has not been advanced: the pieces it would read and its closure. -/
structure MapAdapter where
  pieces : List Bytes
  closure : Environ → Bytes → Except String Environ

/-- Advancing an adapter to its end, as `for_each` or `collect` would. -/
def MapAdapter.consume (a : MapAdapter) (result : Environ) : Except String Environ :=
  a.pieces.foldlM a.closure result

/-- `process_environ`. The insertions are the closure of a `map` adapter, which is dropped at
the end of its statement without being advanced; `Iterator::map` runs its closure only when
advanced, so `result` is returned as `HashMap::new()` made it. -/
def processEnviron (fs : Procfs) (pid : PidT) : Environ :=
  let result := Environ.empty
  let _adapter : MapAdapter := ⟨(fs.data pid .environ).splitOn 0, environInsert⟩
  result

/-- **`process_environ` returns an empty map** for every environment block. -/
theorem processEnviron_eq_empty (fs : Procfs) (pid : PidT) :
    processEnviron fs pid = Environ.empty := rfl

/-- An environment block with the one entry `A=1`. -/
def oneEntryFs : Procfs := ⟨fun _ _ => some [0x41, 0x3D, 0x31, 0]⟩

/-- The entry `A=1` is lost. -/
theorem processEnviron_loses_entry : (processEnviron oneEntryFs 0).get? ⟨[0x41]⟩ = none := rfl

theorem foldlM_environInsert_concat_nil (l : List Bytes) (m : Environ) :
    (l ++ [[]]).foldlM environInsert m = .error unwrapNone := by
  induction l generalizing m with
  | nil => rfl
  | cons b l ih =>
    rw [List.cons_append, List.foldlM_cons]
    cases h : environInsert m b with
    | error e =>
      have : e = unwrapNone := by
        simp only [environInsert] at h
        split at h <;> cases h
        rfl
      simp [this, bind, Except.bind]
    | ok m' => exact ih m'

/-- Consuming the adapter would not help: the piece after the final NUL of any block, and the
one piece of an empty block, hold no `=`, and the `unwrap` panics on them. -/
theorem consume_environInsert_panics (d : Bytes) (hd : d = [] ∨ d.getLast? = some 0) :
    (MapAdapter.mk (d.splitOn 0) environInsert).consume Environ.empty = .error unwrapNone := by
  rcases hd with rfl | hd
  · rfl
  obtain ⟨e, rfl⟩ : ∃ e, d = e ++ [0] := by
    rcases d.eq_nil_or_concat with rfl | ⟨e, b, rfl⟩
    · cases hd
    · exact ⟨e, by simpa using hd⟩
  rw [MapAdapter.consume, splitOn_concat_self, foldlM_environInsert_concat_nil]

theorem consume_environInsert_panics_oneEntry :
    (MapAdapter.mk (([0x41, 0x3D, 0x31, 0] : Bytes).splitOn 0) environInsert).consume
      Environ.empty = .error unwrapNone :=
  consume_environInsert_panics [0x41, 0x3D, 0x31, 0] (.inr rfl)

end Udbg.Nix
