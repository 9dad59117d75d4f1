import Mathlib.Logic.Function.Basic

/-!
# Exception records

`ExceptionRecord::copy` (`src/os/windows/mod.rs`) copies an `EXCEPTION_RECORD` that a debug
event carries into the debugger's own `ExceptionRecord`: its scalar fields, then the first
`NumberParameters` entries of `ExceptionInformation`, one by one, into `params`. Both arrays
have `EXCEPTION_MAXIMUM_PARAMETERS` (15) entries and are indexed with bounds checks, so the copy
panics, at index 15, exactly when `NumberParameters` exceeds 15; otherwise it copies the
parameters the record has and leaves the other entries of `params` as they were.

## Main definitions

* `RawExceptionRecord`, `ExceptionRecord`
* `index`, `setIndex`: bounds-checked indexing of a `[T; 15]`
* `copyParams`: the loop of `copy`; `ExceptionRecord.copy`

## Main results

* `copy_eq`: what `copy` returns, for every record and every parameter count
-/

namespace Udbg.Windows

/-- `EXCEPTION_MAXIMUM_PARAMETERS`. -/
def EXCEPTION_MAXIMUM_PARAMETERS : Nat := 15

/-- A `[T; EXCEPTION_MAXIMUM_PARAMETERS]`. -/
abbrev ParamArray (α : Type) := Fin EXCEPTION_MAXIMUM_PARAMETERS → α

/-- `EXCEPTION_RECORD` as a 64-bit debug event carries it, its pointers as addresses. -/
structure RawExceptionRecord where
  exceptionCode : UInt32
  exceptionFlags : UInt32
  exceptionRecord : UInt64
  exceptionAddress : UInt64
  numberParameters : UInt32
  exceptionInformation : ParamArray UInt64

/-- `ExceptionRecord`, the debugger's copy of a record. -/
structure ExceptionRecord where
  code : UInt32
  flags : UInt32
  record : UInt64
  address : UInt64
  paramNum : UInt32
  params : ParamArray UInt64

/-- The message of the panic of a failed bounds check. -/
def indexOutOfBounds (len i : Nat) : String :=
  "index out of bounds: the len is " ++ toString len ++ " but the index is " ++ toString i

variable {α : Type}

/-- `a[i]` on a `[T; 15]`: the entry, or the bounds-check panic. -/
def index (a : ParamArray α) (i : Nat) : Except String α :=
  if h : i < EXCEPTION_MAXIMUM_PARAMETERS then .ok (a ⟨i, h⟩)
  else .error (indexOutOfBounds EXCEPTION_MAXIMUM_PARAMETERS i)

/-- `a[i] = v` on a `[T; 15]`: the array with entry `i` set, or the bounds-check panic. -/
def setIndex (a : ParamArray α) (i : Nat) (v : α) : Except String (ParamArray α) :=
  if h : i < EXCEPTION_MAXIMUM_PARAMETERS then .ok (Function.update a ⟨i, h⟩ v)
  else .error (indexOutOfBounds EXCEPTION_MAXIMUM_PARAMETERS i)

/-- The loop `for i in i..i + count { params[i] = info[i] as u64 }`; the right-hand side is
read first. -/
def copyParams (info : ParamArray UInt64) :
    (i count : Nat) → ParamArray UInt64 → Except String (ParamArray UInt64)
  | _, 0, params => .ok params
  | i, count + 1, params => do
    let v ← index info i
    let params ← setIndex params i v
    copyParams info (i + 1) count params

/-- `ExceptionRecord::copy`: the scalar fields, then the loop over the first
`NumberParameters` parameters. -/
def ExceptionRecord.copy (self : ExceptionRecord) (r : RawExceptionRecord) :
    Except String ExceptionRecord := do
  let params ← copyParams r.exceptionInformation 0 r.numberParameters.toNat self.params
  pure
    { code := r.exceptionCode
      flags := r.exceptionFlags
      record := r.exceptionRecord
      address := r.exceptionAddress
      paramNum := r.numberParameters
      params := params }

/-! ## The loop -/

section Loop

variable (info : ParamArray UInt64)

/-- Within the arrays, the loop copies entries `i` to `i + count - 1` and leaves the rest. -/
theorem copyParams_ok (i count : Nat) (params : ParamArray UInt64)
    (h : i + count ≤ EXCEPTION_MAXIMUM_PARAMETERS) :
    copyParams info i count params =
      .ok fun j => if i ≤ j.val ∧ j.val < i + count then info j else params j := by
  induction count generalizing i params with
  | zero => exact congrArg Except.ok (funext fun j => by rw [if_neg (by omega)])
  | succ count ih =>
    have hi : i < EXCEPTION_MAXIMUM_PARAMETERS := by omega
    simp only [copyParams, index, setIndex, hi, dif_pos, bind, Except.bind,
      ih (i + 1) _ (by omega)]
    congr 1
    funext j
    by_cases hj : j = ⟨i, hi⟩
    · subst hj; simp
    · have hj' : j.val ≠ i := fun e => hj (Fin.ext e)
      rw [Function.update_noteq hj]
      by_cases hr : i + 1 ≤ j.val ∧ j.val < i + 1 + count
      · rw [if_pos hr, if_pos (by omega)]
      · rw [if_neg hr, if_neg (by omega)]

/-- A loop that runs past the arrays panics at their end. -/
theorem copyParams_panics (i count : Nat) (params : ParamArray UInt64)
    (hi : i ≤ EXCEPTION_MAXIMUM_PARAMETERS) (h : EXCEPTION_MAXIMUM_PARAMETERS < i + count) :
    copyParams info i count params =
      .error (indexOutOfBounds EXCEPTION_MAXIMUM_PARAMETERS EXCEPTION_MAXIMUM_PARAMETERS) := by
  induction count generalizing i params with
  | zero => omega
  | succ count ih =>
    by_cases hlt : i < EXCEPTION_MAXIMUM_PARAMETERS
    · simp only [copyParams, index, setIndex, hlt, dif_pos, bind, Except.bind]
      exact ih (i + 1) _ (by omega) (by omega)
    · have : i = EXCEPTION_MAXIMUM_PARAMETERS := by omega
      subst this
      simp [copyParams, index, bind, Except.bind]

end Loop

/-- **What `copy` does.** When the record has at most 15 parameters, `copy` returns its
scalar fields and its first `NumberParameters` parameters, the other entries of `params` as
they were; past 15 it panics at index 15. -/
theorem copy_eq (self : ExceptionRecord) (r : RawExceptionRecord) :
    self.copy r =
      if r.numberParameters.toNat ≤ EXCEPTION_MAXIMUM_PARAMETERS then
        .ok
          { code := r.exceptionCode
            flags := r.exceptionFlags
            record := r.exceptionRecord
            address := r.exceptionAddress
            paramNum := r.numberParameters
            params := fun j =>
              if j.val < r.numberParameters.toNat then r.exceptionInformation j else self.params j }
      else .error (indexOutOfBounds EXCEPTION_MAXIMUM_PARAMETERS EXCEPTION_MAXIMUM_PARAMETERS) := by
  split_ifs with h
  · simp only [ExceptionRecord.copy, bind, Except.bind, pure, Except.pure,
      copyParams_ok r.exceptionInformation 0 r.numberParameters.toNat self.params (by omega),
      Nat.zero_le, true_and, Nat.zero_add]
  · simp only [ExceptionRecord.copy, bind, Except.bind,
      copyParams_panics r.exceptionInformation 0 r.numberParameters.toNat self.params
        (Nat.zero_le _) (by omega)]

end Udbg.Windows
