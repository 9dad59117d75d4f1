import Mathlib.Data.List.Basic

/-!
# Rust strings and their UTF-8 invariant

A Rust `String` or `str` is a byte sequence that must be well-formed UTF-8: every safe
operation may assume it, and only the `unsafe` constructors (`String::from_utf8_unchecked`,
`str::from_utf8_unchecked`) can build one without checking. The invariant is therefore a
predicate here and not a field of `RString`: the procfs readers build strings with the
unchecked constructors, and whether the invariant holds of what they build is a theorem to
prove, not a fact to assume.

## Main definitions

* `RString`: a Rust string, as its bytes
* `validUtf8`: well-formed UTF-8 (Unicode Table 3-7), the check `String::from_utf8` makes
-/

namespace Udbg

/-- Bytes as the readers return them. -/
abbrev Bytes := List UInt8

/-- A Rust `String` or `str`, as its bytes. The UTF-8 invariant is `RString.Valid`. -/
structure RString where
  bytes : Bytes
  deriving DecidableEq, Repr

/-- `String::from_utf8_unchecked` and `str::from_utf8_unchecked`: the bytes, unchecked. -/
def RString.fromUtf8Unchecked (b : Bytes) : RString := ⟨b⟩

@[simp] theorem RString.bytes_fromUtf8Unchecked (b : Bytes) :
    (RString.fromUtf8Unchecked b).bytes = b := rfl

theorem RString.bytes_inj {a b : RString} : a.bytes = b.bytes ↔ a = b :=
  ⟨fun h => by cases a; cases b; cases h; rfl, fun h => h ▸ rfl⟩

/-! ## Well-formed UTF-8 -/

/-- The continuation bytes still owed inside a character, and the range the next one must
fall in (only the first continuation byte after `E0`, `ED`, `F0` and `F4` is narrower than
`80..BF`). -/
structure Owed where
  count : Nat
  lo : UInt8
  hi : UInt8
  deriving DecidableEq, Repr

/-- Between characters: nothing owed. -/
def Owed.none : Owed := ⟨0, 0x80, 0xBF⟩

/-- What a leading byte asks for after it, by Unicode Table 3-7; `none` when the byte cannot
start a character (`80..C1` and `F5..FF`). -/
def leadByte (a : UInt8) : Option Owed :=
  if a ≤ 0x7F then some ⟨0, 0x80, 0xBF⟩
  else if 0xC2 ≤ a ∧ a ≤ 0xDF then some ⟨1, 0x80, 0xBF⟩
  else if a = 0xE0 then some ⟨2, 0xA0, 0xBF⟩
  else if 0xE1 ≤ a ∧ a ≤ 0xEC then some ⟨2, 0x80, 0xBF⟩
  else if a = 0xED then some ⟨2, 0x80, 0x9F⟩
  else if 0xEE ≤ a ∧ a ≤ 0xEF then some ⟨2, 0x80, 0xBF⟩
  else if a = 0xF0 then some ⟨3, 0x90, 0xBF⟩
  else if 0xF1 ≤ a ∧ a ≤ 0xF3 then some ⟨3, 0x80, 0xBF⟩
  else if a = 0xF4 then some ⟨3, 0x80, 0x8F⟩
  else none

/-- The rest of a byte sequence is well-formed, given what the bytes before it still owe. -/
def validFrom : Owed → Bytes → Bool
  | ⟨0, _, _⟩, [] => true
  | ⟨_ + 1, _, _⟩, [] => false
  | ⟨0, _, _⟩, a :: l =>
    match leadByte a with
    | some o => validFrom o l
    | none => false
  | ⟨n + 1, lo, hi⟩, b :: l => lo ≤ b && b ≤ hi && validFrom ⟨n, 0x80, 0xBF⟩ l

/-- Well-formed UTF-8. -/
def validUtf8 (b : Bytes) : Bool := validFrom Owed.none b

/-- The invariant every Rust `String` and `str` must keep. -/
def RString.Valid (s : RString) : Prop := validUtf8 s.bytes = true

instance (s : RString) : Decidable s.Valid := inferInstanceAs (Decidable (_ = true))

example : validUtf8 [0xE2, 0x82, 0xAC] = true := by decide
example : validUtf8 [0xED, 0xA0, 0x80] = false := by decide

end Udbg
