import Udbg.Windows.Memory

/-!
# Cross-process structure readers

`read_nt_header` (`src/os/windows/mod.rs`) reads the DOS header at a module base, checks
`e_magic`, and reads the NT header at the base plus `e_lfanew`, checking its signature.
`Process::cmdline` follows the PEB to the process parameters and reads the `CommandLine`
string descriptor there. Both add a value read from the target to an address: `e_lfanew`, a
signed `LONG` sign-extended by `as usize`, and the `ProcessParameters` pointer. Neither
addition is checked, so a hostile target makes it wrap (a debug build panics there instead):
a negative `e_lfanew` sends the NT header read below the module base, and the reader accepts
what it finds there.

## Main definitions

* `ImageDosHeader`, `ImageNtHeaders`, `UnicodeString`: byte windows read by offset
* `readNtHeader`, `Process.cmdline`

## Main results

* `readNtHeader_negative_lfanew`: an image with a negative `e_lfanew` is accepted
* `cmdline_wraps`: a `ProcessParameters` pointer near the top overflows; a release build
  wraps to an address below `0x70`, which no process maps
-/

namespace Udbg.Windows

/-- `IMAGE_DOS_SIGNATURE`, `MZ`. -/
def IMAGE_DOS_SIGNATURE : UInt16 := 0x5A4D

/-- `IMAGE_NT_SIGNATURE`, `PE\0\0`. -/
def IMAGE_NT_SIGNATURE : UInt32 := 0x00004550

/-- `IMAGE_DOS_HEADER`, as its 64 bytes. -/
structure ImageDosHeader where
  raw : List UInt8
  deriving DecidableEq, Repr

/-- `e_magic`. -/
def ImageDosHeader.eMagic (h : ImageDosHeader) : UInt16 := le16 h.raw 0

/-- `e_lfanew`, a signed `LONG`. -/
def ImageDosHeader.eLfanew (h : ImageDosHeader) : BitVec 32 := (le32 h.raw 0x3c).toBitVec

/-- `IMAGE_NT_HEADERS64`, as its 264 bytes. -/
structure ImageNtHeaders where
  raw : List UInt8
  deriving DecidableEq, Repr

/-- `Signature`. -/
def ImageNtHeaders.signature (h : ImageNtHeaders) : UInt32 := le32 h.raw 0

/-- `ReadValue for IMAGE_DOS_HEADER`: the header, when its magic is right. -/
def readDosHeader (m : Memory) (address : Nat) : Option ImageDosHeader := do
  let dos := ImageDosHeader.mk (← m.readCopy address 64)
  if dos.eMagic != IMAGE_DOS_SIGNATURE then none
  some dos

/-- `ReadValue for IMAGE_NT_HEADERS`: the header, when its signature is right. -/
def readNtHeaders (m : Memory) (address : Nat) : Option ImageNtHeaders := do
  let nt := ImageNtHeaders.mk (← m.readCopy address 264)
  if nt.signature != IMAGE_NT_SIGNATURE then none
  some nt

/-- `x as usize` for an `i32`: sign extension to 64 bits. -/
def asUsize (x : BitVec 32) : Nat := (x.signExtend 64).toNat

/-- `ReadMemUtilsWin::read_nt_header`. -/
def readNtHeader (m : Memory) (modBase : Nat) : Option (ImageNtHeaders × Nat) := do
  let dos ← readDosHeader m modBase
  let nt ← readNtHeaders m (wrappingAdd 64 modBase (asUsize dos.eLfanew))
  some (nt, asUsize dos.eLfanew)

/-- Memory holding an image at the usual base `0x140000000` whose `e_lfanew` is `-0x100`,
with an NT signature `0x100` bytes below the base. The page below the image and the image's
first page are mapped, their other bytes `0`; nothing else is. -/
def hostileImage : Memory where
  byte a :=
    if a < 0x13FFFF000 ∨ 0x140001000 ≤ a then none
    else if a = 0x140000000 then some 0x4D
    else if a = 0x140000001 then some 0x5A
    else if 0x14000003d ≤ a ∧ a ≤ 0x14000003f then some 0xFF
    else if a = 0x13FFFFF00 then some 0x50
    else if a = 0x13FFFFF01 then some 0x45
    else some 0
  bounded _ h := if_pos (.inr (by omega))

set_option maxRecDepth 8000 in
/-- **A negative `e_lfanew` is accepted.** The DOS header at `0x140000000` has
`e_lfanew = -0x100`; `read_nt_header` adds its sign extension, `2^64 - 0x100`, to the base,
the sum wraps to `0x13FFFFF00`, and the header there is returned with that offset. -/
theorem readNtHeader_negative_lfanew :
    (readDosHeader hostileImage 0x140000000).map (·.eLfanew.toInt) = some (-0x100) ∧
      (readNtHeader hostileImage 0x140000000).map Prod.snd = some (2 ^ 64 - 0x100) := by
  decide

/-! ## The command line from the PEB -/

/-- `UNICODE_STRING`, as its 16 bytes. -/
structure UnicodeString where
  raw : List UInt8
  deriving DecidableEq, Repr

/-- `Length`, in bytes. -/
def UnicodeString.length (u : UnicodeString) : UInt16 := le16 u.raw 0

/-- `Buffer`. -/
def UnicodeString.buffer (u : UnicodeString) : Nat := (le64 u.raw 8).toNat

/-- Modelled from the spec (§4.8, the string body read from the target): `read_wstring`,
which is not in the source: the `len` UTF-16 units at `address`. The decoding to UTF-8 is the
collaborator of §6 and is left out; a string is its units. -/
def Memory.readWstring (m : Memory) (address len : Nat) : Option (List UInt16) := do
  let bs ← m.readCopy address (2 * len)
  some ((List.range len).map fun k => le16 bs (2 * k))

/-- `ReadValue<String> for UNICODE_STRING`: the descriptor, then the string it points to. -/
def readUnicodeString (m : Memory) (address : Nat) : Option (List UInt16) := do
  let u := UnicodeString.mk (← m.readCopy address 16)
  m.readWstring u.buffer (u.length.toNat / 2)

/-- `FIELD_OFFSET!(PEB, ProcessParameters)` on x64. -/
def processParametersOffset : Nat := 0x20

/-- `FIELD_OFFSET!(RTL_USER_PROCESS_PARAMETERS, CommandLine)` on x64. -/
def commandLineOffset : Nat := 0x70

/-- `Process::cmdline`: the PEB base from `basic_information`, the `ProcessParameters`
pointer read there, and the `CommandLine` string read from the parameters. -/
def Process.cmdline (m : Memory) (peb : Option Nat) : Option (List UInt16) := do
  let peb ← peb
  let p := (le64 (← m.readCopy (wrappingAdd 64 peb processParametersOffset) 8) 0).toNat
  readUnicodeString m (wrappingAdd 64 p commandLineOffset)

/-- Memory whose one mapped page holds a PEB at `0x3F0000` that points its parameters at
`2^64 - 0x10`; the page's other bytes are `0`. -/
def hostilePeb : Memory where
  byte a :=
    if a < 0x3F0000 ∨ 0x3F1000 ≤ a then none
    else if a = 0x3F0020 then some 0xF0
    else if 0x3F0021 ≤ a ∧ a ≤ 0x3F0027 then some 0xFF
    else some 0
  bounded _ h := if_pos (.inr (by omega))

/-- **A parameters pointer near the top overflows.** The pointer `2^64 - 0x10` plus the
`CommandLine` offset is past the address space: a debug build panics on the addition, and a
release build wraps it to `0x60`, in the 64 KiB that no process maps, so the read fails there
and the command line is `None`. -/
theorem cmdline_wraps :
    2 ^ 64 ≤ (2 ^ 64 - 0x10) + commandLineOffset ∧
      wrappingAdd 64 (2 ^ 64 - 0x10) commandLineOffset = 0x60 ∧
      Process.cmdline hostilePeb (some 0x3F0000) = none := by
  decide

end Udbg.Windows
