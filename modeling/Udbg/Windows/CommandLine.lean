import Mathlib.Data.List.DropRight

/-!
# The debuggee's command line

`create_debug_process` (`src/os/windows/mod.rs`) builds the command line it passes to
`CreateProcessW` from the trimmed path, quoted when it holds whitespace, and the arguments
joined with single spaces, none of them quoted or escaped. It passes the line as
`cmdline.to_wide()`, a NUL-terminated `LPWSTR`, which `CreateProcessW` reads up to its first
NUL. The child splits its command line by the Windows rules (`CommandLineToArgvW`). The path
survives the round trip when it holds no double quote or NUL; an argument survives it only
when it is non-empty and holds no space, tab, double quote or NUL: the others are split,
merged, cut or lost.

## Main definitions

* `isWhitespace`, `trim`: Rust's `char::is_whitespace` and `str::trim`
* `debugCommandLine`: the command line `create_debug_process` builds
* `lpCommandLine`: what `CreateProcessW` reads of it
* `commandLineToArgv`: the Windows splitting rules

## Main results

* `commandLineToArgv_debugCommandLine`: the path and every plain argument come back
* `commandLineToArgv_changes_arguments`: an argument with a space comes back as two, and one
  with a NUL is cut there
-/

namespace Udbg.Windows

/-- `char::is_whitespace`: the Unicode `White_Space` property. -/
def isWhitespace (c : Char) : Bool :=
  (0x09 ≤ c.toNat && c.toNat ≤ 0x0D) || c.toNat == 0x20 || c.toNat == 0x85 ||
    c.toNat == 0xA0 || c.toNat == 0x1680 || (0x2000 ≤ c.toNat && c.toNat ≤ 0x200A) ||
    c.toNat == 0x2028 || c.toNat == 0x2029 || c.toNat == 0x202F || c.toNat == 0x205F ||
    c.toNat == 0x3000

/-- `str::trim`: the leading and trailing whitespace removed. -/
def trim (s : List Char) : List Char := (s.dropWhile isWhitespace).rdropWhile isWhitespace

/-- `args.join(" ")`. -/
def joinSpace (args : List (List Char)) : List Char := [' '].intercalate args

/-- The command line of `create_debug_process`: the trimmed path, quoted when it holds
whitespace, then a space and the arguments joined by spaces, when there are any. -/
def debugCommandLine (path : List Char) (args : List (List Char)) : List Char :=
  let cmdline := trim path
  let cmdline := if cmdline.any isWhitespace then '"' :: cmdline ++ ['"'] else cmdline
  if args.isEmpty then cmdline else cmdline ++ ' ' :: joinSpace args

/-- What `CreateProcessW` reads of the command line: `cmdline.to_wide()` is passed as an
`LPWSTR`, which ends at its first NUL, so a U+0000 in the path or an argument ends the line
there. -/
def lpCommandLine (cmdline : List Char) : List Char := cmdline.takeWhile (· != '\x00')

/-! ## The Windows splitting rules -/

/-- A separator between arguments. -/
def isBlank (c : Char) : Bool := c == ' ' || c == '\t'

/-- The program name, and the rest of the command line: up to the closing quote when the line
starts with one, else up to the first space or tab. -/
def splitProgramName : List Char → List Char × List Char
  | '"' :: rest => (rest.takeWhile (· != '"'), (rest.dropWhile (· != '"')).drop 1)
  | s => (s.takeWhile (! isBlank ·), s.dropWhile (! isBlank ·))

/-- Splitting the arguments after the program name: the finished arguments, the current one,
whether one has started, whether a quote is open, and the backslashes not yet placed. -/
structure ArgvState where
  done : List (List Char)
  cur : List Char
  started : Bool
  quoted : Bool
  slashes : Nat
  deriving DecidableEq, Repr

/-- Before the first argument. -/
def ArgvState.init : ArgvState := ⟨[], [], false, false, 0⟩

/-- The pending backslashes placed as literal ones. -/
def ArgvState.flush (st : ArgvState) : ArgvState :=
  { st with cur := st.cur ++ List.replicate st.slashes '\\', slashes := 0 }

/-- One character. Backslashes are literal except before a double quote, where each pair
gives one and an odd one makes the quote literal; a double quote otherwise opens or closes
a quoted part and is removed; a space or tab outside quotes ends the current argument. -/
def argvStep (st : ArgvState) (c : Char) : ArgvState :=
  if c = '\\' then { st with slashes := st.slashes + 1, started := true }
  else if c = '"' then
    let st' := { st with cur := st.cur ++ List.replicate (st.slashes / 2) '\\', slashes := 0,
                         started := true }
    if st.slashes % 2 = 0 then { st' with quoted := !st.quoted }
    else { st' with cur := st'.cur ++ ['"'] }
  else if isBlank c && !st.quoted then
    if st.started then ⟨st.done ++ [st.flush.cur], [], false, false, 0⟩ else st
  else { st.flush with cur := st.flush.cur ++ [c], started := true }

/-- The arguments once the line has ended. -/
def ArgvState.finish (st : ArgvState) : List (List Char) :=
  if st.started then st.done ++ [st.flush.cur] else st.done

/-- The arguments after the program name. -/
def parseArgs (s : List Char) : List (List Char) := (s.foldl argvStep ArgvState.init).finish

/-- `CommandLineToArgvW`: the program name, then the arguments. -/
def commandLineToArgv (cmd : List Char) : List (List Char) :=
  (splitProgramName cmd).1 :: parseArgs (splitProgramName cmd).2

example : commandLineToArgv "\"a b\" c \"d e\" f\\\"g".toList =
    ["a b", "c", "d e", "f\"g"].map String.toList := by decide

/-! ## The round trip -/

/-- A plain argument: non-empty, with no space, tab, double quote or NUL. -/
def Plain (a : List Char) : Prop := a ≠ [] ∧ ∀ c ∈ a, c ≠ ' ' ∧ c ≠ '\t' ∧ c ≠ '"' ∧ c ≠ '\x00'

instance (a : List Char) : Decidable (Plain a) := inferInstanceAs (Decidable (_ ∧ _))

theorem isBlank_iff (c : Char) : isBlank c = true ↔ c = ' ' ∨ c = '\t' := by
  simp [isBlank]

theorem isWhitespace_of_isBlank {c : Char} (h : isBlank c = true) : isWhitespace c = true := by
  rcases (isBlank_iff c).mp h with rfl | rfl <;> decide

/-- The characters of a plain argument extend the current one, backslashes included. -/
theorem foldl_argvStep_plain (a : List Char) (ha : ∀ c ∈ a, c ≠ ' ' ∧ c ≠ '\t' ∧ c ≠ '"')
    (st : ArgvState) (hq : st.quoted = false) :
    (a.foldl argvStep st).done = st.done ∧ (a.foldl argvStep st).quoted = false ∧
      (a.foldl argvStep st).flush.cur = st.flush.cur ++ a ∧
      (a.foldl argvStep st).started = (st.started || !a.isEmpty) := by
  induction a generalizing st with
  | nil => simp [hq]
  | cons c a ih =>
    obtain ⟨hsp, htab, hquote⟩ := ha c (List.mem_cons_self c a)
    have hblank : isBlank c = false := by simp [isBlank, hsp, htab]
    have hstep : (argvStep st c).done = st.done ∧ (argvStep st c).quoted = false ∧
        (argvStep st c).flush.cur = st.flush.cur ++ [c] ∧ (argvStep st c).started = true := by
      unfold argvStep
      by_cases hs : c = '\\'
      · simp [hs, hq, ArgvState.flush, List.replicate_succ']
      · simp [hs, hquote, hblank, hq, ArgvState.flush]
    obtain ⟨h1, h2, h3, h4⟩ := ih (fun c hc => ha c (List.mem_cons_of_mem _ hc)) _ hstep.2.1
    refine ⟨h1.trans hstep.1, h2, by rw [List.foldl_cons, h3, hstep.2.2.1]; simp, ?_⟩
    rw [List.foldl_cons, h4, hstep.2.2.2]
    simp

theorem joinSpace_cons_cons (a b : List Char) (rest : List (List Char)) :
    joinSpace (a :: b :: rest) = a ++ ' ' :: joinSpace (b :: rest) := by
  simp [joinSpace, List.intercalate, List.intersperse_cons_cons]

/-- A character of the joined arguments is a separating space or a character of one of them. -/
theorem mem_joinSpace {c : Char} {args : List (List Char)} (h : c ∈ joinSpace args) :
    c = ' ' ∨ ∃ a ∈ args, c ∈ a := by
  induction args with
  | nil => simp [joinSpace, List.intercalate] at h
  | cons a rest ih =>
    cases rest with
    | nil =>
      exact .inr ⟨a, List.mem_singleton_self a, by simpa [joinSpace, List.intercalate] using h⟩
    | cons b rest =>
      rw [joinSpace_cons_cons, List.mem_append, List.mem_cons] at h
      rcases h with h | h | h
      · exact .inr ⟨a, List.mem_cons_self a _, h⟩
      · exact .inl h
      · rcases ih h with h | ⟨x, hx, hc⟩
        exacts [.inl h, .inr ⟨x, List.mem_cons_of_mem a hx, hc⟩]

/-- From between arguments, plain arguments joined by spaces come back one by one. -/
theorem foldl_argvStep_joinSpace (args : List (List Char)) (ha : ∀ a ∈ args, Plain a)
    (done : List (List Char)) :
    ((joinSpace args).foldl argvStep ⟨done, [], false, false, 0⟩).finish = done ++ args := by
  induction args generalizing done with
  | nil => simp [joinSpace, List.intercalate, ArgvState.finish]
  | cons a rest ih =>
    obtain ⟨hne, hchars⟩ := ha a (List.mem_cons_self a rest)
    obtain ⟨h1, h2, h3, h4⟩ := foldl_argvStep_plain a
      (fun c hc => ⟨(hchars c hc).1, (hchars c hc).2.1, (hchars c hc).2.2.1⟩)
      ⟨done, [], false, false, 0⟩ rfl
    have hstarted : (a.foldl argvStep ⟨done, [], false, false, 0⟩).started = true := by
      rw [h4]; cases a with
      | nil => exact absurd rfl hne
      | cons => rfl
    have hcur : (a.foldl argvStep ⟨done, [], false, false, 0⟩).flush.cur = a := by
      simpa [ArgvState.flush] using h3
    cases rest with
    | nil =>
      simp only [joinSpace, List.intercalate, List.intersperse_singleton, List.flatten_cons,
        List.flatten_nil, List.append_nil, ArgvState.finish, hstarted, if_true, h1, hcur]
    | cons b rest =>
      have hblank : argvStep (a.foldl argvStep ⟨done, [], false, false, 0⟩) ' ' =
          ⟨done ++ [a], [], false, false, 0⟩ := by
        simp [argvStep, isBlank, h2, hstarted, h1, hcur]
      rw [joinSpace_cons_cons, List.foldl_append, List.foldl_cons, hblank,
        ih (fun x hx => ha x (List.mem_cons_of_mem a hx)), List.append_assoc]
      rfl

/-- What follows the program name: nothing, or a space and the joined arguments. -/
def argTail (args : List (List Char)) : List Char :=
  if args.isEmpty then [] else ' ' :: joinSpace args

theorem parseArgs_argTail (args : List (List Char)) (ha : ∀ a ∈ args, Plain a) :
    parseArgs (argTail args) = args := by
  unfold argTail parseArgs
  split
  · simp_all [ArgvState.finish, ArgvState.init]
  · rw [List.foldl_cons, show argvStep ArgvState.init ' ' = ⟨[], [], false, false, 0⟩ by rfl,
      foldl_argvStep_joinSpace args ha, List.nil_append]

theorem debugCommandLine_eq (path : List Char) (args : List (List Char)) :
    debugCommandLine path args =
      (if (trim path).any isWhitespace then '"' :: trim path ++ ['"'] else trim path) ++
        argTail args := by
  unfold debugCommandLine argTail
  split <;> simp

theorem splitProgramName_quoted (q tail : List Char) (hq : '"' ∉ q) :
    splitProgramName ('"' :: q ++ '"' :: tail) = (q, tail) := by
  have hall : ∀ c ∈ q, (c != '"') = true := fun c hc => by
    simpa using fun h : c = '"' => hq (h ▸ hc)
  simp [splitProgramName, List.takeWhile_append_of_pos hall, List.dropWhile_append_of_pos hall]

theorem splitProgramName_of_head (s : List Char) (h : s.head? ≠ some '"') :
    splitProgramName s = (s.takeWhile (! isBlank ·), s.dropWhile (! isBlank ·)) := by
  unfold splitProgramName
  split
  · simp at h
  · rfl

/-- A command line with no NUL reaches the child whole. -/
theorem lpCommandLine_debugCommandLine (path : List Char) (args : List (List Char))
    (hn : '\x00' ∉ trim path) (ha : ∀ a ∈ args, Plain a) :
    lpCommandLine (debugCommandLine path args) = debugCommandLine path args := by
  have hargs : '\x00' ∉ argTail args := fun h => by
    unfold argTail at h
    split at h
    · cases h
    · rcases List.mem_cons.mp h with h | h
      · cases h
      · rcases mem_joinSpace h with h | ⟨a, ha', hc⟩
        · cases h
        · exact (ha a ha').2 _ hc |>.2.2.2 rfl
  rw [lpCommandLine, List.takeWhile_eq_self_iff, debugCommandLine_eq]
  intro c hc
  have : c ≠ '\x00' := fun e => by
    subst e
    split_ifs at hc <;> simp_all
  simpa using this

/-- **The path and the plain arguments come back.** When the trimmed path is non-empty and
holds no double quote or NUL, and every argument is plain, the child's splitting of the
command line `CreateProcessW` reads is the trimmed path followed by the arguments. -/
theorem commandLineToArgv_debugCommandLine (path : List Char) (args : List (List Char))
    (hp : trim path ≠ []) (hq : '"' ∉ trim path) (hn : '\x00' ∉ trim path)
    (ha : ∀ a ∈ args, Plain a) :
    commandLineToArgv (lpCommandLine (debugCommandLine path args)) = trim path :: args := by
  rw [lpCommandLine_debugCommandLine path args hn ha]
  suffices h : splitProgramName (debugCommandLine path args) = (trim path, argTail args) by
    rw [commandLineToArgv, h, parseArgs_argTail args ha]
  rw [debugCommandLine_eq]
  split_ifs with hws
  · simpa using splitProgramName_quoted (trim path) (argTail args) hq
  · have hnb : ∀ c ∈ trim path, (! isBlank c) = true := fun c hc => by
      have hw : isWhitespace c = false := by
        simpa using List.any_eq_false.mp (by simpa using hws) c hc
      cases hb : isBlank c
      · rfl
      · simp [isWhitespace_of_isBlank hb] at hw
    obtain ⟨c, q, hcq⟩ := List.exists_cons_of_ne_nil hp
    have hc : c ≠ '"' := fun h => hq (by simp [hcq, h])
    rw [splitProgramName_of_head _ (by simp [hcq, hc]), List.takeWhile_append_of_pos hnb,
      List.dropWhile_append_of_pos hnb]
    unfold argTail
    split <;> simp [isBlank]

theorem commandLineToArgv_programFiles :
    commandLineToArgv (lpCommandLine (debugCommandLine " C:\\Program Files\\app.exe ".toList
        ["-v".toList, "C:\\out\\".toList])) =
      trim " C:\\Program Files\\app.exe ".toList :: ["-v".toList, "C:\\out\\".toList] :=
  commandLineToArgv_debugCommandLine _ _ (by decide) (by decide) (by decide) (by decide)

/-- **An argument with a space is split, and one with a NUL is cut.** The command line built
for `a.exe` with the one argument `x y` is `a.exe x y`, which the child reads as three words;
with the one argument `a`, NUL, `b`, `CreateProcessW` stops at the NUL and the child reads
`a.exe a`. -/
theorem commandLineToArgv_changes_arguments :
    commandLineToArgv (lpCommandLine (debugCommandLine "a.exe".toList ["x y".toList])) =
        ["a.exe".toList, "x".toList, "y".toList] ∧
      commandLineToArgv (lpCommandLine (debugCommandLine "a.exe".toList ["a\x00b".toList])) =
        ["a.exe".toList, "a".toList] := by
  decide

end Udbg.Windows
