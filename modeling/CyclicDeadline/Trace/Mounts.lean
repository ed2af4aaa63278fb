import CyclicDeadline.Libc.Scanf
import CyclicDeadline.Trace.Vsprintf

/-!
# `find_mount`: the mount table read back

`find_mount(mount, debugfs)` opens `/proc/mounts` and calls
`fscanf(fp, "%*s %1024s %99s %*s %*d %*d\n", debugfs, type)` while it returns 2, leaving the
loop at the first line whose type is `mount`; it returns 1 when the last `type` read is `mount`.
The width of the mount point is `STR(MAXPATH)`.

`scanMount` is one call of `fscanf`, directive by directive (`Libc.Scanf`). Its count is that of
the assigned conversions, `EOF` when the file ends before the first one; a failing `%*d` still
returns 2 and leaves the rest of the line to the next call. `type` is uninitialised until a call
stores into it, so the model keeps it as an `Option`, and `findMount` is `none` where `strcmp`
would read it before any store.

`findMount_mountsText` is the round trip: on the text the kernel writes for a table of
well-formed entries, `find_mount` answers as `mountLookup`, the first entry of type `mount`.
When there is none it returns 0 and leaves the mount point of the last entry in `debugfs`; on an
empty table it reads `type` uninitialised.
-/

set_option autoImplicit false
set_option relaxedAutoImplicit false

namespace CyclicDeadline

/-- `MAXPATH`: 1024, unless the build defines it. -/
def maxpath : Nat := 1024

/-! ### One call of `fscanf` -/

/-- The directives `%*s %*d %*d\n` after the two stored fields: they assign nothing, and a
failing one ends the call. The input they leave. -/
def scanTail (input : List Char) : List Char :=
  match scanString none input with
  | none => []
  | some (_, afterOpts) =>
    match scanInt afterOpts with
    | (none, afterFreq) => afterFreq
    | (some _, afterFreq) =>
      match scanInt afterFreq with
      | (none, afterPassno) => afterPassno
      | (some _, afterPassno) => afterPassno.dropWhile isSpace

/-- What one call `fscanf(fp, "%*s %1024s %99s %*s %*d %*d\n", debugfs, type)` does: its count,
the fields it stores into `debugfs` and `type` (`none` where it stores nothing), and the input
it leaves. -/
structure MountScan where
  ret : Int
  debugfs : Option (List Char)
  type : Option (List Char)
  rest : List Char
deriving DecidableEq, Repr

/-- One call of the `fscanf` of `find_mount` on the unread input. The count is `EOF`, -1, when
the file ends before `%1024s` stores, and 1 when it ends before `%99s` stores. -/
def scanMount (input : List Char) : MountScan :=
  match scanString none input with
  | none => ⟨-1, none, none, []⟩
  | some (_, afterDevice) =>
    match scanString (some maxpath) afterDevice with
    | none => ⟨-1, none, none, []⟩
    | some (dir, afterDir) =>
      match scanString (some 99) afterDir with
      | none => ⟨1, some dir, none, []⟩
      | some (type, afterType) => ⟨2, some dir, some type, scanTail afterType⟩

theorem scanTail_suffix (input : List Char) : scanTail input <:+ input := by
  unfold scanTail
  split
  · exact List.nil_suffix
  · rename_i afterOpts hopts
    have hfreq := (scanInt_suffix afterOpts).trans (scanString_suffix hopts)
    split
    · rename_i heq
      simpa [heq] using hfreq
    · rename_i afterFreq heq
      rw [heq] at hfreq
      have hpassno := (scanInt_suffix afterFreq).trans hfreq
      split
      · rename_i heq'
        simpa [heq'] using hpassno
      · rename_i heq'
        rw [heq'] at hpassno
        exact (List.dropWhile_suffix _).trans hpassno

/-- A call that returns 2 has read at least the device field: the loop of `find_mount` ends. -/
theorem scanMount_rest_lt {input : List Char} (h : (scanMount input).ret = 2) :
    (scanMount input).rest.length < input.length := by
  unfold scanMount at h ⊢
  split at h
  · simp at h
  · rename_i afterDevice hdevice
    have hlt := scanString_lt hdevice
    split at h
    · simp at h
    · rename_i dir afterDir hdir
      split at h
      · simp at h
      · rename_i type afterType htype
        simp only [hdir, htype]
        have hle := ((scanTail_suffix afterType).trans
          ((scanString_suffix htype).trans (scanString_suffix hdir))).length_le
        omega

/-! ### The loop -/

/-- The `while` loop of `find_mount` from the unread input, with `debugfs` and `type` holding
what earlier calls stored (`type` is `none` while nothing has been stored into it): call
`fscanf` while it returns 2, and leave after a call whose type is `mount`. What `debugfs` and
`type` hold after the loop. -/
def findMountLoop (mount input debugfs : List Char) (type : Option (List Char)) :
    List Char × Option (List Char) :=
  let scan := scanMount input
  let debugfs := scan.debugfs.getD debugfs
  let type := scan.type.or type
  if _ : scan.ret = 2 then
    if type.map cstr = some (cstr mount) then (debugfs, type)
    else findMountLoop mount scan.rest debugfs type
  else (debugfs, type)
termination_by input.length
decreasing_by exact scanMount_rest_lt ‹_›

/-- `find_mount(mount, debugfs)` when `/proc/mounts` holds `mounts` (`none`: `fopen` fails) and
`debugfs` holds `debugfs`: whether it returns 1, and what `debugfs` holds after. `none` where
`strcmp` reads `type` before any call has stored into it, which is undefined. -/
def findMount (mount : List Char) (mounts : Option (List Char)) (debugfs : List Char) :
    Option (Bool × List Char) :=
  match mounts with
  | none => some (false, debugfs)
  | some input =>
    let after := findMountLoop mount input debugfs none
    after.2.map fun type ↦ (decide (cstr type = cstr mount), after.1)

/-! ### The table the kernel writes -/

/-- An entry of the mount table: the device, the mount point, the file system type, the mount
options, and the two numbers after them. -/
structure MountEntry where
  device : List Char
  dir : List Char
  type : List Char
  opts : List Char
  freq : Nat
  passno : Nat
deriving DecidableEq, Repr

/-- The line of `/proc/mounts` for the entry: its six fields, separated by blanks. -/
def MountEntry.line (e : MountEntry) : List Char :=
  e.device ++ ' ' :: e.dir ++ ' ' :: e.type ++ ' ' :: e.opts ++ ' ' :: formatInt e.freq ++
    ' ' :: formatInt e.passno ++ ['\n']

/-- An entry whose line `find_mount` reads as written: every field a word (the kernel writes a
blank in a name as `\040`), the mount point at most `MAXPATH` characters and the type at most
99. -/
def MountEntry.Valid (e : MountEntry) : Prop :=
  Word e.device ∧ Word e.dir ∧ e.dir.length ≤ maxpath ∧ Word e.type ∧ e.type.length ≤ 99 ∧
    Word e.opts

instance MountEntry.instDecidableValid (e : MountEntry) : Decidable e.Valid :=
  inferInstanceAs (Decidable (_ ∧ _))

/-- The text of `/proc/mounts` for the table. -/
def mountsText (table : List MountEntry) : List Char :=
  table.flatMap MountEntry.line

/-- What `find_mount` is for: 1 and the mount point of the first entry of type `mount`, compared
as C strings; when there is none, 0 and the mount point of the last entry, the last one read.
`none` for the empty table. -/
def mountLookup (mount : List Char) (table : List MountEntry) : Option (Bool × List Char) :=
  match table.find? (fun e ↦ cstr e.type = cstr mount) with
  | some e => some (true, e.dir)
  | none => table.getLast?.map fun e ↦ (false, e.dir)

/-! ### Reading a line back -/

theorem stopsDigits_blank (rest : List Char) : StopsDigits (' ' :: rest) :=
  stopsDigits_cons rfl

theorem stopsDigits_newline (rest : List Char) : StopsDigits ('\n' :: rest) :=
  stopsDigits_cons rfl

/-- On a word of options followed by a line that starts with a non-blank, the directives after the
type read the options and the two numbers and stop at the next line. -/
theorem scanTail_line {opts next : List Char} (hopts : Word opts) (freq passno : Nat)
    (hnext : next.dropWhile isSpace = next) :
    scanTail (' ' :: (opts ++ ' ' :: (formatInt freq ++ ' ' :: (formatInt passno ++ '\n' :: next)))) =
      next := by
  rw [scanTail, scanString_blank _ isSpace_blank,
    scanString_word hopts (by simp) isSpace_blank]
  dsimp only
  rw [scanInt_blank isSpace_blank, scanInt_formatInt _ (stopsDigits_blank _)]
  dsimp only
  rw [scanInt_blank isSpace_blank, scanInt_formatInt _ (stopsDigits_newline _)]
  dsimp only
  rw [List.dropWhile_cons_of_pos isSpace_newline, hnext]

/-- On a valid entry followed by a line that starts with a non-blank, one call of `fscanf` reads the
entry's line: it returns 2, stores the mount point and the type, and stops at the next line. -/
theorem scanMount_line {e : MountEntry} (he : e.Valid) {next : List Char}
    (hnext : next.dropWhile isSpace = next) :
    scanMount (e.line ++ next) = ⟨2, some e.dir, some e.type, next⟩ := by
  obtain ⟨hdevice, hdir, hdirLen, htype, htypeLen, hopts⟩ := he
  have htail := scanTail_line hopts e.freq e.passno hnext
  simp only [MountEntry.line, List.append_assoc, List.cons_append, List.nil_append]
  rw [scanMount, scanString_word hdevice (by simp) isSpace_blank]
  dsimp only
  rw [scanString_blank _ isSpace_blank, scanString_word hdir (by simpa using hdirLen) isSpace_blank]
  dsimp only
  rw [scanString_blank _ isSpace_blank, scanString_word htype (by simpa using htypeLen) isSpace_blank]
  dsimp only
  rw [htail]

theorem mountsText_dropWhile {table : List MountEntry} (hvalid : ∀ e ∈ table, e.Valid) :
    (mountsText table).dropWhile isSpace = mountsText table := by
  cases table with
  | nil => rfl
  | cons e es =>
    simp only [mountsText, List.flatMap_cons, MountEntry.line, List.append_assoc]
    exact (hvalid e (List.mem_cons_self e es)).1.dropWhile_append _

theorem findMountLoop_nil (mount debugfs : List Char) (type : Option (List Char)) :
    findMountLoop mount [] debugfs type = (debugfs, type) := by
  rw [findMountLoop]
  simp [scanMount, scanString]

/-- On a valid entry followed by a line that starts with a non-blank, the loop reads the entry's
line, and leaves when its type is `mount`. -/
theorem findMountLoop_line (mount : List Char) {e : MountEntry} (he : e.Valid) {next : List Char}
    (hnext : next.dropWhile isSpace = next) (debugfs : List Char) (type : Option (List Char)) :
    findMountLoop mount (e.line ++ next) debugfs type =
      if cstr e.type = cstr mount then (e.dir, some e.type)
      else findMountLoop mount next e.dir (some e.type) := by
  rw [findMountLoop, scanMount_line he hnext]
  simp

/-- On a table of valid entries, the loop leaves at the first entry of type `mount`, or after the
last entry, with what the last call stored. -/
theorem findMountLoop_mountsText (mount : List Char) :
    ∀ {table : List MountEntry}, (∀ e ∈ table, e.Valid) →
      ∀ (debugfs : List Char) (type : Option (List Char)),
      findMountLoop mount (mountsText table) debugfs type =
        match table.find? (fun e ↦ cstr e.type = cstr mount), table.getLast? with
        | some e, _ => (e.dir, some e.type)
        | none, some e => (e.dir, some e.type)
        | none, none => (debugfs, type)
  | [], _, debugfs, type => findMountLoop_nil mount debugfs type
  | e :: es, hvalid, debugfs, type => by
    have hes : ∀ e' ∈ es, e'.Valid := fun e' he' ↦ hvalid e' (List.mem_cons_of_mem e he')
    rw [mountsText, List.flatMap_cons, ← mountsText,
      findMountLoop_line mount (hvalid e (List.mem_cons_self e es)) (mountsText_dropWhile hes),
      List.find?_cons, List.getLast?_cons]
    by_cases hmatch : cstr e.type = cstr mount
    · simp [hmatch]
    · rw [if_neg hmatch, findMountLoop_mountsText mount hes]
      simp only [hmatch, decide_False]
      cases es.find? (fun e ↦ cstr e.type = cstr mount) <;> cases es.getLast? <;> rfl

/-- For a table of valid entries, on the text of `/proc/mounts` for the table `find_mount` answers
with the first entry of type `mount`; when there is none it returns 0 with the mount point of the
last entry in `debugfs`, and on the empty table it is undefined. -/
theorem findMount_mountsText (mount : List Char) {table : List MountEntry}
    (hvalid : ∀ e ∈ table, e.Valid) (debugfs : List Char) :
    findMount mount (some (mountsText table)) debugfs = mountLookup mount table := by
  simp only [findMount, findMountLoop_mountsText mount hvalid, mountLookup]
  cases hfind : table.find? (fun e ↦ cstr e.type = cstr mount) with
  | some e => simpa using List.find?_some hfind
  | none =>
    cases hlast : table.getLast? with
    | none => rfl
    | some l =>
      have hmiss := List.find?_eq_none.mp hfind l (List.mem_of_getLast?_eq_some hlast)
      simp only [decide_eq_true_eq] at hmiss
      simp [hmiss]

/-- `/proc/mounts` with `proc` and then `debugfs`: `find_mount("debugfs", ...)` returns 1 with
`/sys/kernel/debug`. -/
theorem findMount_mountsText_debugfs :
    (∀ e ∈ [MountEntry.mk "proc".toList "/proc".toList "proc".toList "rw".toList 0 0,
        MountEntry.mk "debugfs".toList "/sys/kernel/debug".toList "debugfs".toList "rw".toList 0 0],
        e.Valid) ∧
      findMount "debugfs".toList
          (some (mountsText [MountEntry.mk "proc".toList "/proc".toList "proc".toList "rw".toList 0 0,
            MountEntry.mk "debugfs".toList "/sys/kernel/debug".toList "debugfs".toList
              "rw".toList 0 0])) [] =
        mountLookup "debugfs".toList
          [MountEntry.mk "proc".toList "/proc".toList "proc".toList "rw".toList 0 0,
            MountEntry.mk "debugfs".toList "/sys/kernel/debug".toList "debugfs".toList
              "rw".toList 0 0] :=
  have hvalid : ∀ e ∈ [MountEntry.mk "proc".toList "/proc".toList "proc".toList "rw".toList 0 0,
      MountEntry.mk "debugfs".toList "/sys/kernel/debug".toList "debugfs".toList "rw".toList 0 0],
      e.Valid := by decide
  ⟨hvalid, findMount_mountsText _ hvalid []⟩

end CyclicDeadline
