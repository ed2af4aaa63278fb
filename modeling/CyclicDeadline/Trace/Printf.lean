import CyclicDeadline.Trace.Vsprintf

/-!
# `my_vsprintf` against `vsnprintf`

`printfText` is what C's `printf` family prints for a format whose directives are `%s`, `%d`,
`%ld` and `%lld` and arguments of the types they take: a string argument up to its NUL, an integer
in decimal, every other character of the format as it is. `vsnprintfText` is that text for the C
string `fmt`, the text `vsnprintf` produces and whose length it returns.

`myVsprintf_eq_printf` is the refinement: for both data models, every such format and argument
list with non-negative integers whose text has at most `size` characters, `my_vsprintf` leaves
exactly that text in `buf[0..n)` and returns its length `n`. It rests on `vsprintfLoop_printfText`,
the loop read one format piece at a time: each piece is stored from the current offset and
nothing later stores below it (`Renders`).

The bound on the buffer does not hold past that case. `myVsprintf_overruns` shows the two ways
out: a `%s` argument longer than the space left is cut off at `end`, but `s` advances by its whole
length, so the function returns more than `size`; and `%d` stores its digits without looking at
`end`, past the buffer. `myVsprintf_stores_below` bounds both: every store lies in
`buf[0 .. max(size, n))`, so whenever the returned `n` is at most `size` every store is inside
the buffer.

The digit loop runs while `lng > 0`, so a negative integer is printed as `0`.
`vsprintfLoop_clamp` shows that the loop does the same with every negative argument read as zero,
and `myVsprintf_within` bounds the stores for every argument list whose text, so read, fits in
the buffer; `Trace.Cycle` applies it to the only calls the program makes.
-/

set_option autoImplicit false
set_option relaxedAutoImplicit false

namespace CyclicDeadline

/-- What C's `printf` prints for the format `fmt` when its directives are `%s`, `%d`, `%ld` and
`%lld` and each argument has the type its directive takes: the other characters as they are, a
string up to its NUL, an integer in decimal. `none` for another directive, or an argument that is
missing or of another type. -/
def printfText : List Char → List VaArg → Option (List Char)
  | [], _ => some []
  | '%' :: 's' :: fmt, .str text :: args => (cstr text ++ ·) <$> printfText fmt args
  | '%' :: 'd' :: fmt, .int value :: args => (formatInt value ++ ·) <$> printfText fmt args
  | '%' :: 'l' :: 'd' :: fmt, .long value :: args => (formatInt value ++ ·) <$> printfText fmt args
  | '%' :: 'l' :: 'l' :: 'd' :: fmt, .longLong value :: args =>
    (formatInt value ++ ·) <$> printfText fmt args
  | '%' :: _, _ => none
  | c :: fmt, args => (c :: ·) <$> printfText fmt args

/-- The text `vsnprintf` produces for the C string `fmt` and the arguments `args`. -/
def vsnprintfText (fmt : List Char) (args : List VaArg) : Option (List Char) :=
  printfText (cstr fmt) args

/-- An argument that is a string or a non-negative integer. -/
def VaArg.Nonneg : VaArg → Prop
  | .int value => 0 ≤ value
  | .long value => 0 ≤ value
  | .longLong value => 0 ≤ value
  | .str _ => True

instance (arg : VaArg) : Decidable arg.Nonneg := by
  cases arg <;> unfold VaArg.Nonneg <;> infer_instance

/-! ### The loop, one format piece at a time -/

/-- The stores `stores`, made from offset `s` on, leave the text `out` at `s`: none lies below
`s`, and the last store at `s + k` is the `k`-th character. -/
def Renders (s : Int) (out : List Char) (stores : List (Int × Char)) : Prop :=
  (∀ st ∈ stores, s ≤ st.1) ∧ ∀ k < out.length, written (s + k) stores = out[k]?

theorem renders_nil (s : Int) : Renders s [] [] :=
  ⟨List.forall_mem_nil _, fun _ hk ↦ absurd hk (Nat.not_lt_zero _)⟩

theorem renders_storeRun (s : Int) (cs : List Char) : Renders s cs (storeRun s cs) :=
  ⟨fun _ hst ↦ (mem_storeRun hst).1, written_storeRun s cs⟩

/-- When the string fits in the `n` bytes `strncpy` writes, those bytes render it. -/
theorem renders_strncpy (s : Int) (str : List Char) {n : Nat} (hn : str.length ≤ n) :
    Renders s str (storeRun s ((str ++ List.replicate n '\x00').take n)) := by
  refine ⟨fun _ hst ↦ (mem_storeRun hst).1, fun k hk ↦ ?_⟩
  rw [written_storeRun s _ k (by simp; omega), List.getElem?_take_of_lt (by omega),
    List.getElem?_append_left hk]

/-- A piece rendered at `s` followed by the rest rendered right after it. -/
theorem Renders.append {s : Int} {piece rest : List Char} {first second : List (Int × Char)}
    (hfirst : Renders s piece first) (hsecond : Renders (s + piece.length) rest second) :
    Renders s (piece ++ rest) (first ++ second) := by
  refine ⟨fun st hst ↦ ?_, fun k hk ↦ ?_⟩
  · rcases List.mem_append.mp hst with hst | hst
    · exact hfirst.1 st hst
    · have := hsecond.1 st hst
      omega
  · rw [written_append]
    by_cases hpiece : k < piece.length
    · rw [written_eq_none fun st hst ↦ by have := hsecond.1 st hst; omega, Option.none_or,
        hfirst.2 k hpiece, List.getElem?_append_left hpiece]
    · have hlt : k - piece.length < rest.length := by simp at hk; omega
      have hrest := hsecond.2 (k - piece.length) hlt
      rw [show s + ↑piece.length + ↑(k - piece.length) = s + k by omega] at hrest
      rw [hrest, List.getElem?_append_right (by omega), List.getElem?_eq_getElem hlt, Option.or_some]

/-- When, whenever `s < end`, the loop stores `first` for a piece of text and goes on after it, and
from there it renders `rest`, the loop renders the piece and the rest. -/
theorem vsprintfLoop_piece {dm : DataModel} {size s : Int} (c : Char) {p p' : List Char}
    {ap ap' : List VaArg} {piece rest : List Char} {first : List (Int × Char)}
    (hstep : s < size → vsprintfLoop dm size none (c :: p) ap s =
      (vsprintfLoop dm size none p' ap' (s + piece.length)).after first)
    (hfirst : Renders s piece first) (hfit : s + (piece ++ rest).length ≤ size)
    (hrest : s + piece.length + rest.length ≤ size → ∃ second,
      vsprintfLoop dm size none p' ap' (s + piece.length) =
        .done second (s + piece.length + rest.length) ∧ Renders (s + piece.length) rest second) :
    ∃ stores, vsprintfLoop dm size none (c :: p) ap s = .done stores (s + (piece ++ rest).length) ∧
      Renders s (piece ++ rest) stores := by
  simp only [List.length_append, Nat.cast_add] at hfit ⊢
  by_cases hlt : s < size
  · obtain ⟨second, hrun, hsecond⟩ := hrest (by omega)
    refine ⟨first ++ second, ?_, hfirst.append hsecond⟩
    rw [hstep hlt, hrun, PrintOutcome.after, add_assoc]
  · have hnil : piece ++ rest = [] :=
      List.eq_nil_of_length_eq_zero (by rw [List.length_append]; omega)
    rw [hnil]
    exact ⟨[], by rw [vsprintfLoop_stop c hlt]; simp; omega, renders_nil s⟩

theorem nonneg_tail {arg : VaArg} {ap : List VaArg} (h : ∀ other ∈ arg :: ap, other.Nonneg) :
    ∀ other ∈ ap, other.Nonneg :=
  fun other hother ↦ h other (List.mem_cons_of_mem _ hother)

/-- When the format and arguments have a `printf` text, the integers are non-negative, and the text
fits between `s` and `end`, the loop stores the text from `s` on and returns the offset just past
it. -/
theorem vsprintfLoop_printfText (dm : DataModel) (size : Int) :
    ∀ (p : List Char) (ap : List VaArg) (out : List Char) (s : Int), printfText p ap = some out →
      (∀ arg ∈ ap, arg.Nonneg) → s + out.length ≤ size →
      ∃ stores, vsprintfLoop dm size none p ap s = .done stores (s + out.length) ∧
        Renders s out stores := by
  intro p ap
  induction p, ap using printfText.induct with
  | case1 ap =>
    intro out s hout _ _
    cases Option.some.inj hout.symm
    exact ⟨[], by rw [vsprintfLoop]; simp, renders_nil s⟩
  | case2 fmt text args ih =>
    intro out s hout hargs hfit
    obtain ⟨rest, hrest, rfl⟩ := Option.map_eq_some'.mp hout
    exact vsprintfLoop_piece '%'
      (fun hlt ↦ by rw [vsprintfLoop_percent hlt, vsprintfLoop_directive (by decide)
        (formatDirective_str text)])
      (renders_strncpy s _ (by simp only [List.length_append, Nat.cast_add] at hfit; omega)) hfit
      (ih rest _ hrest (nonneg_tail hargs))
  | case3 fmt value args ih =>
    intro out s hout hargs hfit
    obtain ⟨rest, hrest, rfl⟩ := Option.map_eq_some'.mp hout
    rw [← decimalText_eq (hargs _ (List.mem_cons_self _ _))] at hfit ⊢
    exact vsprintfLoop_piece '%'
      (fun hlt ↦ by rw [vsprintfLoop_percent hlt, vsprintfLoop_directive (by decide)
        (formatDirective_int (intDirective_d dm)
          (show (VaArg.int value).integer dm 4 = some value from rfl))])
      (renders_storeRun s _) hfit (ih rest _ hrest (nonneg_tail hargs))
  | case4 fmt value args ih =>
    intro out s hout hargs hfit
    obtain ⟨rest, hrest, rfl⟩ := Option.map_eq_some'.mp hout
    rw [← decimalText_eq (hargs _ (List.mem_cons_self _ _))] at hfit ⊢
    exact vsprintfLoop_piece '%'
      (fun hlt ↦ by rw [vsprintfLoop_percent hlt, vsprintfLoop_ell, vsprintfLoop_directive (by decide)
        (formatDirective_int (intDirective_ld dm)
          (show (VaArg.long value).integer dm dm.sizeofLong = some value from if_pos rfl))])
      (renders_storeRun s _) hfit (ih rest _ hrest (nonneg_tail hargs))
  | case5 fmt value args ih =>
    intro out s hout hargs hfit
    obtain ⟨rest, hrest, rfl⟩ := Option.map_eq_some'.mp hout
    rw [← decimalText_eq (hargs _ (List.mem_cons_self _ _))] at hfit ⊢
    exact vsprintfLoop_piece '%'
      (fun hlt ↦ by rw [vsprintfLoop_percent hlt, vsprintfLoop_ell, vsprintfLoop_ell,
        vsprintfLoop_directive (by decide) (formatDirective_int (intDirective_lld dm)
          (show (VaArg.longLong value).integer dm 8 = some value from rfl))])
      (renders_storeRun s _) hfit (ih rest _ hrest (nonneg_tail hargs))
  | case6 tail args hs hd hld hlld =>
    intro out s hout
    rw [printfText.eq_6 args tail hs hd hld hlld] at hout
    cases hout
  | case7 c fmt args hs hd hld hlld hpercent ih =>
    intro out s hout hargs hfit
    rw [printfText.eq_7 args c fmt hpercent hs hd hld hlld] at hout
    obtain ⟨rest, hrest, rfl⟩ := Option.map_eq_some'.mp hout
    exact vsprintfLoop_piece c (vsprintfLoop_char hpercent) (renders_storeRun s [c]) hfit
      (ih rest _ hrest hargs)

/-! ### `my_vsprintf` -/

/-- When `fmt` and `args` have a `vsnprintf` text `out` of at most `size` characters and the integer
arguments are non-negative, on both data models `my_vsprintf` returns `n`, the length of `out`, and
leaves `out` in `buf[0..n)`. -/
theorem myVsprintf_eq_printf (dm : DataModel) (size : Int) (fmt : List Char) (args : List VaArg)
    (out : List Char) (hout : vsnprintfText fmt args = some out)
    (hnonneg : ∀ arg ∈ args, arg.Nonneg) (hfit : out.length ≤ size) :
    ∃ stores, myVsprintf dm size fmt args = .done stores out.length ∧
      ∀ k < out.length, written k stores = out[k]? := by
  obtain ⟨stores, hrun, hrend⟩ :=
    vsprintfLoop_printfText dm size (cstr fmt) args out 0 hout hnonneg (by omega)
  refine ⟨(size - 1, '\x00') :: stores, by rw [myVsprintf, hrun, zero_add]; rfl, fun k hk ↦ ?_⟩
  have hk' := hrend.2 k hk
  rw [zero_add] at hk'
  rw [written, hk', List.getElem?_eq_getElem hk, Option.or_some]

/-- A trace line of `do_runtime` in a buffer of 32 bytes. -/
theorem myVsprintf_eq_printf_trace_line :
    vsnprintfText "now: %lld%s\n".toList [.longLong 1500, .str " HUGE".toList] =
        some "now: 1500 HUGE\n".toList ∧
      (∀ arg ∈ [VaArg.longLong 1500, .str " HUGE".toList], arg.Nonneg) ∧
      ("now: 1500 HUGE\n".toList.length : Int) ≤ 32 ∧
      ∃ stores, myVsprintf .lp64 32 "now: %lld%s\n".toList [.longLong 1500, .str " HUGE".toList] =
          .done stores "now: 1500 HUGE\n".toList.length ∧
        ∀ k < "now: 1500 HUGE\n".toList.length, written k stores = "now: 1500 HUGE\n".toList[k]? :=
  ⟨by decide, by decide, by decide,
    myVsprintf_eq_printf .lp64 32 _ _ _ (by decide) (by decide) (by decide)⟩

/-- On both data models: with four bytes, `%s` of `"hello"` copies `hell` up to `end` and returns
5; with two bytes, `a%d` of 12345 stores the digits at offsets 1 to 5, past the buffer, and
returns 6. -/
theorem myVsprintf_overruns :
    myVsprintf .ilp32 4 "%s".toList [.str "hello".toList] =
        .done [(3, '\x00'), (0, 'h'), (1, 'e'), (2, 'l'), (3, 'l')] 5 ∧
      myVsprintf .lp64 4 "%s".toList [.str "hello".toList] =
        .done [(3, '\x00'), (0, 'h'), (1, 'e'), (2, 'l'), (3, 'l')] 5 ∧
      myVsprintf .ilp32 2 "a%d".toList [.int 12345] =
        .done [(1, '\x00'), (0, 'a'), (1, '1'), (2, '2'), (3, '3'), (4, '4'), (5, '5')] 6 ∧
      myVsprintf .lp64 2 "a%d".toList [.int 12345] =
        .done [(1, '\x00'), (0, 'a'), (1, '1'), (2, '2'), (3, '3'), (4, '4'), (5, '5')] 6 := by
  decide

/-! ### Where the stores can go -/

/-- When inside a directive the check `s < end` has passed and the loop returns `n`, then `s ≤ n`
and every store it made lies in `[s, max(size, n))`. -/
theorem vsprintfLoop_bounds (dm : DataModel) (size : Int) :
    ∀ (mode : Option Nat) (p : List Char) (ap : List VaArg) (s : Int), (mode.isSome → s < size) →
      ∀ {stores : List (Int × Char)} {n : Int}, vsprintfLoop dm size mode p ap s = .done stores n →
        s ≤ n ∧ ∀ st ∈ stores, s ≤ st.1 ∧ st.1 < max size n := by
  intro mode p ap s
  induction mode, p, ap, s using vsprintfLoop.induct dm size with
  | case1 ap s =>
    intro _ stores n h
    rw [vsprintfLoop, PrintOutcome.done.injEq] at h
    obtain ⟨rfl, rfl⟩ := h
    exact ⟨le_rfl, List.forall_mem_nil _⟩
  | case2 p ap s hlt ih =>
    intro _ stores n h
    rw [vsprintfLoop_percent hlt] at h
    exact ih (fun _ ↦ hlt) h
  | case3 c p ap s hlt hc ih =>
    intro _ stores n h
    rw [vsprintfLoop_char hc hlt] at h
    obtain ⟨second, hrun, rfl⟩ := PrintOutcome.after_eq_done.mp h
    obtain ⟨hle, hsecond⟩ := ih (fun h ↦ nomatch h) hrun
    refine ⟨by omega, fun st hst ↦ ?_⟩
    rcases List.mem_append.mp hst with hst | hst
    · obtain ⟨hlo, hhi⟩ := mem_storeRun hst
      rw [show (([c] : List Char).length : Int) = 1 from rfl] at hhi
      omega
    · have := hsecond st hst
      omega
  | case4 c p ap s hge =>
    intro _ stores n h
    rw [vsprintfLoop_stop c hge, PrintOutcome.done.injEq] at h
    obtain ⟨rfl, rfl⟩ := h
    exact ⟨le_rfl, List.forall_mem_nil _⟩
  | case5 val ap s =>
    intro _ stores n h
    cases h
  | case6 l p ap s ih =>
    intro hmode stores n h
    rw [vsprintfLoop_ell] at h
    exact ih (fun _ ↦ hmode rfl) h
  | case7 l c p ap s hc first s' ap' hdir ih =>
    intro hmode stores n h
    rw [vsprintfLoop_directive hc hdir] at h
    obtain ⟨second, hrun, rfl⟩ := PrintOutcome.after_eq_done.mp h
    obtain ⟨hle, hfirst⟩ := formatDirective_bounds (hmode rfl) hdir
    obtain ⟨hle', hsecond⟩ := ih (fun h ↦ nomatch h) hrun
    refine ⟨by omega, fun st hst ↦ ?_⟩
    rcases List.mem_append.mp hst with hst | hst
    · have := hfirst st hst
      omega
    · have := hsecond st hst
      omega
  | case8 l c p ap s hc outcome hdir =>
    intro _ stores n h
    rw [vsprintfLoop, if_neg hc, hdir] at h
    exact absurd h (formatDirective_error hdir stores n)

/-- For `size ≥ 1`, every format and every argument list, when `my_vsprintf` returns `n`,
`n ≥ 0` and every byte it stored lies in `buf[0 .. max(size, n))`: whenever it returns at most
`size`, it stored only inside the buffer. -/
theorem myVsprintf_stores_below (dm : DataModel) (size : Int) (fmt : List Char)
    (args : List VaArg) {stores : List (Int × Char)} {n : Int} (hsize : 1 ≤ size)
    (h : myVsprintf dm size fmt args = .done stores n) :
    0 ≤ n ∧ ∀ st ∈ stores, 0 ≤ st.1 ∧ st.1 < max size n := by
  obtain ⟨second, hrun, rfl⟩ := PrintOutcome.after_eq_done.mp h
  obtain ⟨hle, hsecond⟩ := vsprintfLoop_bounds dm size none (cstr fmt) args 0 (fun h ↦ nomatch h) hrun
  refine ⟨hle, fun st hst ↦ ?_⟩
  rcases List.mem_cons.mp hst with rfl | hst
  · simp only
    omega
  · have := hsecond st hst
    omega

/-- `ab` in eight bytes: the NUL at offset 7, then `a` and `b`. -/
theorem myVsprintf_stores_below_ab :
    (1 : Int) ≤ 8 ∧ myVsprintf .lp64 8 "ab".toList [] = .done [(7, '\x00'), (0, 'a'), (1, 'b')] 2 ∧
      (0 ≤ (2 : Int) ∧ ∀ st ∈ [((7 : Int), '\x00'), (0, 'a'), (1, 'b')], 0 ≤ st.1 ∧ st.1 < max 8 2) :=
  have hrun : myVsprintf .lp64 8 "ab".toList [] = .done [(7, '\x00'), (0, 'a'), (1, 'b')] 2 := by
    decide
  ⟨by decide, hrun, myVsprintf_stores_below .lp64 8 _ _ (by decide) hrun⟩

/-! ### Negative integers -/

/-- The argument with a negative integer read as zero. -/
def VaArg.clamp : VaArg → VaArg
  | .int value => .int (max value 0)
  | .long value => .long (max value 0)
  | .longLong value => .longLong (max value 0)
  | .str text => .str text

theorem VaArg.nonneg_clamp : ∀ arg : VaArg, arg.clamp.Nonneg
  | .int value | .long value | .longLong value => le_max_right value 0
  | .str _ => trivial

theorem VaArg.integer_clamp (dm : DataModel) (bytes : Nat) :
    ∀ arg : VaArg, arg.clamp.integer dm bytes = (arg.integer dm bytes).map (max · 0)
  | .int _ | .long _ | .longLong _ => by simp only [VaArg.clamp, VaArg.integer]; split_ifs <;> rfl
  | .str _ => rfl

/-- A directive reads the clamped arguments as it reads the arguments, and stores the same. -/
theorem formatDirective_clamp (dm : DataModel) (size : Int) (l : Nat) (c : Char) (s : Int) :
    ∀ ap : List VaArg, formatDirective dm size l c (ap.map VaArg.clamp) s =
      (formatDirective dm size l c ap s).map fun r ↦ (r.1, r.2.1, r.2.2.map VaArg.clamp)
  | [] => by
    unfold formatDirective
    simp only [List.map_nil]
    split_ifs <;> (try split) <;> rfl
  | arg :: ap => by
    unfold formatDirective
    split_ifs
    · rfl
    · cases arg <;> rfl
    · split
      · rfl
      · simp only [List.map_cons, VaArg.integer_clamp]
        cases arg.integer dm _ <;> simp only [Option.map_none', Option.map_some', decimalText_max] <;> rfl
    · rfl

/-- The loop does the same with every negative integer argument read as zero. -/
theorem vsprintfLoop_clamp (dm : DataModel) (size : Int) :
    ∀ (mode : Option Nat) (p : List Char) (ap : List VaArg) (s : Int),
      vsprintfLoop dm size mode p (ap.map VaArg.clamp) s = vsprintfLoop dm size mode p ap s := by
  intro mode p ap s
  induction mode, p, ap, s using vsprintfLoop.induct dm size with
  | case1 | case5 => rfl
  | case2 p ap s hlt ih => rw [vsprintfLoop_percent hlt, vsprintfLoop_percent hlt, ih]
  | case3 c p ap s hlt hc ih =>
    rw [vsprintfLoop_char hc hlt, vsprintfLoop_char hc hlt]
    exact congrArg _ ih
  | case4 c p ap s hge => rw [vsprintfLoop_stop c hge, vsprintfLoop_stop c hge]
  | case6 l p ap s ih => rw [vsprintfLoop_ell, vsprintfLoop_ell, ih]
  | case7 l c p ap s hc first s' ap' hdir ih =>
    have hclamp := formatDirective_clamp dm size l c s ap
    rw [hdir] at hclamp
    rw [vsprintfLoop_directive hc hclamp, vsprintfLoop_directive hc hdir, ih]
  | case8 l c p ap s hc outcome hdir =>
    have hclamp := formatDirective_clamp dm size l c s ap
    rw [hdir] at hclamp
    rw [vsprintfLoop, if_neg hc, hclamp, vsprintfLoop, if_neg hc, hdir]
    rfl

/-- When the text `vsnprintf` prints with every negative integer read as zero fits in `size`
bytes, `my_vsprintf` returns its length and stores only inside `buf[0..size)`. -/
theorem myVsprintf_within (dm : DataModel) {size : Int} {fmt out : List Char} {args : List VaArg}
    (hout : vsnprintfText fmt (args.map VaArg.clamp) = some out) (hfit : out.length ≤ size)
    (hsize : 1 ≤ size) :
    ∃ stores, myVsprintf dm size fmt args = .done stores out.length ∧
      ∀ st ∈ stores, 0 ≤ st.1 ∧ st.1 < size := by
  obtain ⟨stores, hrun, -⟩ := vsprintfLoop_printfText dm size (cstr fmt) _ out 0 hout
    (by simpa using fun arg _ ↦ arg.nonneg_clamp) (by omega)
  rw [vsprintfLoop_clamp, zero_add] at hrun
  obtain ⟨-, hstores⟩ := vsprintfLoop_bounds dm size none (cstr fmt) args 0 (fun h ↦ nomatch h) hrun
  refine ⟨(size - 1, '\x00') :: stores, by rw [myVsprintf, hrun]; rfl, fun st hst ↦ ?_⟩
  rcases List.mem_cons.mp hst with rfl | hst
  · exact ⟨by simp only; omega, by simp only; omega⟩
  · have := hstores st hst
    omega

end CyclicDeadline
