import Mathlib
import JobShell.Proofs.Options.Lawful
import JobShell.Tools.Files

/-!
# Numbering lines with `mycat -n`

`mycat` copies its operands to standard output byte for byte. With `-n` it reads each operand
through a line scanner instead and writes the lines it gets back, numbered. This module says
exactly how far the two agree.

The scanner's lines are the pieces of the text between line feeds (`textLines`), less the
empty piece after a final line feed, each with one carriage return at its end dropped
(`dropCR`). A line the scanner cannot hold, `maxLineBytes` bytes or more before its line feed,
stops the scan: the lines before it are kept (`scanLines_lines`), and the operand fails with
`lineTooLong` (`scanLines_unread_eq_none`).

`readAll` says what the operands read in each mode: `-` reads what is left of standard
input, so only its first occurrence gets anything, except after a scan stopped by a long
line, which gives back what the scanner did not take. `catOperands_run` runs the loop over
the operands in closed form, and `cat_numbers_scanned_lines` puts the two modes side by side:
the plain output is the data of the operands that could be read, the numbered output is the
scanner's lines of the same data numbered on from 1 across operands, and the two modes read
the same data unless standard input holds a line too long to scan.
-/
namespace JobShell.Tool

/-! ## Lines as the scanner reads them -/

/-- The length of a text in UTF-8 bytes, from its characters. -/
def byteCount (l : List Char) : Nat := (l.map Char.utf8Size).sum

/-- Whether the scanner holds a line: it is shorter than `maxLineBytes` bytes. -/
def fits (l : List Char) : Bool := byteCount l < maxLineBytes

/-- Drops the piece after a final separator when it is empty. -/
def dropEmptyLast : List (List Char) → List (List Char)
  | [] => []
  | [l] => if l.isEmpty then [] else [l]
  | l :: l' :: rest => l :: dropEmptyLast (l' :: rest)

/-- The lines of a text: its pieces between line feeds, less the empty piece after a final
line feed (so an empty text has no line). -/
def textLines (cs : List Char) : List (List Char) := dropEmptyLast (cs.splitOn '\n')

theorem byteCount_reverse (l : List Char) : byteCount l.reverse = byteCount l := by
  simp [byteCount, List.map_reverse, List.sum_reverse]

theorem byteCount_append (l l' : List Char) : byteCount (l ++ l') = byteCount l + byteCount l' := by
  simp [byteCount]

theorem byteCount_cons (c : Char) (l : List Char) : byteCount (c :: l) = c.utf8Size + byteCount l := by
  simp [byteCount]

theorem fits_reverse {l : List Char} (short : byteCount l < maxLineBytes) : fits l.reverse = true := by
  simp [fits, byteCount_reverse, short]

theorem dropEmptyLast_cons_of_ne_nil (l : List Char) {ls : List (List Char)} (more : ls ≠ []) :
    dropEmptyLast (l :: ls) = l :: dropEmptyLast ls := by
  obtain ⟨l', rest, rfl⟩ := List.exists_cons_of_ne_nil more
  rfl

theorem dropEmptyLast_cons_of_ne_empty {l : List Char} (ls : List (List Char)) (full : l ≠ []) :
    dropEmptyLast (l :: ls) = l :: dropEmptyLast ls := by
  cases ls with
  | nil => simp [dropEmptyLast, full]
  | cons l' rest => rfl

/-- Splitting after an accumulated first piece puts the piece in front of the first part. -/
theorem splitOnPPrepend_head (p : Char → Bool) (cs acc : List Char) :
    ∃ first rest, cs.splitOnPPrepend p acc = (acc.reverse ++ first) :: rest := by
  obtain ⟨first, rest, split⟩ := List.exists_cons_of_ne_nil (List.splitOnP_ne_nil p cs)
  exact ⟨first, rest, by rw [List.splitOnPPrepend_eq_modifyHead, split]; rfl⟩

/-- The scanner, from a line read so far: it gives the lines up to the first one it cannot
hold, one carriage return dropped from each, and stops exactly when there is such a line. -/
theorem scanChars_spec (acc cs : List Char) (b : Nat) (counted : byteCount acc = b)
    (held : b < maxLineBytes) :
    (scanChars acc b cs).1 =
        ((dropEmptyLast (cs.splitOnPPrepend (· == '\n') acc)).takeWhile fits).map dropCR ∧
      ((scanChars acc b cs).2 = none ↔
        ∀ l ∈ dropEmptyLast (cs.splitOnPPrepend (· == '\n') acc), fits l = true) := by
  induction cs generalizing acc b with
  | nil =>
    by_cases empty : acc = []
    · subst empty
      simp [scanChars, dropEmptyLast]
    · have emptyRev : acc.reverse.isEmpty = false := by simpa using empty
      simp [scanChars, dropEmptyLast, empty, emptyRev, fits_reverse (counted ▸ held)]
  | cons c rest ih =>
    by_cases newline : c = '\n'
    · -- the line ends here; the rest is scanned from an empty line
      subst newline
      obtain ⟨restLines, restStop⟩ := ih [] 0 rfl (by decide)
      have split : ('\n' :: rest).splitOnPPrepend (· == '\n') acc =
          acc.reverse :: rest.splitOnP (· == '\n') :=
        List.splitOnPPrepend_cons_pos (by simp)
      rw [split, dropEmptyLast_cons_of_ne_nil _ (List.splitOnP_ne_nil _ rest)]
      simp only [List.splitOnPPrepend_nil_right] at restLines restStop
      simp [scanChars, restLines, restStop, fits_reverse (counted ▸ held)]
    · have split : (c :: rest).splitOnPPrepend (· == '\n') acc =
          rest.splitOnPPrepend (· == '\n') (c :: acc) :=
        List.splitOnPPrepend_cons_neg (by simpa using newline)
      rw [split]
      by_cases full : maxLineBytes ≤ b + c.utf8Size
      · -- the line being read is already too long to hold
        obtain ⟨first, later, parts⟩ := splitOnPPrepend_head (· == '\n') rest (c :: acc)
        have long : fits (acc.reverse ++ c :: first) = false := by
          have size : byteCount (acc.reverse ++ c :: first) = b + c.utf8Size + byteCount first := by
            rw [byteCount_append, byteCount_cons, byteCount_reverse, counted]
            omega
          simp only [fits, size, decide_eq_false_iff_not]
          omega
        rw [parts, dropEmptyLast_cons_of_ne_empty _ (by simp)]
        simp [scanChars, newline, full, long]
      · have counted' : byteCount (c :: acc) = b + c.utf8Size := by
          rw [byteCount_cons, counted]
          omega
        simpa [scanChars, newline, full] using ih (c :: acc) (b + c.utf8Size) counted' (by omega)

/-- The lines `mycat -n` writes for a text: its lines up to the first one too long to scan,
each without one carriage return at its end. -/
theorem scanLines_lines (s : String) :
    (scanLines s).lines = (((textLines s.toList).takeWhile fits).map dropCR).map String.ofList := by
  have spec := (scanChars_spec [] s.toList 0 rfl (by decide)).1
  simp only [List.splitOnPPrepend_nil_right] at spec
  simp [scanLines, spec, textLines, List.splitOn_eq_splitOnP]

/-- The scan of a text stops early exactly when one of its lines is too long to hold. -/
theorem scanLines_unread_eq_none (s : String) :
    (scanLines s).unread = none ↔ ∀ l ∈ textLines s.toList, fits l = true := by
  have spec := (scanChars_spec [] s.toList 0 rfl (by decide)).2
  simp only [List.splitOnPPrepend_nil_right] at spec
  simp [scanLines, ← spec, textLines, List.splitOn_eq_splitOnP]

/-! ## Reading the operands -/

/-- What an operand reads, and the standard input left after it: what is left of the input for
`-` (the input is then used up), else the file's content; or the reason it cannot be read. -/
def operandRead (t : Fs.Tree) (c : List String) (inp : Input) (file : String) :
    Except String String × Input :=
  if file = "-" then
    if inp.closed then (.error closedInputMessage, inp) else (.ok inp.data, { inp with data := "" })
  else
    ((match t.readFile c file with
      | .ok d => .ok d
      | .error e => .error e.message), inp)

/-- The input left once an operand is done: in numbered mode, a scan of standard input that
stopped at a long line gives back what the scanner did not take. -/
def inputAfter (number : Bool) (file : String) (result : Except String String) (inp : Input) :
    Input :=
  match result with
  | .ok d =>
    match (scanLines d).unread with
    | some left => if number && file == "-" then { inp with data := left } else inp
    | none => inp
  | .error _ => inp

/-- Copying plainly, every operand uses up what it reads. -/
@[simp] theorem inputAfter_plain (file : String) (result : Except String String) (inp : Input) :
    inputAfter false file result inp = inp := by
  unfold inputAfter
  split
  · split <;> rfl
  · rfl

/-- The operands in turn, each with what it reads, and the input left at the end. -/
def readAll (number : Bool) (t : Fs.Tree) (c : List String) :
    Input → List String → List (String × Except String String) × Input
  | inp, [] => ([], inp)
  | inp, file :: rest =>
    let read := operandRead t c inp file
    let later := readAll number t c (inputAfter number file read.1 read.2) rest
    ((file, read.1) :: later.1, later.2)

/-- The data of the operands that could be read, in order. -/
def opened (reads : List (String × Except String String)) : List String :=
  reads.filterMap fun r => r.2.toOption

/-- Whether an operand fails the run: it cannot be read, or, numbering, it holds a line too
long to scan. -/
def readFails (number : Bool) (r : String × Except String String) : Bool :=
  match r.2 with
  | .error _ => true
  | .ok d => number && !(textLines d.toList).all fits

/-- The report of an operand that fails the run. -/
def failureLine (name : String) (number : Bool) (r : String × Except String String) : String :=
  match r.2 with
  | .error reason => name ++ ": " ++ r.1 ++ ": " ++ reason ++ "\n"
  | .ok _ => if readFails number r then name ++ ": " ++ r.1 ++ ": " ++ lineTooLong ++ "\n" else ""

theorem failureLine_of_not_fails (name : String) (number : Bool) (r : String × Except String String)
    (kept : readFails number r = false) : failureLine name number r = "" := by
  unfold failureLine
  split
  · simp_all [readFails]
  · simp [kept]

/-- What an operand that could be read writes: its data, or numbering, its scanned lines
numbered on from `line`. -/
def operandText (number : Bool) (line : Nat) : Except String String → String
  | .ok d => if number then numberLines line (scanLines d).lines else d
  | .error _ => ""

/-- How many lines an operand numbers. -/
def linesIn (number : Bool) : Except String String → Nat
  | .ok d => if number then (scanLines d).lines.length else 0
  | .error _ => 0

theorem readOperand_run (file : String) (st : ToolState) :
    (readOperand file).run st =
      pure ((operandRead st.tree st.cwd st.input file).1,
        { st with input := (operandRead st.tree st.cwd st.input file).2 }) := by
  unfold readOperand operandRead
  by_cases dash : file = "-"
  · subst dash
    by_cases closed : st.input.closed = true
    · simp [readInput, closed]
    · simp [readInput, closed]
  · -- reading the tree and the directory changes nothing, so both sides run to one value
    simp only [beq_iff_eq, dash, ↓reduceIte]
    rfl

theorem numberLines_append (line : Nat) (ls ls' : List String) :
    numberLines line (ls ++ ls') = numberLines line ls ++ numberLines (line + ls.length) ls' := by
  induction ls generalizing line with
  | nil => simp [numberLines]
  | cons l rest ih =>
    simp only [List.cons_append, numberLines, ih, String.append_assoc, List.length_cons]
    congr 3
    omega

/-- Numbering, an operand that was read fails exactly when its scan stopped early. -/
theorem readFails_ok (number : Bool) (file d : String) :
    readFails number (file, .ok d) = (number && (scanLines d).unread.isSome) := by
  have held : (textLines d.toList).all fits = (scanLines d).unread.isNone := by
    rw [Bool.eq_iff_iff, List.all_eq_true, Option.isNone_iff_eq_none, scanLines_unread_eq_none]
  cases unread : (scanLines d).unread <;> simp_all [readFails]

/-- One round of the loop over the operands: the operand is read, what it writes and what it
reports are added, and the loop goes on with the next operand. -/
theorem catOperands_cons_run (name : String) (number : Bool) (file : String) (rest : List String)
    (line : Nat) (status : Int) (st : ToolState) :
    (catOperands name number (file :: rest) line status).run st =
      let read := operandRead st.tree st.cwd st.input file
      (catOperands name number rest (line + linesIn number read.1)
          (if readFails number (file, read.1) then failure else status)).run
        { st with out := st.out ++ operandText number line read.1,
                  err := st.err ++ failureLine name number (file, read.1),
                  input := inputAfter number file read.1 read.2 } := by
  obtain ⟨read, named⟩ : ∃ read, read = operandRead st.tree st.cwd st.input file := ⟨_, rfl⟩
  rw [catOperands, StateT.run_bind, readOperand_run, ← named, pure_bind]
  rcases read with ⟨_ | d, inp⟩
  · -- the operand cannot be read: it is reported and writes nothing
    simp [fileError, warn, readFails, failureLine, operandText, linesIn, inputAfter]
  · cases number
    · simp [say, readFails, failureLine, operandText, linesIn]
    · cases unread : (scanLines d).unread with
      | none =>
        simp [say, readFails_ok, unread, failureLine, operandText, linesIn, inputAfter]
      | some left =>
        -- the scan stopped at a long line: standard input gets back what it did not take
        by_cases dash : file = "-"
        · subst dash
          simp [say, unreadInput, fileError, warn, readFails_ok, unread, failureLine, operandText,
            linesIn, inputAfter]
        · simp [say, fileError, warn, readFails_ok, unread, failureLine, operandText, linesIn,
            inputAfter, dash]

/-- What the operands write, in each mode: the data of those that could be read, or numbering,
their scanned lines numbered on from `line`. -/
def catText (number : Bool) (line : Nat) (reads : List (String × Except String String)) : String :=
  if number then numberLines line ((opened reads).flatMap fun d => (scanLines d).lines)
  else String.join (opened reads)

theorem catText_cons (number : Bool) (line : Nat) (file : String) (result : Except String String)
    (reads : List (String × Except String String)) :
    catText number line ((file, result) :: reads) =
      operandText number line result ++ catText number (line + linesIn number result) reads := by
  cases result with
  | error e => cases number <;> simp [catText, opened, operandText, linesIn, Except.toOption]
  | ok d =>
    cases number <;> simp [catText, opened, operandText, linesIn, Except.toOption, numberLines_append]

/-- The loop over the operands in closed form: it writes what `catText` says, reports the
operands that fail, and fails once one of them does. -/
theorem catOperands_run (name : String) (number : Bool) (files : List String) (line : Nat)
    (status : Int) (st : ToolState) :
    (catOperands name number files line status).run st =
      let reads := readAll number st.tree st.cwd st.input files
      ((if reads.1.any (readFails number) then failure else status),
       { st with out := st.out ++ catText number line reads.1,
                 err := st.err ++ String.join (reads.1.map (failureLine name number)),
                 input := reads.2 }) := by
  induction files generalizing line status st with
  | nil =>
    simp only [readAll, List.any_nil, List.map_nil, String.join_nil]
    cases number <;> simp [catOperands, catText, opened, numberLines] <;> rfl
  | cons file rest ih =>
    rw [catOperands_cons_run, ih]
    obtain ⟨read, named⟩ : ∃ read, read = operandRead st.tree st.cwd st.input file := ⟨_, rfl⟩
    simp only [← named, readAll, List.any_cons, List.map_cons, String.join_cons, catText_cons,
      String.append_assoc]
    cases fails : readFails number (file, read.1)
    · simp only [failureLine_of_not_fails name number _ fails, Bool.false_or, String.empty_append,
        Bool.false_eq_true, ↓reduceIte]
    · simp

/-- Every operand is read, in order, whatever it reads. -/
theorem readAll_files (number : Bool) (t : Fs.Tree) (c : List String) (inp : Input)
    (files : List String) : (readAll number t c inp files).1.map Prod.fst = files := by
  induction files generalizing inp with
  | nil => rfl
  | cons file rest ih => simp [readAll, ih]

/-- Numbering leaves standard input as copying does unless it stopped on it at a long line. -/
theorem inputAfter_numbered (file : String) (result : Except String String) (inp : Input)
    (short : file = "-" → readFails true (file, result) = false) :
    inputAfter true file result inp = inputAfter false file result inp := by
  rw [inputAfter_plain]
  unfold inputAfter
  split
  · rename_i d
    split
    · rename_i left unread
      by_cases dash : file = "-"
      · have stops := short dash
        rw [readFails_ok, unread] at stops
        cases stops
      · simp [dash]
    · rfl
  · rfl

/-- Both modes read the same, as long as no data read from standard input holds a line too
long to scan. -/
theorem readAll_numbered (t : Fs.Tree) (c : List String) (inp : Input) (files : List String)
    (short : ∀ r ∈ (readAll false t c inp files).1, r.1 = "-" → readFails true r = false) :
    readAll true t c inp files = readAll false t c inp files := by
  induction files generalizing inp with
  | nil => rfl
  | cons file rest ih =>
    have first := short (file, (operandRead t c inp file).1) (by simp [readAll])
    have kept := inputAfter_numbered file (operandRead t c inp file).1 (operandRead t c inp file).2
      first
    rw [inputAfter_plain] at kept
    have later := ih (operandRead t c inp file).2 fun r member => short r (by simp [readAll, member])
    simp only [readAll, kept, inputAfter_plain, later]

section Reader

variable [Getopt]

/-- After `--` every word is an operand: `mycat` runs the loop over them, numbering with `-n`. -/
theorem cat_run (lawful : Getopt.Lawful) (number : Bool) (operands : List String) (st : ToolState) :
    (cat ("mycat" :: ((if number then ["-n"] else []) ++ "--" :: operands))).run st =
      (catOperands "mycat" number (if operands.isEmpty then ["-"] else operands) 0 success).run st := by
  cases number with
  | false => simp [cat, withOptions, lawful.dashes, ParsedOptions.flag]
  | true =>
    -- `-n` is the one flag given, `--` ends the options
    have lower : "".map Char.toLower = "" := by simp
    simp only [cat, withOptions, List.tail_cons, if_true, List.singleton_append]
    rw [show "-n" :: "--" :: operands = ['n'].map (fun c => "-" ++ c.toString) ++ "--" :: operands
      from rfl, lawful.read_flags ['n'] fun c member => ?_, lawful.dashes]
    · simp [Except.map, ParsedOptions.flag, lower]
    · simp only [List.mem_singleton] at member
      subst member
      exact ⟨by decide, _, rfl, rfl, rfl⟩

/-- What `mycat` and `mycat -n` write for the same operands, tree and standard input. Every
operand is read in turn, whether or not the ones before it could be. Copying writes the data of
the operands that could be read, in order. Numbering writes the scanner's lines of the data it
read, numbered on from 1 across all operands: the pieces between line feeds (a last piece
without a line feed included, and ended by one), each without one carriage return at its end,
up to the first line of an operand too long to scan. Each mode fails exactly when an operand
could not be read, or, numbering, held such a line; and both read the same data unless a line
read from standard input is too long to scan. -/
theorem cat_numbers_scanned_lines (lawful : Getopt.Lawful) (operands : List String) (st : ToolState) :
    let files := if operands.isEmpty then ["-"] else operands
    let plain := (cat ("mycat" :: "--" :: operands)).run st
    let numbered := (cat ("mycat" :: "-n" :: "--" :: operands)).run st
    let reads := (readAll false st.tree st.cwd st.input files).1
    let numberedReads := (readAll true st.tree st.cwd st.input files).1
    reads.map Prod.fst = files ∧ numberedReads.map Prod.fst = files ∧
    plain.2.out = st.out ++ String.join (opened reads) ∧
    numbered.2.out = st.out ++ numberLines 0 ((opened numberedReads).flatMap fun d =>
      (((textLines d.toList).takeWhile fits).map dropCR).map String.ofList) ∧
    plain.1 = (if reads.any (readFails false) then failure else success) ∧
    numbered.1 = (if numberedReads.any (readFails true) then failure else success) ∧
    ((∀ r ∈ reads, r.1 = "-" → readFails true r = false) → numberedReads = reads) := by
  intro files plain numbered reads numberedReads
  have plainRun : plain = (catOperands "mycat" false files 0 success).run st :=
    cat_run lawful false operands st
  have numberedRun : numbered = (catOperands "mycat" true files 0 success).run st :=
    cat_run lawful true operands st
  rw [catOperands_run] at plainRun numberedRun
  refine ⟨readAll_files _ _ _ _ _, readAll_files _ _ _ _ _, ?_, ?_, ?_, ?_, fun short => ?_⟩
  · rw [plainRun]
    rfl
  · rw [numberedRun]
    simp [catText, scanLines_lines, numberedReads]
  · rw [plainRun]
  · rw [numberedRun]
  · exact congrArg Prod.fst (readAll_numbered _ _ _ _ short)

end Reader

/-- With the shell's own reader, `mycat` and `mycat -n` of a file holding `a`, carriage return,
line feed, `b` and of a missing file: both write what the file holds, each in its way, and both
fail for the missing one. -/
theorem cat_reads_past_missing_operand :
    let st : ToolState := { tree := ⟨[(["w"], .dir), (["w", "f"], .file "a\r\nb")]⟩, cwd := ["w"] }
    Getopt.Lawful ∧
    ((cat ["mycat", "--", "f", "m"]).run st).2.out = "a\r\nb" ∧
    ((cat ["mycat", "-n", "--", "f", "m"]).run st).2.out = "     1\ta\n     2\tb\n" ∧
    ((cat ["mycat", "--", "f", "m"]).run st).1 = failure ∧
    ((cat ["mycat", "-n", "--", "f", "m"]).run st).1 = failure := by
  intro st
  obtain ⟨-, -, plain, numbered, plainStatus, numberedStatus, -⟩ :=
    cat_numbers_scanned_lines Getopt.builtin_lawful ["f", "m"] st
  refine ⟨Getopt.builtin_lawful, ?_, ?_, ?_, ?_⟩
  · rw [plain]
    decide +kernel
  · rw [numbered]
    decide +kernel
  · rw [plainStatus]
    decide +kernel
  · rw [numberedStatus]
    decide +kernel

/-- Of the text `a`, carriage return, line feed, `b`, `mycat` copies all four characters,
but `mycat -n` writes the lines `a` and `b`: the carriage return is gone, and a line feed ends
the last line. -/
theorem numbered_cat_drops_carriage_return :
    ((cat ["mycat"]).run { tree := {}, cwd := [], input := { data := "a\r\nb" } }).2.out =
      "a\r\nb" ∧
    ((cat ["mycat", "-n"]).run { tree := {}, cwd := [], input := { data := "a\r\nb" } }).2.out =
      "     1\ta\n     2\tb\n" ∧
    ((cat ["mycat", "-n"]).run { tree := {}, cwd := [], input := { data := "a\r\nb" } }).2.out ≠
      "     1\ta\r\n     2\tb\n" := by
  have numbered : ((cat ["mycat", "-n"]).run
      { tree := {}, cwd := [], input := { data := "a\r\nb" } }).2.out = "     1\ta\n     2\tb\n" := by
    decide +kernel
  refine ⟨by decide +kernel, numbered, ?_⟩
  rw [numbered]
  decide

end JobShell.Tool
