import JobShell.Proofs.Fs.Frame
import JobShell.Proofs.Options.Lawful
import JobShell.Tools.Files

/-!
# Copying files

`mycp SOURCE... DEST` copies each source to its target, one after another (`eachTarget_run`
says what the loop leaves, through the pure `runOnTargets`). One copy truncates its target
before it reads its source (`copyFile_eq_ok`), so a copy that lands on its own source, or on
what another copy just wrote, loses data: `copy_onto_itself_empties` runs `mycp f f`, which
succeeds, reports nothing and leaves `f` empty.

When no copy lands where a source leads and no two copies land in one place (`Apart`), nothing
is lost (`copies_apart_keep_sources`): every source reads as before, the target of every source
that could be copied holds its content, the sources that could not be copied are reported in
order, and the status is 0 exactly when every copy could be made. Several sources and a
destination that is not a directory write nothing, whatever the paths.
-/
namespace JobShell.Tool

open Fs Fs.Tree

/-! ## Applying an operation to every source -/

/-- The operation applied to each source in turn, from a tree: the tree left, and the sources
it failed on with the reasons. -/
def runOnTargets (op : Tree → List String → String → String → Except Errno Tree)
    (c : List String) (target : String → String) : Tree → List String → Tree × List (String × String)
  | t, [] => (t, [])
  | t, src :: rest =>
    match op t c src (target src) with
    | .ok t' => runOnTargets op c target t' rest
    | .error e => let r := runOnTargets op c target t rest; (r.1, (src, e.message) :: r.2)

/-- The report of the sources an operation failed on, one line each. -/
def failureLines (name : String) (failed : List (String × String)) : String :=
  String.join (failed.map fun f => name ++ ": " ++ f.1 ++ ": " ++ f.2 ++ "\n")

/-- A loop whose every round applies the operation to one source, keeping its tree or reporting
its failure, leaves what `runOnTargets` says, and fails if any round failed. -/
theorem forIn_runOnTargets {name : String} {op : Tree → List String → String → String → Except Errno Tree}
    {c : List String} {target : String → String} (body : String → Int → ToolM (ForInStep Int))
    (stepOk : ∀ src r st t', st.cwd = c → op st.tree c src (target src) = .ok t' →
      (body src r).run st = (.yield r, { st with tree := t' }))
    (stepError : ∀ src r st e, st.cwd = c → op st.tree c src (target src) = .error e →
      (body src r).run st =
        (.yield failure, { st with err := st.err ++ (name ++ ": " ++ src ++ ": " ++ e.message ++ "\n") }))
    (sources : List String) (r : Int) (st : ToolState) (here : st.cwd = c) :
    (forIn sources r body).run st =
      ((if (runOnTargets op c target st.tree sources).2 = [] then r else failure),
       { st with tree := (runOnTargets op c target st.tree sources).1,
                 err := st.err ++ failureLines name (runOnTargets op c target st.tree sources).2 }) := by
  induction sources generalizing r st with
  | nil =>
    simp only [runOnTargets, failureLines, List.map_nil, String.join_nil, String.append_empty]
    rfl
  | cons src rest ih =>
    rw [List.forIn_cons, StateT.run_bind]
    cases done : op st.tree c src (target src) with
    | ok t' =>
      rw [stepOk src r st t' here done]
      show StateT.run (forIn rest r body) { st with tree := t' } = _
      rw [ih r { st with tree := t' } here]
      simp [runOnTargets, done]
    | error e =>
      rw [stepError src r st e here done]
      show StateT.run (forIn rest failure body) _ = _
      rw [ih failure { st with err := st.err ++ (name ++ ": " ++ src ++ ": " ++ e.message ++ "\n") } here]
      simp [runOnTargets, done, failureLines, String.append_assoc]

theorem eachTarget_run (name : String) (operands : List String)
    (op : Tree → List String → String → String → Except Errno Tree) (st : ToolState) :
    (eachTarget name operands op).run st =
      if 1 < operands.dropLast.length ∧ st.tree.isDirAt st.cwd (operands.getLast?.getD "") = false then
        (failure, { st with err := st.err ++
          (name ++ ": " ++ operands.getLast?.getD "" ++ ": " ++ Errno.notdir.message ++ "\n") })
      else
        let run := runOnTargets op st.cwd
          (targetOf (operands.getLast?.getD "") (st.tree.isDirAt st.cwd (operands.getLast?.getD "")))
          st.tree operands.dropLast
        ((if run.2 = [] then success else failure),
         { st with tree := run.1, err := st.err ++ failureLines name run.2 }) := by
  unfold eachTarget
  simp only [tree, cwd, StateT.run_bind, StateT.run_get, StateT.run_pure, pure_bind]
  split <;> rename_i refused
  · -- several sources and no directory to put them in
    rw [if_pos (by simpa using refused)]
    rfl
  · rw [if_neg (by simpa using refused), StateT.run_bind,
      @forIn_runOnTargets name op _ _ _ ?ok ?error _ _ _ rfl]
    · rfl
    case ok =>
      rintro src r ⟨tree', cwd', input', out', err', environ'⟩ t' rfl found
      simp only [StateT.run_bind, StateT.run_get, StateT.run_pure, pure_bind, found]
      rfl
    case error =>
      rintro src r ⟨tree', cwd', input', out', err', environ'⟩ e rfl found
      simp only [StateT.run_bind, StateT.run_get, StateT.run_pure, pure_bind, found]
      rfl

/-! ## One copy -/

/-- A copy succeeds exactly when the source is a regular file that can be read and the target
can be written. It truncates the target before it reads the source, so a source copied onto
itself is read back empty. -/
theorem copyFile_eq_ok {t t' : Tree} {c : List String} {src dst : String} :
    copyFile t c src dst = .ok t' ↔
      ∃ d pl, t.readFile c src = .ok d ∧ t.locate c dst = .ok pl ∧
        writable (t.node? pl.path) pl.slash = true ∧
        t' = (t.put pl.path (.file "")).put pl.path
          (.file (if t.pathOf c src = some pl.path then "" else d)) := by
  unfold copyFile
  rcases kind : t.lstat c src with e | (d | _)
  · have unread : ∀ d, t.readFile c src ≠ .ok d := by
      intro d
      simp [readFile, kind, bind, Except.bind]
    simp [bind, Except.bind, unread]
  · have read : t.readFile c src = .ok d := by
      simp [readFile, kind, bind, Except.bind, pure, Except.pure]
    obtain ⟨ps, foundSrc, fileSrc, slashSrc⟩ := readFile_eq_ok.mp read
    simp only [bind, Except.bind]
    rcases truncated : t.writeFile c dst "" false with e | t₁
    · -- the target cannot be written
      constructor
      · intro failed
        cases failed
      · rintro ⟨_, pl, -, found, ok, -⟩
        have written : t.writeFile c dst "" false = .ok (t.put pl.path (.file "")) :=
          writeFile_eq_ok.mpr ⟨pl, found, ok, rfl⟩
        rw [truncated] at written
        cases written
    · obtain ⟨pl, found, ok, rfl⟩ := writeFile_eq_ok.mp truncated
      obtain ⟨notDir, slash⟩ := writable_eq_true.mp ok
      -- what the source reads once the target is truncated
      have reread : (t.put pl.path (.file "")).readFile c src =
          .ok (if t.pathOf c src = some pl.path then "" else d) := by
        by_cases same : ps.path = pl.path
        · rw [if_pos (by rw [pathOf_of_locate foundSrc, same])]
          rw [← same] at notDir ⊢
          exact readFile_put_self "" notDir foundSrc slashSrc
        · rw [if_neg (by rw [pathOf_of_locate foundSrc]; simpa using same),
            readFile_put_of_ne "" notDir foundSrc same, read]
      have nonRoot : pl.path ≠ [] := by
        rintro root
        simp [root, node?] at notDir
      have rewritten : ∀ x : String, (t.put pl.path (.file "")).writeFile c dst x false =
          .ok ((t.put pl.path (.file "")).put pl.path (.file x)) := fun x =>
        writeFile_eq_ok.mpr ⟨pl, locate_of_sameDirs (sameDirs_put "" notDir) found,
          by simp [writable, node?_put, nonRoot, slash], rfl⟩
      simp only [reread, rewritten]
      constructor
      · intro copied
        cases copied
        exact ⟨d, pl, read, found, ok, rfl⟩
      · rintro ⟨d', pl', read', found', -, rfl⟩
        rw [read] at read'
        rw [found] at found'
        cases read'
        cases found'
        rfl
  · have unread : ∀ d, t.readFile c src ≠ .ok d := by
      intro d
      simp [readFile, kind, bind, Except.bind, throw, throwThe, MonadExceptOf.throw]
    simp [bind, Except.bind, unread, throw, throwThe, MonadExceptOf.throw]

/-- Whether a copy can be made: the source is a regular file that can be read, and the target
can be written. -/
def copyable (t : Tree) (c : List String) (src dst : String) : Bool :=
  match t.readFile c src, t.locate c dst with
  | .ok _, .ok pl => writable (t.node? pl.path) pl.slash
  | _, _ => false

theorem copyable_eq_true {t : Tree} {c : List String} {src dst : String} :
    copyable t c src dst = true ↔
      ∃ d pl, t.readFile c src = .ok d ∧ t.locate c dst = .ok pl ∧
        writable (t.node? pl.path) pl.slash = true := by
  unfold copyable
  rcases t.readFile c src with _ | d <;> rcases t.locate c dst with _ | pl <;> simp

theorem copyFile_ok_iff {t : Tree} {c : List String} {src dst : String} :
    (∃ t', copyFile t c src dst = .ok t') ↔ copyable t c src dst = true := by
  rw [copyable_eq_true]
  constructor
  · rintro ⟨t', copied⟩
    obtain ⟨d, pl, read, found, ok, -⟩ := copyFile_eq_ok.mp copied
    exact ⟨d, pl, read, found, ok⟩
  · rintro ⟨d, pl, read, found, ok⟩
    exact ⟨_, copyFile_eq_ok.mpr ⟨d, pl, read, found, ok, rfl⟩⟩

/-- A copy that does not land on its source writes the source's content at the target and
nothing else. -/
theorem copyFile_apart {t t₁ : Tree} {c : List String} {src dst : String}
    (copied : copyFile t c src dst = .ok t₁)
    (off : ∀ p, t.pathOf c dst = some p → t.pathOf c src ≠ some p) :
    ∃ pl d, t.locate c dst = .ok pl ∧ t.readFile c src = .ok d ∧ pl.slash = false ∧
      SameDirs t t₁ ∧ ∀ q, t₁.node? q = if q = pl.path then some (.file d) else t.node? q := by
  obtain ⟨d, pl, read, found, ok, rfl⟩ := copyFile_eq_ok.mp copied
  obtain ⟨notDir, slash⟩ := writable_eq_true.mp ok
  have nonRoot : pl.path ≠ [] := by
    rintro root
    simp [root, node?] at notDir
  have elsewhere := off pl.path (pathOf_of_locate found)
  refine ⟨pl, d, found, read, slash, ?_, fun q => ?_⟩
  · have truncated := sameDirs_put "" notDir
    refine truncated.trans (sameDirs_put _ ?_)
    simp [node?_put, nonRoot]
  · by_cases here : q = pl.path
    · simp [node?_put, here, nonRoot, elsewhere]
    · simp [node?_put, here]

/-- Whether a copy can be made depends only on the directories and on the nodes where the
source and the target lead. -/
theorem copyable_of_agree {t t' : Tree} (same : SameDirs t t') {c : List String} {src dst : String}
    (atSrc : ∀ p, t.pathOf c src = some p → t'.node? p = t.node? p)
    (atDst : ∀ p, t.pathOf c dst = some p → t'.node? p = t.node? p) :
    copyable t' c src dst = copyable t c src dst := by
  have back : SameDirs t' t := same.symm
  have atSrc' : ∀ p, t'.pathOf c src = some p → t.node? p = t'.node? p := fun p found =>
    (atSrc p (by rwa [pathOf_of_sameDirs same] at found)).symm
  apply Bool.eq_iff_iff.mpr
  rw [copyable_eq_true, copyable_eq_true]
  constructor
  · rintro ⟨d, pl, read, found, ok⟩
    have node := atDst pl.path (by rw [← pathOf_of_sameDirs same]; exact pathOf_of_locate found)
    exact ⟨d, pl, readFile_of_sameDirs back atSrc' read, locate_of_sameDirs back found,
      by rwa [← node]⟩
  · rintro ⟨d, pl, read, found, ok⟩
    have node := atDst pl.path (pathOf_of_locate found)
    exact ⟨d, pl, readFile_of_sameDirs same atSrc read, locate_of_sameDirs same found,
      by rwa [node]⟩

/-! ## Copies that do not overlap -/

/-- No copy lands where a source is, and no two copies land in one place. -/
structure Apart (t : Tree) (c : List String) (sources : List String) (target : String → String) :
    Prop where
  offSources : ∀ s ∈ sources, ∀ s' ∈ sources, ∀ p, t.pathOf c (target s) = some p →
    t.pathOf c s' ≠ some p
  distinct : sources.Pairwise fun s s' => ∀ p, t.pathOf c (target s) = some p →
    t.pathOf c (target s') ≠ some p

namespace Apart

variable {t : Tree} {c : List String} {target : String → String}

theorem tail {s : String} {rest : List String} (apart : Apart t c (s :: rest) target) :
    Apart t c rest target :=
  ⟨fun a member b member' => apart.offSources a (List.mem_cons_of_mem s member) b
      (List.mem_cons_of_mem s member'),
    (List.pairwise_cons.mp apart.distinct).2⟩

/-- Paths are looked up through directories only, so a tree with the same directories keeps
the copies apart. -/
theorem of_sameDirs {t' : Tree} {sources : List String} (apart : Apart t c sources target)
    (same : SameDirs t t') : Apart t' c sources target := by
  have paths := pathOf_of_sameDirs same c
  refine ⟨?_, ?_⟩
  · intro s member s' member' p
    rw [paths, paths]
    exact apart.offSources s member s' member' p
  · refine apart.distinct.imp fun {s s'} far p => ?_
    rw [paths, paths]
    exact far p

/-- Copies are apart when no target's path is a source's path or another target's: a condition
on the paths alone, which can be computed. -/
theorem of_paths {sources : List String}
    (offSources : ∀ s ∈ sources, ∀ s' ∈ sources, (t.pathOf c (target s)).isSome →
      t.pathOf c (target s) ≠ t.pathOf c s')
    (distinct : sources.Pairwise fun s s' => (t.pathOf c (target s)).isSome →
      t.pathOf c (target s) ≠ t.pathOf c (target s')) :
    Apart t c sources target :=
  ⟨fun s member s' member' _ landed same =>
      offSources s member s' member' (by simp [landed]) (landed.trans same.symm),
    distinct.imp fun far _ landed same => far (by simp [landed]) (landed.trans same.symm)⟩

end Apart

/-- What copies kept apart leave: the directories as they were, every node no copy lands on as it
was, the target of every source that could be copied holding that source's content, and the
sources that could not be copied reported, in order. -/
structure CopiedApart (t t' : Tree) (c : List String) (sources : List String)
    (target : String → String) (failed : List (String × String)) : Prop where
  sameDirs : SameDirs t t'
  frame : ∀ p, (∀ s ∈ sources, t.pathOf c (target s) ≠ some p) → t'.node? p = t.node? p
  filled : ∀ s ∈ sources, copyable t c s (target s) = true →
    t'.readFile c (target s) = t.readFile c s
  failures : failed.map Prod.fst = sources.filter fun s => !copyable t c s (target s)

theorem runOnTargets_apart {c : List String} {target : String → String} (sources : List String)
    (t : Tree) (apart : Apart t c sources target) :
    CopiedApart t (runOnTargets copyFile c target t sources).1 c sources target
      (runOnTargets copyFile c target t sources).2 := by
  induction sources generalizing t with
  | nil => exact ⟨SameDirs.refl t, fun _ _ => rfl, fun _ member => (List.not_mem_nil member).elim, rfl⟩
  | cons s rest ih =>
    have restApart := apart.tail
    rw [runOnTargets]
    cases copied : copyFile t c s (target s) with
    | error e =>
      have later := ih t restApart
      have unable : copyable t c s (target s) = false := by
        cases able : copyable t c s (target s)
        · rfl
        · obtain ⟨t', ok⟩ := copyFile_ok_iff.mpr able
          rw [copied] at ok
          cases ok
      refine ⟨later.sameDirs, fun p away => later.frame p fun s' member =>
        away s' (List.mem_cons_of_mem s member), ?_, ?_⟩
      · intro s' member able
        rcases List.mem_cons.mp member with rfl | member
        · rw [unable] at able
          cases able
        · exact later.filled s' member able
      · simp [later.failures, unable]
    | ok t₁ =>
      obtain ⟨pl, d, found, read, slash, same, nodes⟩ := copyFile_apart copied fun p landed =>
        apart.offSources s List.mem_cons_self s List.mem_cons_self p landed
      have later := ih t₁ (restApart.of_sameDirs same)
      have paths := pathOf_of_sameDirs same c
      -- where this copy lands, no later source or target leads
      have offTargets : ∀ s' ∈ rest, t.pathOf c (target s') ≠ some pl.path := fun s' member =>
        (List.pairwise_cons.mp apart.distinct).1 s' member pl.path (pathOf_of_locate found)
      have offSources : ∀ s' ∈ rest, t.pathOf c s' ≠ some pl.path := fun s' member =>
        apart.offSources s List.mem_cons_self s' (List.mem_cons_of_mem s member) pl.path
          (pathOf_of_locate found)
      have elsewhere : ∀ p, p ≠ pl.path → t₁.node? p = t.node? p := fun p away => by
        rw [nodes, if_neg away]
      have atSource : ∀ s' ∈ rest, ∀ p, t.pathOf c s' = some p → t₁.node? p = t.node? p :=
        fun s' member p found' => elsewhere p (by rintro rfl; exact offSources s' member found')
      have ableLater : ∀ s' ∈ rest, copyable t₁ c s' (target s') = copyable t c s' (target s') :=
        fun s' member => copyable_of_agree same (atSource s' member) fun p found' =>
          elsewhere p (by rintro rfl; exact offTargets s' member found')
      have able : copyable t c s (target s) = true := copyFile_ok_iff.mp ⟨t₁, copied⟩
      refine ⟨same.trans later.sameDirs, ?_, ?_, ?_⟩
      · intro p away
        have missed : p ≠ pl.path := by
          rintro rfl
          exact away s List.mem_cons_self (pathOf_of_locate found)
        rw [later.frame p fun s' member => by
          rw [paths]
          exact away s' (List.mem_cons_of_mem s member), elsewhere p missed]
      · intro s' member able'
        rcases List.mem_cons.mp member with rfl | member
        · -- no later copy lands on this target, so it keeps what this copy wrote
          have kept : (runOnTargets copyFile c target t₁ rest).1.node? pl.path = some (.file d) := by
            rw [later.frame pl.path fun s'' member' => by
              rw [paths]
              exact offTargets s'' member', nodes, if_pos rfl]
          rw [read]
          exact readFile_eq_ok.mpr
            ⟨pl, locate_of_sameDirs (same.trans later.sameDirs) found, kept, slash⟩
        · obtain ⟨d', -, read', -, -⟩ := copyable_eq_true.mp able'
          rw [later.filled s' member (by rwa [ableLater s' member]), read']
          exact readFile_of_sameDirs same (atSource s' member) read'
      · rw [later.failures, List.filter_cons_of_neg (by simp [able])]
        exact List.filter_congr fun s' member => by rw [ableLater s' member]

/-! ## `mycp` -/

section Reader

variable [Getopt]

/-- After `--` every word is an operand; with two or more, `mycp` copies each source to its
target. -/
theorem cp_run (lawful : Getopt.Lawful) {operands : List String} (enough : 2 ≤ operands.length)
    (st : ToolState) :
    (cp ("mycp" :: "--" :: operands)).run st = (eachTarget "mycp" operands copyFile).run st := by
  have counted : ¬operands.length < 2 := by omega
  simp [cp, withOptions, lawful.dashes, ParsedOptions.flag, counted]

/-- `mycp` never loses data when no copy lands on a source or on another copy: every source
reads as it did, the target of every source that could be copied holds that source's content,
the sources that could not be copied are reported one line each, in order, and the status is 0
exactly when every copy could be made. Several sources and a destination that is not a
directory write nothing. -/
theorem copies_apart_keep_sources (lawful : Getopt.Lawful) (st : ToolState)
    (operands : List String) (enough : 2 ≤ operands.length) :
    let sources := operands.dropLast
    let dest := operands.getLast?.getD ""
    let target := targetOf dest (st.tree.isDirAt st.cwd dest)
    let result := (cp ("mycp" :: "--" :: operands)).run st
    (1 < sources.length → st.tree.isDirAt st.cwd dest = false →
      result.2.tree = st.tree ∧ result.1 = failure) ∧
    (sources.length ≤ 1 ∨ st.tree.isDirAt st.cwd dest = true →
      Apart st.tree st.cwd sources target →
      (∀ s ∈ sources, (result.2.tree.readFile st.cwd s).toOption =
        (st.tree.readFile st.cwd s).toOption) ∧
      (∀ s ∈ sources, copyable st.tree st.cwd s (target s) = true →
        result.2.tree.readFile st.cwd (target s) = st.tree.readFile st.cwd s) ∧
      (result.1 = success ↔ ∀ s ∈ sources, copyable st.tree st.cwd s (target s) = true) ∧
      ∃ failed : List (String × String),
        failed.map Prod.fst = sources.filter (fun s => !copyable st.tree st.cwd s (target s)) ∧
        result.2.err = st.err ++ failureLines "mycp" failed) := by
  intro sources dest target result
  have reduced : result = (eachTarget "mycp" operands copyFile).run st := cp_run lawful enough st
  rw [eachTarget_run] at reduced
  refine ⟨fun several notDir => ?_, fun spread apart => ?_⟩
  · rw [if_pos ⟨several, notDir⟩] at reduced
    rw [reduced]
    exact ⟨rfl, rfl⟩
  · have shape : ¬(1 < sources.length ∧ st.tree.isDirAt st.cwd dest = false) := by
      rintro ⟨several, notDir⟩
      rcases spread with few | isDir
      · omega
      · rw [isDir] at notDir
        cases notDir
    rw [if_neg shape] at reduced
    obtain ⟨run, unfolded⟩ : ∃ run, run = runOnTargets copyFile st.cwd target st.tree sources :=
      ⟨_, rfl⟩
    have ran : result = ((if run.2 = [] then success else failure),
        { st with tree := run.1, err := st.err ++ failureLines "mycp" run.2 }) := by
      rw [unfolded]
      exact reduced
    have copied : CopiedApart st.tree run.1 st.cwd sources target run.2 := by
      rw [unfolded]
      exact runOnTargets_apart sources st.tree apart
    -- the status is 0 exactly when no source was reported
    have status : result.1 = success ↔ run.2 = [] := by
      rw [ran]
      split <;> simp_all [success, failure]
    refine ⟨fun s member => ?_, fun s member able => by rw [ran]; exact copied.filled s member able,
      ?_, ⟨run.2, copied.failures, by rw [ran]⟩⟩
    · -- no copy lands where a source leads, so the source reads as before
      rw [ran]
      exact readFile_toOption copied.sameDirs fun pl found => copied.frame pl.path
        fun s' member' landed => apart.offSources s' member' s member pl.path landed
          (pathOf_of_locate found)
    · rw [status, ← List.map_eq_nil_iff, copied.failures, List.filter_eq_nil_iff]
      simp

end Reader

/-- With the shell's own reader, copying `a`, `b` and the missing `m` into the directory `d`
fills `d/a` and `d/b`, keeps `a` and `b`, reports `m` alone and fails. -/
theorem copies_into_directory_report_missing :
    let t : Tree := ⟨[(["w"], .dir), (["w", "a"], .file "x"), (["w", "b"], .file "y"), (["w", "d"], .dir)]⟩
    let result := (cp ["mycp", "--", "a", "b", "m", "d"]).run { tree := t, cwd := ["w"] }
    (Getopt.Lawful ∧ 2 ≤ ["a", "b", "m", "d"].length ∧
      Apart t ["w"] ["a", "b", "m"] (targetOf "d" (t.isDirAt ["w"] "d"))) ∧
    result.2.tree.readFile ["w"] "d/a" = .ok "x" ∧ result.2.tree.readFile ["w"] "d/b" = .ok "y" ∧
    (result.2.tree.readFile ["w"] "a").toOption = some "x" ∧ result.1 ≠ success ∧
    ∃ failed : List (String × String), failed.map Prod.fst = ["m"] ∧
      result.2.err = failureLines "mycp" failed := by
  intro t result
  have apart : Apart t ["w"] ["a", "b", "m"] (targetOf "d" (t.isDirAt ["w"] "d")) :=
    Apart.of_paths (by decide +kernel) (by decide +kernel)
  obtain ⟨-, copies⟩ := copies_apart_keep_sources Getopt.builtin_lawful { tree := t, cwd := ["w"] }
    ["a", "b", "m", "d"] (by decide)
  obtain ⟨kept, filled, status, failed, reported, err⟩ := copies (.inr (by decide +kernel)) apart
  -- `d` is a directory, so each source goes to `d/` and its name
  have intoA : targetOf (["a", "b", "m", "d"].getLast?.getD "")
      (t.isDirAt ["w"] (["a", "b", "m", "d"].getLast?.getD "")) "a" = "d/a" := by decide +kernel
  have intoB : targetOf (["a", "b", "m", "d"].getLast?.getD "")
      (t.isDirAt ["w"] (["a", "b", "m", "d"].getLast?.getD "")) "b" = "d/b" := by decide +kernel
  have toA := filled "a" (by simp) (by decide +kernel)
  have toB := filled "b" (by simp) (by decide +kernel)
  dsimp only at toA toB
  rw [intoA] at toA
  rw [intoB] at toB
  refine ⟨⟨Getopt.builtin_lawful, by decide, apart⟩, ?_, ?_, ?_, fun ok => ?_, failed, ?_, err⟩
  · exact toA.trans (eq_ok_of_toOption (a := "x") (by decide +kernel))
  · exact toB.trans (eq_ok_of_toOption (a := "y") (by decide +kernel))
  · exact (kept "a" (by simp)).trans (by decide +kernel)
  · have able := status.mp ok "m" (by simp)
    revert able
    decide +kernel
  · rw [reported]
    decide +kernel

/-- Copying a file onto itself empties it, and `mycp` reports nothing and succeeds. -/
theorem copy_onto_itself_empties :
    Tree.readFile ⟨[(["w"], .dir), (["w", "f"], .file "data")]⟩ ["w"] "f" = .ok "data" ∧
    ((cp ["mycp", "f", "f"]).run
        { tree := ⟨[(["w"], .dir), (["w", "f"], .file "data")]⟩, cwd := ["w"] }).1 = success ∧
    ((cp ["mycp", "f", "f"]).run
        { tree := ⟨[(["w"], .dir), (["w", "f"], .file "data")]⟩, cwd := ["w"] }).2.err = "" ∧
    ((cp ["mycp", "f", "f"]).run
        { tree := ⟨[(["w"], .dir), (["w", "f"], .file "data")]⟩, cwd := ["w"] }).2.tree.readFile
      ["w"] "f" = .ok "" :=
  ⟨eq_ok_of_toOption (by decide +kernel), by decide +kernel, by decide +kernel,
    eq_ok_of_toOption (by decide +kernel)⟩

end JobShell.Tool
