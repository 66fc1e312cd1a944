import JobShell.Fs.Tree

/-!
# What a write leaves alone

Writing a file changes the node at one path and nothing else (`node?_put_self`,
`node?_put_of_ne`). A path text is looked up through directories only, so two trees with the
same directories (`SameDirs`) resolve every path text alike: what one finds the other finds
(`locate_of_sameDirs`), and one fails where the other fails. Writing a file keeps the
directories; so reading a path whose node a write did not touch gives what it gave before
(`readFile_toOption`).

`writeFile_eq_ok` says exactly when a truncating write succeeds and what it leaves.
-/
namespace JobShell.Fs

/-! ## The node at a path after a write -/

theorem find?_set_key {l : List (List String × Node)} {p q : List String} {i : Nat} (n : Node)
    (first : l.findIdx? (·.1 == p) = some i) :
    (l.set i (p, n)).find? (·.1 == q) = if q = p then some (p, n) else l.find? (·.1 == q) := by
  induction l generalizing i with
  | nil => simp at first
  | cons x xs ih =>
    rw [List.findIdx?_cons] at first
    by_cases here : x.1 = p
    · -- the first entry with the key is the one replaced
      simp only [here, beq_self_eq_true, if_true, Option.some.injEq] at first
      subst first
      by_cases same : q = p
      · simp [same]
      · have miss : (p == q) = false := by simpa using Ne.symm same
        simp [same, here, miss]
    · simp only [here, beq_iff_eq, if_false, Option.map_eq_some_iff] at first
      obtain ⟨j, later, rfl⟩ := first
      rw [List.set_cons_succ, List.find?_cons, List.find?_cons, ih later]
      by_cases found : x.1 = q
      · have : q ≠ p := fun h => here (found.trans h)
        simp [found, this]
      · have miss : (x.1 == q) = false := by simpa using found
        simp only [miss]

theorem find?_append_key {l : List (List String × Node)} {p q : List String} (n : Node)
    (absent : l.findIdx? (·.1 == p) = none) :
    (l ++ [(p, n)]).find? (·.1 == q) = if q = p then some (p, n) else l.find? (·.1 == q) := by
  rw [List.find?_append]
  by_cases same : q = p
  · subst same
    have : l.find? (·.1 == q) = none := by
      rw [List.find?_eq_none]
      intro x member
      simpa using List.findIdx?_eq_none_iff.mp absent x member
    simp [this]
  · simp [same, Ne.symm same]

namespace Tree

theorem node?_put (t : Tree) (p q : List String) (n : Node) :
    (t.put p n).node? q = if q ≠ [] ∧ q = p then some n else t.node? q := by
  by_cases root : q = []
  · simp [node?, root]
  · simp only [node?, List.isEmpty_iff, root, if_false, ne_eq, not_false_eq_true, true_and]
    unfold put
    split
    next i found =>
      rw [find?_set_key n found]
      by_cases same : q = p <;> simp [same]
    next found =>
      rw [find?_append_key n found]
      by_cases same : q = p <;> simp [same]

/-- Two trees with the same directories. -/
def SameDirs (t t' : Tree) : Prop := ∀ q, t.node? q = some .dir ↔ t'.node? q = some .dir

namespace SameDirs

theorem refl (t : Tree) : SameDirs t t := fun _ => Iff.rfl

theorem symm {t t' : Tree} (same : SameDirs t t') : SameDirs t' t := fun q => (same q).symm

theorem trans {t t' t'' : Tree} (first : SameDirs t t') (second : SameDirs t' t'') :
    SameDirs t t'' := fun q => (first q).trans (second q)

end SameDirs

/-- Writing a file where there is no directory keeps the directories. -/
theorem sameDirs_put {t : Tree} {p : List String} (d : String) (notDir : t.node? p ≠ some .dir) :
    SameDirs t (t.put p (.file d)) := by
  intro q
  rw [node?_put]
  by_cases hit : q ≠ [] ∧ q = p
  · obtain ⟨-, rfl⟩ := hit
    by_cases root : q = [] <;> simp [root, notDir]
  · simp [hit]

/-- A walk reads only which names are directories. -/
theorem walk_toOption {t t' : Tree} (same : SameDirs t t') (cur names : List String) :
    (t'.walk cur names).toOption = (t.walk cur names).toOption := by
  induction names generalizing cur with
  | nil => simp [walk]
  | cons n rest ih =>
    by_cases dot : n = "."
    · subst dot
      rw [walk, walk]
      exact ih cur
    by_cases up : n = ".."
    · subst up
      rw [walk, walk]
      exact ih _
    rw [walk, walk]
    · have dirs := same (cur ++ [n])
      rcases here : t.node? (cur ++ [n]) with _ | (_ | _) <;>
        rcases there : t'.node? (cur ++ [n]) with _ | (_ | _) <;> simp_all [Except.toOption]
    all_goals assumption

theorem locate_toOption {t t' : Tree} (same : SameDirs t t') (c : List String) (s : String) :
    (t'.locate c s).toOption = (t.locate c s).toOption := by
  unfold locate
  by_cases empty : s.isEmpty
  · simp [empty, bind, Except.bind, throw, throwThe, MonadExceptOf.throw]
  simp only [empty]
  cases (names s).getLast? with
  | none => rfl
  | some last =>
    have walked := walk_toOption same (if isAbsolute s then [] else c) (names s).dropLast
    rcases here : t.walk (if isAbsolute s then [] else c) (names s).dropLast with _ | cur <;>
      rcases there : t'.walk (if isAbsolute s then [] else c) (names s).dropLast with _ | cur' <;>
      simp_all [Except.toOption, bind, Except.bind]

theorem eq_ok_of_toOption {ε α : Type} {x : Except ε α} {a : α} (found : x.toOption = some a) :
    x = .ok a := by
  cases x <;> simp_all [Except.toOption]

theorem ok_of_toOption_eq {ε α : Type} {x y : Except ε α} {a : α}
    (same : x.toOption = y.toOption) (ok : y = .ok a) : x = .ok a :=
  eq_ok_of_toOption (by rw [same, ok]; rfl)

theorem locate_of_sameDirs {t t' : Tree} (same : SameDirs t t') {c : List String} {s : String}
    {pl : Place} (found : t.locate c s = .ok pl) : t'.locate c s = .ok pl :=
  ok_of_toOption_eq (locate_toOption same c s) found

/-- The path a path text leads to, if it leads anywhere. -/
def pathOf (t : Tree) (c : List String) (s : String) : Option (List String) :=
  (t.locate c s).toOption.map (·.path)

theorem pathOf_of_locate {t : Tree} {c : List String} {s : String} {pl : Place}
    (found : t.locate c s = .ok pl) : t.pathOf c s = some pl.path := by
  simp [pathOf, found, Except.toOption]

theorem pathOf_of_sameDirs {t t' : Tree} (same : SameDirs t t') (c : List String) (s : String) :
    t'.pathOf c s = t.pathOf c s := by
  simp only [pathOf, locate_toOption same]

/-! ## Reading and writing a file -/

theorem readFile_eq_ok {t : Tree} {c : List String} {s d : String} :
    t.readFile c s = .ok d ↔
      ∃ pl, t.locate c s = .ok pl ∧ t.node? pl.path = some (.file d) ∧ pl.slash = false := by
  unfold readFile lstat
  rcases found : t.locate c s with e | pl
  · simp [bind, Except.bind]
  · rcases node : t.node? pl.path with _ | (_ | _) <;> cases slash : pl.slash <;>
      simp [bind, Except.bind, node, slash, pure, Except.pure, throw, throwThe,
        MonadExceptOf.throw]

/-- Reading a path gives what it gave in a tree with the same directories and the same node
where the path leads. -/
theorem readFile_toOption {t t' : Tree} (same : SameDirs t t') {c : List String} {s : String}
    (agree : ∀ pl, t.locate c s = .ok pl → t'.node? pl.path = t.node? pl.path) :
    (t'.readFile c s).toOption = (t.readFile c s).toOption := by
  have located := locate_toOption same c s
  rcases found : t.locate c s with e | pl
  · -- a path that leads nowhere in one tree leads nowhere in the other
    rcases found' : t'.locate c s with e' | pl'
    · simp [readFile, lstat, found, found', bind, Except.bind, Except.toOption]
    · simp [found, found', Except.toOption] at located
  · have found' := locate_of_sameDirs same found
    have node := agree pl found
    cases read₀ : t.readFile c s with
    | ok d =>
      obtain ⟨_, again, file, slash⟩ := readFile_eq_ok.mp read₀
      rw [found] at again
      cases again
      have read : t'.readFile c s = .ok d := readFile_eq_ok.mpr ⟨pl, found', node.trans file, slash⟩
      simp [read, Except.toOption]
    | error e =>
      cases read₁ : t'.readFile c s with
      | error => rfl
      | ok d' =>
        obtain ⟨_, again, file, slash⟩ := readFile_eq_ok.mp read₁
        rw [found'] at again
        cases again
        have read : t.readFile c s = .ok d' := readFile_eq_ok.mpr ⟨pl, found, node.symm.trans file, slash⟩
        simp [read] at read₀

/-- What a path reads in one tree it reads in another with the same directories and the same
node where the path leads. -/
theorem readFile_of_sameDirs {t t' : Tree} (same : SameDirs t t') {c : List String} {s : String}
    (agree : ∀ p, t.pathOf c s = some p → t'.node? p = t.node? p) {d : String}
    (read : t.readFile c s = .ok d) : t'.readFile c s = .ok d :=
  ok_of_toOption_eq (readFile_toOption same fun _ found => agree _ (pathOf_of_locate found)) read

/-- Whether a file can be written where a path leads: not over a directory, and not through a
trailing slash. -/
def writable : Option Node → Bool → Bool
  | some .dir, _ => false
  | _, slash => !slash

theorem writable_eq_true {n : Option Node} {slash : Bool} :
    writable n slash = true ↔ n ≠ some .dir ∧ slash = false := by
  rcases n with _ | (_ | _) <;> cases slash <;> simp [writable]

/-- A truncating write succeeds exactly where the path leads somewhere writable, and it puts
the file there. -/
theorem writeFile_eq_ok {t t' : Tree} {c : List String} {s data : String} :
    t.writeFile c s data false = .ok t' ↔
      ∃ pl, t.locate c s = .ok pl ∧ writable (t.node? pl.path) pl.slash = true ∧
        t' = t.put pl.path (.file data) := by
  unfold writeFile
  rcases found : t.locate c s with e | pl
  · simp [bind, Except.bind]
  · rcases node : t.node? pl.path with _ | (_ | _) <;> cases slash : pl.slash <;>
      simp [bind, Except.bind, node, slash, writable, pure, Except.pure, throw, throwThe,
        MonadExceptOf.throw] <;> exact eq_comm

/-- Writing a file elsewhere leaves what a path reads. -/
theorem readFile_put_of_ne {t : Tree} {c : List String} {s : String} {p : List String}
    {pl : Place} (x : String) (notDir : t.node? p ≠ some .dir) (found : t.locate c s = .ok pl)
    (apart : pl.path ≠ p) : (t.put p (.file x)).readFile c s = t.readFile c s := by
  have found' := locate_of_sameDirs (sameDirs_put x notDir) found
  simp only [readFile, lstat, found, found', bind, Except.bind, node?_put, apart, and_false,
    if_false]

/-- Reading where a file was just written gives what was written. -/
theorem readFile_put_self {t : Tree} {c : List String} {s : String} {pl : Place} (x : String)
    (notDir : t.node? pl.path ≠ some .dir) (found : t.locate c s = .ok pl)
    (slash : pl.slash = false) : (t.put pl.path (.file x)).readFile c s = .ok x := by
  have found' := locate_of_sameDirs (sameDirs_put x notDir) found
  -- the root is a directory, so the written path is not the root
  have nonRoot : pl.path ≠ [] := by
    rintro root
    simp [root, node?] at notDir
  refine readFile_eq_ok.mpr ⟨pl, found', ?_, slash⟩
  simp [node?_put, nonRoot]

end Tree

end JobShell.Fs
