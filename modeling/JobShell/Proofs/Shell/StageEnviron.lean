import Mathlib.Data.List.Induction
import JobShell.Shell.Stage

/-!
# What a stage reads from its environment

A stage is started with an environment block: the exported variables, then the stage's own
`NAME=value` assignments, then, for a builtin, the job table. The process keeps only the first
entry for each name (`firstSettings`), and builds its variables from what is left
(`Env.ofEnviron`, where the last setting of a name would win).

So a stage reads, for every name, the first value its block gives it
(`lookup_ofEnviron_firstSettings`): a prefix assignment to a name the shell exports is not
seen, and of two assignments to one name the first counts (`stage_reads_first_setting`).
-/
namespace JobShell

/-! ## Looking a name up in a block -/

@[simp] theorem environValue?_nil (key : String) : environValue? [] key = none := rfl

theorem environValue?_cons (e : String) (rest : List String) (key : String) :
    environValue? (e :: rest) key =
      if (splitPair e).1 == key then some (splitPair e).2 else environValue? rest key := by
  unfold environValue?
  rw [List.findSome?_cons]
  cases splitPair e
  dsimp only
  split <;> simp_all

theorem environValue?_append (l₁ l₂ : List String) (key : String) :
    environValue? (l₁ ++ l₂) key = (environValue? l₁ key).or (environValue? l₂ key) := by
  unfold environValue?
  rw [List.findSome?_append]

theorem environValue?_eq_none {l : List String} {key : String} :
    environValue? l key = none ↔ ∀ e ∈ l, (splitPair e).1 ≠ key := by
  induction l with
  | nil => simp
  | cons e rest ih =>
    rw [environValue?_cons]
    by_cases same : (splitPair e).1 = key
    · simp [same]
    · simp [same, ih]

/-- Dropping entries that do not set `key` leaves its value. -/
theorem environValue?_filter {l : List String} {key : String} (p : String → Bool)
    (keeps : ∀ e ∈ l, (splitPair e).1 = key → p e = true) :
    environValue? (l.filter p) key = environValue? l key := by
  induction l with
  | nil => rfl
  | cons e rest ih =>
    have later := ih fun e' member => keeps e' (List.mem_cons_of_mem e member)
    by_cases same : (splitPair e).1 = key
    · rw [List.filter_cons_of_pos (keeps e List.mem_cons_self same), environValue?_cons,
        environValue?_cons, later]
    · rw [environValue?_cons, if_neg (by simpa using same)]
      by_cases kept : p e = true
      · rw [List.filter_cons_of_pos kept, environValue?_cons, if_neg (by simpa using same), later]
      · rw [List.filter_cons_of_neg kept, later]

/-! ## Building variables from a block -/

namespace Env

theorem lookup_setenv (env : Env) (k v key : String) :
    (env.setenv k v).lookup key = if k = key then some v else env.lookup key := by
  unfold setenv assign lookup
  by_cases same : k = key
  · simp [same]
  · have other : (k == key) = false := by simpa using same
    simp only [List.find?_cons, other, List.find?_filter]
    rw [if_neg same]
    congr 2
    funext entry
    by_cases named : entry.1 = key
    · simp [named, Ne.symm same]
    · simp [named]

theorem lookup_ofEnviron_snoc (l : List String) (e key : String) :
    (ofEnviron (l ++ [e])).lookup key =
      if (splitPair e).1 = key then some (splitPair e).2 else (ofEnviron l).lookup key := by
  unfold ofEnviron
  rw [List.foldl_append, List.foldl_cons, List.foldl_nil]
  cases splitPair e
  exact lookup_setenv _ _ _ key

/-- Over a block that sets every name at most once, the variables are the block's values. -/
theorem lookup_ofEnviron_of_distinct (key : String) :
    ∀ l : List String, l.Pairwise (fun a b => (splitPair a).1 ≠ (splitPair b).1) →
      (ofEnviron l).lookup key = environValue? l key := by
  intro l
  induction l using List.reverseRecOn with
  | nil => intro _; rfl
  | append_singleton l e ih =>
    intro distinct
    obtain ⟨earlier, -, apart⟩ := List.pairwise_append.mp distinct
    rw [lookup_ofEnviron_snoc, ih earlier, environValue?_append, environValue?_cons,
      environValue?_nil]
    by_cases same : (splitPair e).1 = key
    · -- the last entry is the only one that sets `key`
      have unset : environValue? l key = none := environValue?_eq_none.mpr
        fun a member named => apart a member e List.mem_cons_self (named.trans same.symm)
      simp [same, unset]
    · simp [same]

end Env

/-! ## The first setting of each name -/

/-- Between entries that set a name, keeping the first sets each name once. -/
theorem setsSame_iff {e e' : String} (named : e.contains '=' = true)
    (named' : e'.contains '=' = true) :
    setsSame e e' = true ↔ (splitPair e).1 = (splitPair e').1 := by
  simp [setsSame, named, named']

theorem firstSettings_sublist : ∀ l : List String, (firstSettings l).Sublist l
  | [] => List.Sublist.slnil
  | e :: rest => ((List.filter_sublist).trans (firstSettings_sublist rest)).cons_cons e

theorem firstSettings_distinct :
    ∀ l : List String, (∀ e ∈ l, e.contains '=' = true) →
      (firstSettings l).Pairwise fun a b => (splitPair a).1 ≠ (splitPair b).1
  | [] => fun _ => List.Pairwise.nil
  | e :: rest => fun named => by
    refine List.Pairwise.cons (fun b kept same => ?_)
      ((firstSettings_distinct rest fun e' member =>
        named e' (List.mem_cons_of_mem e member)).filter _)
    -- an entry kept after `e` does not set `e`'s name
    obtain ⟨later, differs⟩ := List.mem_filter.mp kept
    have from_rest := (firstSettings_sublist rest).subset later
    have sets := (setsSame_iff (named e List.mem_cons_self)
      (named b (List.mem_cons_of_mem e from_rest))).mpr same
    simp [sets] at differs

theorem environValue?_firstSettings (key : String) :
    ∀ l : List String, (∀ e ∈ l, e.contains '=' = true) →
      environValue? (firstSettings l) key = environValue? l key
  | [] => fun _ => rfl
  | e :: rest => fun named => by
    have later := environValue?_firstSettings key rest fun e' member =>
      named e' (List.mem_cons_of_mem e member)
    rw [firstSettings, environValue?_cons, environValue?_cons]
    by_cases same : (splitPair e).1 = key
    · simp [same]
    · -- the entries dropped after `e` set `e`'s name, not `key`
      rw [if_neg (by simpa using same), if_neg (by simpa using same), environValue?_filter _
        fun b kept sets => ?_, later]
      have sets_other := (not_congr (setsSame_iff (named e List.mem_cons_self)
        (named b (List.mem_cons_of_mem e ((firstSettings_sublist rest).subset kept))))).mpr
        fun both => same (both.trans sets)
      simpa using sets_other

/-- A process started with the block `l` reads, for every name, the first value `l` gives it. -/
theorem lookup_ofEnviron_firstSettings (l : List String) (named : ∀ e ∈ l, e.contains '=' = true)
    (key : String) : (Env.ofEnviron (firstSettings l)).lookup key = environValue? l key := by
  rw [Env.lookup_ofEnviron_of_distinct key _ (firstSettings_distinct l named),
    environValue?_firstSettings key l named]

/-- The shell of a builtin stage started with the exported variables, then the stage's own
assignments, then anything more, reads for every name but the job table's the first value the
block gives it: the shell's value when it exports the name, else the first assignment. -/
theorem stage_reads_first_setting (h : Host.Host) (exported assignments more : List String)
    (cwd : List String) (pid : Nat) (input : Input)
    (named : ∀ e ∈ exported ++ assignments ++ more, e.contains '=' = true)
    (key : String) (other : key ≠ jobsVariable) :
    (stageSession h (firstSettings (exported ++ assignments ++ more)) cwd pid input).shell.env.lookup
        key =
      ((environValue? exported key).or (environValue? assignments key)).or
        (environValue? more key) := by
  let block := exported ++ assignments ++ more
  have distinct := firstSettings_distinct block named
  -- the stage drops the job table's entries, which do not set `key`
  have dropped : ((firstSettings block).filter fun e => (splitPair e).1 != jobsVariable).Pairwise
      fun a b => (splitPair a).1 ≠ (splitPair b).1 := distinct.filter _
  change (Env.ofEnviron ((firstSettings block).filter
    fun e => (splitPair e).1 != jobsVariable)).lookup key = _
  rw [Env.lookup_ofEnviron_of_distinct key _ dropped,
    environValue?_filter _ fun e _ sets => by simp [sets, other],
    environValue?_firstSettings key block named, environValue?_append, environValue?_append]

/-- A stage started with `X` exported as `a` and the assignment `X=b` reads `X` as the shell
exports it. -/
theorem stage_reads_exported_over_assignment :
    (∀ e ∈ ["X=a"] ++ ["X=b"] ++ [], e.contains '=' = true) ∧ "X" ≠ jobsVariable ∧
    (stageSession default (firstSettings (["X=a"] ++ ["X=b"] ++ [])) [] 0 {}).shell.env.lookup
        "X" =
      ((environValue? ["X=a"] "X").or (environValue? ["X=b"] "X")).or (environValue? [] "X") := by
  have named : ∀ e ∈ ["X=a"] ++ ["X=b"] ++ [], e.contains '=' = true := by simp
  have other : "X" ≠ jobsVariable := by decide
  exact ⟨named, other, stage_reads_first_setting default ["X=a"] ["X=b"] [] [] 0 {} named "X" other⟩

end JobShell
