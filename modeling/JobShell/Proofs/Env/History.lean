import Mathlib.Data.List.Nodup
import Mathlib.Data.List.TakeWhile
import Mathlib.Tactic.Tauto
import JobShell.Proofs.Shell.StageCommandLine

/-!
# A store of variables follows its history

A store is seeded from `NAME=value` entries, each split at its first `=` and exported
(`Env.ofEnviron`), and then changed by assignments that keep the exported mark (`set`),
assignments that export (`setenv`), exports of the current value (`markExported`) and removals
(`unset`). This module reads a store off the history of updates that built it (`Env.Update`):

* a name is defined exactly when some update assigned it after its last removal
  (`defined_run_iff`), and its value is the one its latest assignment gave it, an export
  keeping the value it found (`lookup_run_latest`);
* a name is exported exactly when some update exported it after its last removal
  (`exported_run_iff`): a plain assignment keeps the mark and creates a name unexported.

Both come from one fact about observations that an update switches on, switches off or leaves
alone (`holds_run_iff`). When no name holds a `=` (`Env.Plain`), the two listings give each
defined, respectively exported, name once as `NAME=value`, in strictly increasing text order
(`Env.Listing`), and a store seeded from its own exported listing holds exactly its exported
variables, all exported (`ofEnviron_listing`): the first `=` of an entry is the one after the
name (`splitPair_entry`).

The main statement is `store_follows_history`.
-/
namespace JobShell

/-! ## Splitting an entry at its first `=` -/

/-- An entry written as `name=value`, with no `=` in the name, splits back into the two. -/
theorem splitPair_entry {name : String} (value : String) (plain : '=' ∉ name.toList) :
    splitPair (name ++ "=" ++ value) = (name, value) := by
  unfold splitPair
  have spans := span_append_of_no_equals (r := '=' :: value.toList) plain
  simp only [String.toList_append]
  rw [show ("=" : String).toList = ['='] from rfl, List.append_assoc, List.singleton_append,
    spans]
  simp

theorem splitPair_fst (entry : String) :
    (splitPair entry).1 = String.ofList (entry.toList.takeWhile (· != '=')) := by
  unfold splitPair
  rw [List.span_eq_takeWhile_dropWhile]
  cases entry.toList.dropWhile (· != '=') <;> rfl

/-- The name of an entry holds no `=`. -/
theorem splitPair_fst_plain (entry : String) : '=' ∉ (splitPair entry).1.toList := by
  rw [splitPair_fst, String.toList_ofList]
  intro member
  simpa using List.mem_takeWhile_imp member

/-! ## Byte order of texts -/

theorem mem_sortTexts {xs : List String} {x : String} : x ∈ sortTexts xs ↔ x ∈ xs :=
  (List.mergeSort_perm xs _).mem_iff

/-- Sorting texts that are all different orders them strictly. -/
theorem sortTexts_increasing {xs : List String} (distinct : xs.Nodup) :
    (sortTexts xs).Pairwise (· < ·) := by
  have sorted : (sortTexts xs).Pairwise fun a b => decide (a ≤ b) = true :=
    List.pairwise_mergeSort
      (fun _ _ _ ab bc => by
        simp only [decide_eq_true_eq] at ab bc ⊢
        exact String.le_trans ab bc)
      (fun a b => by
        simp only [Bool.or_eq_true, decide_eq_true_eq]
        exact String.le_total a b) xs
  have nodup : (sortTexts xs).Nodup := (List.mergeSort_perm xs _).nodup_iff.mpr distinct
  exact (sorted.and nodup).imp fun ⟨before, apart⟩ =>
    String.not_le.mp fun after => apart (String.le_antisymm (by simpa using before) after)

namespace Env

/-! ## What one assignment or removal does -/

theorem find?_assign (e : Env) (k v : String) (x : Bool) (name : String) :
    (e.assign k v x).vars.find? (·.1 == name) =
      if k = name then some (k, { value := v, exported := e.isExported k || x })
      else e.vars.find? (·.1 == name) := by
  unfold assign
  by_cases same : k = name
  · simp [same]
  · rw [List.find?_cons_of_neg (by simpa using same), List.find?_filter, if_neg same]
    congr 1
    funext entry
    by_cases named : entry.1 = name
    · simp [named, Ne.symm same]
    · simp [named]

theorem find?_unset (e : Env) (k name : String) :
    (e.unset k).vars.find? (·.1 == name) =
      if k = name then none else e.vars.find? (·.1 == name) := by
  unfold unset
  rw [List.find?_filter]
  by_cases same : k = name
  · subst same
    simp
  · rw [if_neg same]
    congr 1
    funext entry
    by_cases named : entry.1 = name
    · simp [named, Ne.symm same]
    · simp [named]

theorem isExported_eq (e : Env) (name : String) :
    e.isExported name = ((e.vars.find? (·.1 == name)).map (·.2.exported)).getD false := by
  unfold isExported
  cases e.vars.find? (·.1 == name) with
  | none => rfl
  | some entry => rfl

@[simp] theorem lookup_assign (e : Env) (k v : String) (x : Bool) (name : String) :
    (e.assign k v x).lookup name = if k = name then some v else e.lookup name := by
  unfold lookup
  rw [find?_assign]
  split <;> rfl

@[simp] theorem isExported_assign (e : Env) (k v : String) (x : Bool) (name : String) :
    (e.assign k v x).isExported name =
      if k = name then e.isExported k || x else e.isExported name := by
  rw [isExported_eq, find?_assign]
  split
  · rfl
  · rw [isExported_eq]

@[simp] theorem lookup_unset (e : Env) (k name : String) :
    (e.unset k).lookup name = if k = name then none else e.lookup name := by
  unfold lookup
  rw [find?_unset]
  split <;> rfl

@[simp] theorem isExported_unset (e : Env) (k name : String) :
    (e.unset k).isExported name = if k = name then false else e.isExported name := by
  rw [isExported_eq, find?_unset]
  split
  · rfl
  · rw [isExported_eq]

/-- Only a defined name can be exported. -/
theorem defined_of_exported {e : Env} {name : String} (exported : e.isExported name = true) :
    (e.lookup name).isSome := by
  rw [isExported_eq] at exported
  unfold lookup
  cases found : e.vars.find? (·.1 == name) with
  | none => simp [found] at exported
  | some entry => rfl

/-! ## Histories of updates -/

/-- An update of a store. -/
inductive Update where
  /-- Assigns a value, keeping the exported mark. -/
  | set (key value : String)
  /-- Assigns a value and exports it. -/
  | setenv (key value : String)
  /-- Exports the current value, creating the name empty. -/
  | markExported (key : String)
  /-- Removes the name. -/
  | unset (key : String)
  deriving DecidableEq, Repr

namespace Update

/-- The name an update is about. -/
def key : Update → String
  | set k _ | setenv k _ | markExported k | unset k => k

/-- The update that a `NAME=value` entry seeds a store with: split at its first `=`, exported. -/
def seed (entry : String) : Update := setenv (splitPair entry).1 (splitPair entry).2

/-- The update gives `name` a value. -/
def Assigns (name : String) : Update → Prop
  | set k _ | setenv k _ | markExported k => k = name
  | unset _ => False

/-- The update exports `name`. -/
def Exports (name : String) : Update → Prop
  | setenv k _ | markExported k => k = name
  | set _ _ | unset _ => False

/-- The update removes `name`. -/
def Removes (name : String) (u : Update) : Prop := u = unset name

/-- The update is about `name`. -/
def Touches (name : String) (u : Update) : Prop := u.key = name

/-- The value an update leaves its name with, from the value `current` it finds. -/
def value (current : String) : Update → String
  | set _ v | setenv _ v => v
  | markExported _ | unset _ => current

end Update

/-- Applies one update. -/
def apply (e : Env) : Update → Env
  | .set k v => e.set k v
  | .setenv k v => e.setenv k v
  | .markExported k => e.markExported k
  | .unset k => e.unset k

/-- Applies updates in order. -/
def run (e : Env) (h : List Update) : Env := h.foldl apply e

theorem run_cons (e : Env) (u : Update) (h : List Update) : e.run (u :: h) = (e.apply u).run h :=
  rfl

theorem run_append (e : Env) (h₁ h₂ : List Update) : e.run (h₁ ++ h₂) = (e.run h₁).run h₂ :=
  List.foldl_append

/-- Seeding a store from entries is running their seeds from the empty store. -/
theorem ofEnviron_eq_run (entries : List String) :
    ofEnviron entries = ({} : Env).run (entries.map Update.seed) := by
  unfold ofEnviron run
  rw [List.foldl_map]
  rfl

/-- Some update of `h` marks, and no update after it clears. -/
def Since (marks clears : Update → Prop) (h : List Update) : Prop :=
  ∃ pre u post, h = pre ++ u :: post ∧ marks u ∧ ∀ w ∈ post, ¬ clears w

section Since

variable {marks clears : Update → Prop}

theorem not_since_nil : ¬ Since marks clears [] := by
  rintro ⟨pre, u, post, split, -, -⟩
  simp at split

theorem since_cons {u : Update} {h : List Update} :
    Since marks clears (u :: h) ↔ Since marks clears h ∨ (marks u ∧ ∀ w ∈ h, ¬ clears w) := by
  constructor
  · rintro ⟨pre, w, post, split, marked, kept⟩
    cases pre with
    | nil =>
      simp only [List.nil_append, List.cons.injEq] at split
      obtain ⟨rfl, rfl⟩ := split
      exact .inr ⟨marked, kept⟩
    | cons v pre =>
      simp only [List.cons_append, List.cons.injEq] at split
      obtain ⟨rfl, rest⟩ := split
      exact .inl ⟨pre, w, post, rest, marked, kept⟩
  · rintro (⟨pre, w, post, rfl, marked, kept⟩ | ⟨marked, kept⟩)
    · exact ⟨u :: pre, w, post, rfl, marked, kept⟩
    · exact ⟨[], u, h, rfl, marked, kept⟩

/-- An observation that each update switches on when it marks, off when it clears, and leaves
alone otherwise holds after a run exactly when a mark still stands, or it held before and
nothing cleared it. -/
theorem holds_run_iff {P : Env → Prop}
    (step : ∀ e u, P (e.apply u) ↔ marks u ∨ (P e ∧ ¬ clears u)) (e : Env) (h : List Update) :
    P (e.run h) ↔ Since marks clears h ∨ (P e ∧ ∀ w ∈ h, ¬ clears w) := by
  induction h generalizing e with
  | nil => simp [run, not_since_nil]
  | cons u h ih =>
    rw [run_cons, ih, step, since_cons, List.forall_mem_cons]
    tauto

end Since

/-! ## What a run leaves -/

theorem defined_apply (e : Env) (u : Update) (name : String) :
    ((e.apply u).lookup name).isSome ↔
      u.Assigns name ∨ ((e.lookup name).isSome ∧ ¬ u.Removes name) := by
  cases u with
  | set k v | setenv k v =>
    by_cases same : k = name <;> simp [apply, set, setenv, Update.Assigns, Update.Removes, same]
  | markExported k =>
    by_cases same : k = name <;> simp [apply, markExported, Update.Assigns, Update.Removes, same]
  | unset k =>
    by_cases same : k = name <;> simp [apply, Update.Assigns, Update.Removes, same]

theorem exported_apply (e : Env) (u : Update) (name : String) :
    (e.apply u).isExported name = true ↔
      u.Exports name ∨ (e.isExported name = true ∧ ¬ u.Removes name) := by
  cases u with
  | set k v =>
    by_cases same : k = name <;> simp [apply, set, Update.Exports, Update.Removes, same]
  | setenv k v =>
    by_cases same : k = name <;> simp [apply, setenv, Update.Exports, Update.Removes, same]
  | markExported k =>
    by_cases same : k = name <;> simp [apply, markExported, Update.Exports, Update.Removes, same]
  | unset k =>
    by_cases same : k = name <;> simp [apply, Update.Exports, Update.Removes, same]

theorem lookup_apply_of_assigns (e : Env) {u : Update} {name : String} (assigns : u.Assigns name) :
    (e.apply u).lookup name = some (u.value (e.get name)) := by
  cases u with
  | set k v | setenv k v =>
    simp only [Update.Assigns] at assigns
    simp [apply, set, setenv, Update.value, assigns]
  | markExported k =>
    simp only [Update.Assigns] at assigns
    subst assigns
    simp [apply, markExported, Update.value]
  | unset k => exact assigns.elim

theorem lookup_apply_of_untouched (e : Env) {u : Update} {name : String}
    (other : ¬ u.Touches name) : (e.apply u).lookup name = e.lookup name := by
  cases u <;> simp_all [apply, set, setenv, markExported, Update.Touches, Update.key]

/-- A name is defined after a run exactly when an update assigned it after its last removal, or
it was defined before and nothing removed it. -/
theorem defined_run_iff (e : Env) (h : List Update) (name : String) :
    ((e.run h).lookup name).isSome ↔ Since (·.Assigns name) (·.Removes name) h ∨
      ((e.lookup name).isSome ∧ ∀ w ∈ h, ¬ w.Removes name) :=
  holds_run_iff (P := fun e => (e.lookup name).isSome) (fun e u => defined_apply e u name) e h

/-- A name is exported after a run exactly when an update exported it after its last removal,
or it was exported before and nothing removed it. -/
theorem exported_run_iff (e : Env) (h : List Update) (name : String) :
    (e.run h).isExported name = true ↔ Since (·.Exports name) (·.Removes name) h ∨
      (e.isExported name = true ∧ ∀ w ∈ h, ¬ w.Removes name) :=
  holds_run_iff (P := fun e => e.isExported name = true) (fun e u => exported_apply e u name) e h

theorem lookup_run_of_untouched (e : Env) {h : List Update} {name : String}
    (untouched : ∀ w ∈ h, ¬ w.Touches name) : (e.run h).lookup name = e.lookup name := by
  induction h generalizing e with
  | nil => rfl
  | cons u h ih =>
    rw [run_cons, ih (e.apply u) fun w member => untouched w (List.mem_cons_of_mem u member),
      lookup_apply_of_untouched e (untouched u List.mem_cons_self)]

/-- After a run, a name holds the value its latest assignment left it with. -/
theorem lookup_run_latest (e : Env) {h pre post : List Update} {u : Update} {name : String}
    (split : h = pre ++ u :: post) (assigns : u.Assigns name)
    (latest : ∀ w ∈ post, ¬ w.Touches name) :
    (e.run h).lookup name = some (u.value ((e.run pre).get name)) := by
  rw [split, run_append, run_cons, lookup_run_of_untouched _ latest,
    lookup_apply_of_assigns _ assigns]

/-! ## Listings -/

/-- The names of a store are distinct and hold no `=`. -/
structure Plain (e : Env) : Prop where
  distinct : (e.vars.map (·.1)).Nodup
  no_equals : ∀ p ∈ e.vars, '=' ∉ p.1.toList

theorem Plain.empty : Plain {} := ⟨List.nodup_nil, fun _ member => absurd member List.not_mem_nil⟩

theorem Plain.assign {e : Env} (plain : e.Plain) {k : String} (v : String) (x : Bool)
    (named : '=' ∉ k.toList) : (e.assign k v x).Plain where
  distinct := by
    simp only [Env.assign, List.map_cons, List.nodup_cons]
    refine ⟨by simp, List.Nodup.sublist (List.filter_sublist.map _) plain.distinct⟩
  no_equals p member := by
    simp only [Env.assign, List.mem_cons, List.mem_filter] at member
    rcases member with rfl | ⟨member, -⟩
    · exact named
    · exact plain.no_equals p member

theorem Plain.unset {e : Env} (plain : e.Plain) (k : String) : (e.unset k).Plain where
  distinct := List.Nodup.sublist (List.filter_sublist.map _) plain.distinct
  no_equals p member := plain.no_equals p (List.mem_filter.mp member).1

theorem Plain.apply {e : Env} (plain : e.Plain) (u : Update) (named : '=' ∉ u.key.toList) :
    (e.apply u).Plain := by
  cases u with
  | set k v | setenv k v | markExported k => exact plain.assign _ _ named
  | unset k => exact plain.unset k

theorem Plain.run {e : Env} (plain : e.Plain) {h : List Update}
    (named : ∀ u ∈ h, '=' ∉ u.key.toList) : (e.run h).Plain := by
  induction h generalizing e with
  | nil => exact plain
  | cons u h ih =>
    exact ih (plain.apply u (named u List.mem_cons_self))
      fun w member => named w (List.mem_cons_of_mem u member)

/-- In a store with distinct names, every variable is the one found under its name. -/
theorem find?_of_mem {e : Env} (plain : e.Plain) {p : String × Variable} (member : p ∈ e.vars) :
    e.vars.find? (·.1 == p.1) = some p := by
  obtain ⟨q, found⟩ := Option.isSome_iff_exists.mp
    (List.find?_isSome.mpr ⟨p, member, by simp⟩ : (e.vars.find? (·.1 == p.1)).isSome)
  have named : q.1 = p.1 := by simpa using List.find?_some found
  rw [found, List.inj_on_of_nodup_map plain.distinct (List.mem_of_find?_eq_some found) member named]

/-- The value a listing shows for a name: the variable's, for every variable or only for
exported ones. -/
def shown (e : Env) (exportedOnly : Bool) (name : String) : Option String :=
  if exportedOnly && !e.isExported name then none else e.lookup name

theorem shown_of_mem {e : Env} (plain : e.Plain) (exportedOnly : Bool) {p : String × Variable}
    (member : p ∈ e.vars) :
    e.shown exportedOnly p.1 = if exportedOnly && !p.2.exported then none else some p.2.value := by
  have found := find?_of_mem plain member
  simp [shown, lookup, isExported_eq, found]

theorem mem_of_shown {e : Env} {exportedOnly : Bool} {name v : String}
    (shows : e.shown exportedOnly name = some v) :
    ∃ p ∈ e.vars, p.1 = name ∧ p.2.value = v ∧ (exportedOnly && !p.2.exported) = false := by
  unfold shown lookup at shows
  rw [isExported_eq] at shows
  cases found : e.vars.find? (·.1 == name) with
  | none => simp [found] at shows
  | some p =>
    simp only [found, Option.map_some, Option.getD_some] at shows
    split at shows
    next => cases shows
    next kept =>
      exact ⟨p, List.mem_of_find?_eq_some found, by simpa using List.find?_some found,
        by simpa using shows, by simpa using kept⟩

/-- A listing gives the variables that `value?` shows: one `NAME=value` entry for each shown
name and no other, no name twice, in strictly increasing order. -/
structure Listing (value? : String → Option String) (l : List String) : Prop where
  mem_iff : ∀ x, x ∈ l ↔ ∃ k v, value? k = some v ∧ x = k ++ "=" ++ v
  once : ∀ x ∈ l, ∀ y ∈ l, (splitPair x).1 = (splitPair y).1 → x = y
  increasing : l.Pairwise (· < ·)

/-- The entry a listing writes for a variable, if it writes one. -/
def entry (exportedOnly : Bool) (p : String × Variable) : Option String :=
  if exportedOnly && !p.2.exported then none else some (p.1 ++ "=" ++ p.2.value)

theorem entries_eq (e : Env) (exportedOnly : Bool) :
    e.entries exportedOnly = sortTexts (e.vars.filterMap (entry exportedOnly)) :=
  rfl

theorem mem_entries {e : Env} (plain : e.Plain) (exportedOnly : Bool) (x : String) :
    x ∈ e.entries exportedOnly ↔ ∃ k v, e.shown exportedOnly k = some v ∧ x = k ++ "=" ++ v := by
  rw [entries_eq, mem_sortTexts, List.mem_filterMap]
  constructor
  · rintro ⟨p, member, listed⟩
    unfold entry at listed
    split at listed
    next => cases listed
    next kept =>
      refine ⟨p.1, p.2.value, ?_, (Option.some.inj listed).symm⟩
      rw [shown_of_mem plain exportedOnly member, if_neg kept]
  · rintro ⟨k, v, shows, rfl⟩
    obtain ⟨p, member, rfl, rfl, kept⟩ := mem_of_shown shows
    exact ⟨p, member, by simp [entry, kept]⟩

/-- The entry written for a variable whose name holds no `=` splits back to that name. -/
theorem splitPair_entry_of_mem {exportedOnly : Bool} {p : String × Variable} {x : String}
    (plain : '=' ∉ p.1.toList) (listed : x ∈ entry exportedOnly p) : (splitPair x).1 = p.1 := by
  unfold entry at listed
  split at listed
  next => cases listed
  next =>
    rw [Option.mem_def, Option.some.injEq] at listed
    rw [← listed, splitPair_entry _ plain]

theorem splitPair_shown {e : Env} (plain : e.Plain) {exportedOnly : Bool} {name v : String}
    (shows : e.shown exportedOnly name = some v) : splitPair (name ++ "=" ++ v) = (name, v) := by
  obtain ⟨p, member, rfl, -, -⟩ := mem_of_shown shows
  exact splitPair_entry v (plain.no_equals p member)

theorem entries_listing {e : Env} (plain : e.Plain) (exportedOnly : Bool) :
    Listing (e.shown exportedOnly) (e.entries exportedOnly) where
  mem_iff := mem_entries plain exportedOnly
  once x xm y ym same := by
    -- each entry splits back to its name, and a name shows one value
    obtain ⟨k, v, shows, rfl⟩ := (mem_entries plain exportedOnly x).mp xm
    obtain ⟨k', v', shows', rfl⟩ := (mem_entries plain exportedOnly y).mp ym
    rw [splitPair_shown plain shows, splitPair_shown plain shows'] at same
    subst same
    rw [shows] at shows'
    cases shows'
    rfl
  increasing := by
    refine sortTexts_increasing (List.pairwise_filterMap.mpr ?_)
    refine (List.pairwise_map.mp plain.distinct).imp_of_mem fun {p q} pm qm apart => ?_
    -- entries of two different names differ, since each splits back to its name
    intro a am b bm same
    subst same
    exact apart ((splitPair_entry_of_mem (plain.no_equals p pm) am).symm.trans
      (splitPair_entry_of_mem (plain.no_equals q qm) bm))

theorem plain_of_shown {e : Env} (plain : e.Plain) {exportedOnly : Bool} {name v : String}
    (shows : e.shown exportedOnly name = some v) : '=' ∉ name.toList := by
  obtain ⟨p, member, rfl, -, -⟩ := mem_of_shown shows
  exact plain.no_equals p member

/-! ## Seeding a store from a listing -/

/-- Seeds remove nothing: a mark stands after seeding exactly when some entry's seed made it. -/
theorem since_seeds_iff {marks : Update → Prop} {name : String} (l : List String) :
    Since marks (·.Removes name) (l.map Update.seed) ↔ ∃ x ∈ l, marks (Update.seed x) := by
  constructor
  · rintro ⟨pre, u, post, split, marked, -⟩
    have member : u ∈ l.map Update.seed := by
      rw [split]
      exact List.mem_append_right _ List.mem_cons_self
    obtain ⟨x, xm, rfl⟩ := List.mem_map.mp member
    exact ⟨x, xm, marked⟩
  · rintro ⟨x, xm, marked⟩
    obtain ⟨s, t, rfl⟩ := List.append_of_mem xm
    refine ⟨s.map Update.seed, Update.seed x, t.map Update.seed, by simp, marked, ?_⟩
    intro w wm removes
    obtain ⟨y, -, rfl⟩ := List.mem_map.mp wm
    simp [Update.seed, Update.Removes] at removes

/-- A store seeded from a listing of `value?`, whose names hold no `=`, holds exactly the listed
variables, all exported. -/
theorem ofEnviron_listing {value? : String → Option String} {l : List String}
    (listed : Listing value? l) (plain : ∀ k v, value? k = some v → '=' ∉ k.toList)
    (name : String) :
    (ofEnviron l).lookup name = value? name ∧
      (ofEnviron l).isExported name = (value? name).isSome := by
  -- every entry is `k=v` for a shown name, so it sets `name` exactly when `k` is `name`
  have names : (∃ x ∈ l, (splitPair x).1 = name) ↔ (value? name).isSome := by
    constructor
    · rintro ⟨x, xm, named⟩
      obtain ⟨k, v, shows, rfl⟩ := (listed.mem_iff x).mp xm
      rw [splitPair_entry v (plain k v shows)] at named
      subst named
      simp [shows]
    · intro defined
      obtain ⟨v, shows⟩ := Option.isSome_iff_exists.mp defined
      exact ⟨name ++ "=" ++ v, (listed.mem_iff _).mpr ⟨name, v, shows, rfl⟩,
        by rw [splitPair_entry v (plain name v shows)]⟩
  have seeded : ∀ x, Update.seed x = .setenv (splitPair x).1 (splitPair x).2 := fun _ => rfl
  rw [ofEnviron_eq_run]
  constructor
  · cases shows : value? name with
    | none =>
      have unnamed : ∀ x ∈ l, (splitPair x).1 ≠ name := fun x xm named => by
        simpa [shows] using names.mp ⟨x, xm, named⟩
      have undefined := (defined_run_iff {} (l.map Update.seed) name).not.mpr (by
        rw [since_seeds_iff]
        simpa [seeded, Update.Assigns, lookup] using unnamed)
      simpa using undefined
    | some v =>
      let x := name ++ "=" ++ v
      have split : splitPair x = (name, v) := splitPair_entry v (plain name v shows)
      obtain ⟨s, t, hl⟩ := List.append_of_mem ((listed.mem_iff x).mpr ⟨name, v, shows, rfl⟩)
      -- no entry after `x` sets `name`: `x` is the only entry that does
      have latest : ∀ w ∈ t.map Update.seed, ¬ w.Touches name := by
        intro w wm touches
        obtain ⟨y, ym, rfl⟩ := List.mem_map.mp wm
        have increasing : (s ++ x :: t).Pairwise (· < ·) := hl ▸ listed.increasing
        have before : x < y :=
          List.rel_of_pairwise_cons (List.pairwise_append.mp increasing).2.1 ym
        have same : x = y := listed.once x (by simp [hl]) y (by simp [hl, ym])
          (by rw [split]; exact touches.symm)
        exact String.lt_irrefl y (same ▸ before)
      rw [lookup_run_latest {} (by rw [hl, List.map_append, List.map_cons]) (by simp [seeded, split, Update.Assigns]) latest]
      simp [seeded, split, Update.value]
  · rw [Bool.eq_iff_iff, exported_run_iff, since_seeds_iff]
    simp [seeded, Update.Exports, names, isExported_eq]

/-! ## The whole history -/

/-- What a store `e` answers after the history `h` that built it from the empty store: a name
is defined exactly when an update assigned it after its last removal, with the value of its
latest assignment; it is exported exactly when an update exported it after its last removal;
`all` and `environ` list the defined, respectively exported, variables once each as
`NAME=value` in strictly increasing order; and a store seeded from `environ` holds exactly the
exported variables, all exported. -/
structure FollowsHistory (h : List Update) (e : Env) : Prop where
  defined : ∀ name, (e.lookup name).isSome ↔ Since (·.Assigns name) (·.Removes name) h
  latest : ∀ name pre u post, h = pre ++ u :: post → u.Assigns name →
    (∀ w ∈ post, ¬ w.Touches name) → e.lookup name = some (u.value ((({} : Env).run pre).get name))
  exported : ∀ name, e.isExported name = true ↔ Since (·.Exports name) (·.Removes name) h
  all : Listing e.lookup e.all
  environ : Listing (fun name => if e.isExported name then e.lookup name else none) e.environ
  reseeded : ∀ name,
    (ofEnviron e.environ).lookup name = (if e.isExported name then e.lookup name else none) ∧
      (ofEnviron e.environ).isExported name = e.isExported name

/-- A store seeded from `entries` and then updated by `ops`, none of whose names holds a `=`,
follows its whole history: the seeds of the entries, then `ops`. -/
theorem store_follows_history (entries : List String) (ops : List Update)
    (plain : ∀ u ∈ ops, '=' ∉ u.key.toList) :
    FollowsHistory (entries.map Update.seed ++ ops) ((ofEnviron entries).run ops) := by
  let h := entries.map Update.seed ++ ops
  let e := (ofEnviron entries).run ops
  show FollowsHistory h e
  have whole : e = ({} : Env).run h := by
    show (ofEnviron entries).run ops = _
    rw [ofEnviron_eq_run, ← run_append]
  have named : ∀ u ∈ h, '=' ∉ u.key.toList := by
    intro u member
    rcases List.mem_append.mp member with seeded | updated
    · obtain ⟨x, -, rfl⟩ := List.mem_map.mp seeded
      exact splitPair_fst_plain x
    · exact plain u updated
  have plain_e : e.Plain := whole ▸ Plain.empty.run named
  have all_shown : e.shown false = e.lookup := funext fun _ => by simp [shown]
  have environ_shown : e.shown true = fun name => if e.isExported name then e.lookup name else none :=
    funext fun name => by
      unfold shown
      cases e.isExported name <;> rfl
  refine ⟨fun name => ?_, fun name pre u post split assigns latest => ?_, fun name => ?_,
    all_shown ▸ entries_listing plain_e false, environ_shown ▸ entries_listing plain_e true,
    fun name => ?_⟩
  · rw [whole, defined_run_iff]
    simp [lookup]
  · rw [whole]
    exact lookup_run_latest {} split assigns latest
  · rw [whole, exported_run_iff]
    simp [isExported]
  · have seeded := ofEnviron_listing (entries_listing plain_e true)
      (fun _ _ shows => plain_of_shown plain_e shows) name
    rw [environ_shown] at seeded
    refine ⟨seeded.1, seeded.2.trans ?_⟩
    cases exported : e.isExported name
    · simp [exported]
    · simp [exported, defined_of_exported exported]

/-- A store seeded with `HOME` and a `PATH` holding `=`, then given `X`, which is exported, while
`HOME` is removed and `Y` is exported before it is defined. -/
theorem seeded_store_follows_history :
    (∀ u ∈ [Update.set "X" "1", .markExported "X", .unset "HOME", .markExported "Y"],
      '=' ∉ u.key.toList) ∧
    FollowsHistory (["HOME=/h", "PATH=/bin:a=b"].map Update.seed ++
        [Update.set "X" "1", .markExported "X", .unset "HOME", .markExported "Y"])
      ((ofEnviron ["HOME=/h", "PATH=/bin:a=b"]).run
        [Update.set "X" "1", .markExported "X", .unset "HOME", .markExported "Y"]) :=
  ⟨by decide, store_follows_history _ _ (by decide)⟩

end Env

end JobShell
