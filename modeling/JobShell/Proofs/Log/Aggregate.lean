import JobShell.Proofs.Log.Tally
import Mathlib.Data.Finset.Card

/-!
# The report is an exact count that forgets the order of the log

The report of a list of entries (`report`) loses nothing and depends on nothing but the
entries taken as a multiset:

* every entry counts once, under the event it names or as an unknown event
  (`Tally.byEvent_ofEntries`), so the entries are the five event counts plus the unknown
  ones, and each count per key sums to its event's count (`Counts.sum_eq_card`);
* the sessions are the distinct non-empty session ids (`report_sessions`);
* a count per key is written as a mapping that holds each key once with its count, keys in
  text order (`KeyCounts`), and a count per pair as a list that holds each pair once with
  its count, larger counts first and then by the pair's JSON text (`PathCounter`). The
  JSON text of a pair tells pairs apart (`pairKey_inj`), so both forms are fixed by the
  multiset of what was counted (`KeyCounts.unique`, `PathCounter.unique`);
* hence entries in another order give the same JSON, and the same YAML
  (`report_toJson_perm`).

The invariant behind the written forms is `Report.Counted`: no key of a counter stands at
zero, and each pair counter keeps its columns. Main statement: `report_aggregates`.
-/
namespace JobShell.Log

open JobShell.Num

/-! ## Every entry counts once -/

/-- What a tally counts by event: the five events the report knows and the unknown ones. -/
def Tally.byEvent (t : Tally) : Nat :=
  t.started + t.stopped + t.resumed + t.done + t.execFailures + Multiset.card t.unknown

theorem Tally.byEvent_add (a b : Tally) : (a + b).byEvent = a.byEvent + b.byEvent := by
  simp only [Tally.byEvent, Tally.add_def, Multiset.card_add]
  omega

/-- The event names differ, so an entry counts under exactly one of them or as unknown. -/
theorem Tally.byEvent_singleton (e : Entry) : (Tally.ofEntries [e]).byEvent = 1 := by
  simp only [Tally.byEvent, Tally.ofEntries, List.countP_singleton, List.filter_singleton]
  by_cases known : Entry.event e ∈ knownEvents
  · simp only [knownEvents, List.mem_cons, List.not_mem_nil, or_false] at known
    rcases known with named | named | named | named | named <;>
      simp [named, knownEvents, jobStarted, jobStopped, jobResumed, jobDone, execFailed]
  · simp only [knownEvents, List.mem_cons, List.not_mem_nil, or_false, not_or] at known
    simp [knownEvents, known]

theorem Tally.byEvent_ofEntries (es : List Entry) : (Tally.ofEntries es).byEvent = es.length := by
  induction es with
  | nil => rfl
  | cons e es ih =>
    rw [← List.singleton_append, Tally.ofEntries_append, Tally.byEvent_add,
      Tally.byEvent_singleton, ih, List.length_append, List.length_singleton]

/-- The counts of a count per key add up to the size of the multiset it stands for. -/
theorem Counts.sum_eq_card {α : Type} (cs : Counts α) :
    (cs.map (·.2)).sum = Multiset.card (Counts.toMultiset cs) := by
  induction cs with
  | nil => rfl
  | cons p rest ih => simp [ih]

/-- Each count per key counts as many keys as its event has entries. -/
theorem Tally.card_ofEntries (es : List Entry) :
    let t := Tally.ofEntries es
    Multiset.card t.commandNames = t.started ∧ Multiset.card t.stoppedCommands = t.stopped ∧
      Multiset.card t.exitStatuses = t.done ∧ Multiset.card t.execErrors = t.execFailures := by
  simp [Tally.ofEntries, List.countP_eq_length_filter]

theorem Tally.ofEntries_perm {es es' : List Entry} (perm : es'.Perm es) :
    Tally.ofEntries es' = Tally.ofEntries es := by
  simp only [Tally.ofEntries, Tally.mk.injEq]
  refine ⟨perm.length_eq, perm.countP_eq _, perm.countP_eq _, perm.countP_eq _, perm.countP_eq _,
    ?_, ?_, ?_, perm.countP_eq _, ?_, ?_⟩ <;>
  exact Multiset.coe_eq_coe.mpr ((perm.filter _).map _)

/-! ## Sessions -/

theorem Report.sessions_update (r : Report) (e : Entry) :
    (r.update e).sessions =
      if (Entry.session e).isEmpty || r.sessions.contains (Entry.session e) then r.sessions
      else r.sessions ++ [Entry.session e] := by
  unfold Report.update Entry.session
  dsimp only
  split_ifs <;> rfl

/-- The sessions of a report are the non-empty session ids of its entries, each once. -/
theorem report_sessions (es : List Entry) :
    (report es).sessions.Nodup ∧
      ∀ s, s ∈ (report es).sessions ↔ s ≠ "" ∧ s ∈ es.map Entry.session := by
  induction es using List.reverseRecOn with
  | nil => simp [report]
  | append_singleton es e ih =>
    obtain ⟨nodup, named⟩ := ih
    rw [report, List.foldl_append, List.foldl_cons, List.foldl_nil, ← report,
      Report.sessions_update]
    split_ifs with seen
    · -- the id is empty or already kept
      refine ⟨nodup, fun s => ?_⟩
      simp only [Bool.or_eq_true, String.isEmpty_iff, List.contains_iff_mem] at seen
      rw [named, List.map_append, List.mem_append]
      constructor
      · rintro ⟨nonempty, old⟩
        exact ⟨nonempty, .inl old⟩
      · rintro ⟨nonempty, old | new⟩
        · exact ⟨nonempty, old⟩
        · simp only [List.map_cons, List.map_nil, List.mem_singleton] at new
          subst new
          exact (named _).mp (seen.resolve_left nonempty)
    · -- a new non-empty id is added at the end
      simp only [Bool.or_eq_true, String.isEmpty_iff, List.contains_iff_mem, not_or] at seen
      refine ⟨List.nodup_append.mpr ⟨nodup, List.nodup_singleton _, ?_⟩, fun s => ?_⟩
      · intro a old b new
        simp only [List.mem_singleton] at new
        exact fun same => seen.2 (new ▸ same ▸ old)
      · rw [List.mem_append, named, List.map_append, List.mem_append, List.mem_singleton]
        simp only [List.map_cons, List.map_nil, List.mem_singleton]
        constructor
        · rintro (⟨nonempty, old⟩ | rfl)
          · exact ⟨nonempty, .inl old⟩
          · exact ⟨seen.1, .inr rfl⟩
        · rintro ⟨nonempty, old | rfl⟩
          · exact .inl ⟨nonempty, old⟩
          · exact .inr rfl

theorem report_sessions_length (es : List Entry) :
    (report es).sessions.length = ((es.map Entry.session).filter (· ≠ "")).toFinset.card := by
  obtain ⟨nodup, named⟩ := report_sessions es
  rw [← List.toFinset_card_of_nodup nodup]
  congr 1
  ext s
  simp [named, and_comm]

/-! ## What the counters keep -/

/-- No key of a count stands at zero. -/
def Counts.Positive {α : Type} (cs : Counts α) : Prop := ∀ p ∈ cs, 0 < p.2

theorem Counts.Positive.bump {α : Type} [BEq α] {cs : Counts α} (positive : cs.Positive)
    (k : α) : (JobShell.Log.bump cs k).Positive := by
  unfold JobShell.Log.bump
  split
  · intro p member
    obtain ⟨⟨x, n⟩, old, rfl⟩ := List.mem_map.mp member
    have counted := positive _ old
    dsimp only at counted ⊢
    split <;> simp only <;> omega
  · intro p member
    rcases List.mem_append.mp member with old | new
    · exact positive p old
    · simp only [List.mem_singleton] at new
      simp [new]

/-- The columns a pair counter was made with survive a count. -/
theorem columns_bump {o : Option PairCounts} {columns : String × String}
    (kept : ∀ p ∈ o, p.columns = columns) (a b : String) :
    ∀ p ∈ some ((o.getD { columns }).bump a b), p.columns = columns := by
  intro p member
  simp only [Option.mem_def, Option.some.injEq] at member
  subst member
  cases o with
  | none => rfl
  | some q => exact kept q rfl

/-- What the report keeps of its counters besides distinct keys: no key stands at zero, and
each pair counter keeps the columns it was made with. -/
structure Report.Counted (r : Report) : Prop where
  commandNames : Counts.Positive r.commandNames
  stoppedCommands : Counts.Positive r.stoppedCommands
  exitStatuses : Counts.Positive (pairCounts r.exitStatuses)
  execErrors : Counts.Positive (pairCounts r.execErrors)
  unknown : Counts.Positive r.unknown
  exitColumns : ∀ p ∈ r.exitStatuses, p.columns = ("command", "exit_status")
  errorColumns : ∀ p ∈ r.execErrors, p.columns = ("command", "error")

theorem Report.Counted.update {r : Report} (counted : r.Counted) (e : Entry) :
    (r.update e).Counted := by
  obtain ⟨names, stopped, exits, errors, unknown, exitColumns, errorColumns⟩ := counted
  unfold Report.update
  dsimp only
  -- each event moves one counter, which stays positive, and keeps the columns
  split_ifs <;> constructor <;> simp only [pairCounts_bump] <;>
    first
    | assumption
    | exact Counts.Positive.bump ‹_› _
    | exact columns_bump ‹_› _ _

theorem report_counted (es : List Entry) : (report es).Counted := by
  suffices ∀ r : Report, r.Counted → (es.foldl Report.update r).Counted from
    this {} ⟨nofun, nofun, nofun, nofun, nofun, nofun, nofun⟩
  induction es with
  | nil => exact fun _ counted => counted
  | cons e es ih => exact fun r counted => ih _ (counted.update e)

/-! ## Lists of counts -/

/-- A list of keys with counts holds each key of a multiset once, with its count there. -/
def Tallied {κ : Type} [DecidableEq κ] (M : Multiset κ) (L : List (κ × Nat)) : Prop :=
  ∀ k n, (k, n) ∈ L ↔ 0 < n ∧ M.count k = n

section Tallied

variable {κ : Type} [DecidableEq κ]

theorem Counts.count_eq_zero {cs : Counts κ} {k : κ} (absent : k ∉ cs.map (·.1)) :
    (Counts.toMultiset cs).count k = 0 := by
  induction cs with
  | nil => rfl
  | cons p rest ih =>
    simp only [List.map_cons, List.mem_cons, not_or] at absent
    simp [Multiset.count_replicate, Ne.symm absent.1, ih absent.2]

/-- A count per key with distinct keys and no zero holds exactly the counts of its multiset. -/
theorem Counts.tallied {cs : Counts κ} (distinct : cs.Distinct) (positive : cs.Positive) :
    Tallied (Counts.toMultiset cs) cs := by
  induction cs with
  | nil =>
    intro k n
    simp only [List.not_mem_nil, false_iff, Counts.toMultiset_nil, Multiset.count_zero, not_and]
    omega
  | cons p rest ih =>
    obtain ⟨k', n'⟩ := p
    simp only [Counts.Distinct, List.map_cons, List.nodup_cons] at distinct
    have first : 0 < n' := positive _ List.mem_cons_self
    have later := ih distinct.2 fun q member => positive q (List.mem_cons_of_mem _ member)
    intro k n
    rw [List.mem_cons, Counts.toMultiset_cons, Multiset.count_add, Multiset.count_replicate]
    by_cases same : k = k'
    · -- the key is not among the rest, so it is counted only here
      subst same
      have elsewhere : (k, n) ∉ rest := fun member => distinct.1 (List.mem_map_of_mem member)
      simp only [Prod.mk.injEq, true_and, if_true, Counts.count_eq_zero distinct.1, Nat.add_zero]
      constructor
      · rintro (rfl | member)
        · exact ⟨first, rfl⟩
        · exact absurd member elsewhere
      · rintro ⟨-, rfl⟩
        exact .inl rfl
    · simp only [Prod.mk.injEq, same, false_and, false_or, Ne.symm same, if_false,
        Nat.zero_add]
      exact later k n

theorem Tallied.perm {M : Multiset κ} {L L' : List (κ × Nat)} (tallied : Tallied M L)
    (perm : L'.Perm L) : Tallied M L' :=
  fun k n => perm.mem_iff.trans (tallied k n)

/-- Two lists that hold the same counts, each sorted by a relation that never holds both
ways, are the same list. -/
theorem Tallied.unique {M : Multiset κ} {L L' : List (κ × Nat)} {R : κ × Nat → κ × Nat → Prop}
    (asymm : ∀ x y, R x y → ¬ R y x) (tallied : Tallied M L) (tallied' : Tallied M L')
    (sorted : L.Pairwise R) (sorted' : L'.Pairwise R) : L = L' := by
  have nodup : ∀ {L : List (κ × Nat)}, L.Pairwise R → L.Nodup := fun sorted =>
    sorted.imp fun {x _} before same => by
      subst same
      exact asymm x x before before
  have same : L.Perm L' := by
    refine (List.perm_ext_iff_of_nodup (nodup sorted) (nodup sorted')).mpr fun x => ?_
    rw [tallied x.1 x.2, tallied' x.1 x.2]
  exact same.eq_of_pairwise (fun a b _ _ ab ba => absurd ba (asymm a b ab)) sorted sorted'

omit [DecidableEq κ] in
/-- A list sorted by a total order whose keys differ is sorted strictly. -/
theorem pairwise_strict_of_keys {le : κ × Nat → κ × Nat → Bool} {R : κ × Nat → κ × Nat → Prop}
    {L : List (κ × Nat)} (sorted : L.Pairwise fun x y => le x y) (keys : (L.map (·.1)).Nodup)
    (strict : ∀ x y, le x y → x.1 ≠ y.1 → R x y) : L.Pairwise R :=
  (sorted.and (List.pairwise_map.mp keys)).imp fun ⟨before, apart⟩ => strict _ _ before apart

omit [DecidableEq κ] in
theorem Counts.Distinct.mergeSort {cs : Counts κ} (distinct : cs.Distinct)
    (le : κ × Nat → κ × Nat → Bool) : ((cs.mergeSort le).map (·.1)).Nodup :=
  ((List.mergeSort_perm cs le).map _).nodup_iff.mpr distinct

end Tallied

/-! ## A count per key, written -/

/-- A count per key as the report writes it: one member per key of `M` with its count, keys
in text order; null when nothing was counted. -/
def KeyCounts (M : Multiset String) (j : JsonValue) : Prop :=
  ∃ L : List (String × Nat), Tallied M L ∧ L.Pairwise (fun x y => x.1 < y.1) ∧
    j = if L.isEmpty then .null else .object (L.map fun x => (x.1, .number (toString x.2)))

theorem countsJson_keyCounts {cs : Counts String} (distinct : cs.Distinct)
    (positive : cs.Positive) : KeyCounts (Counts.toMultiset cs) (countsJson cs) := by
  have sorted : (cs.mergeSort fun a b => decide (a.1 ≤ b.1)).Pairwise
      fun a b => decide (a.1 ≤ b.1) := List.pairwise_mergeSort
    (fun _ _ _ ab bc => by
      simp only [decide_eq_true_eq] at ab bc ⊢
      exact String.le_trans ab bc)
    (fun a b => by
      simp only [Bool.or_eq_true, decide_eq_true_eq]
      exact String.le_total a.1 b.1) cs
  refine ⟨_, (Counts.tallied distinct positive).perm (List.mergeSort_perm _ _),
    pairwise_strict_of_keys sorted (distinct.mergeSort _) fun x y before apart => ?_, ?_⟩
  · simp only [decide_eq_true_eq] at before
    exact String.not_le.mp fun after => apart (String.le_antisymm before after)
  · rw [(List.mergeSort_perm cs _).isEmpty_eq]
    rfl

theorem KeyCounts.unique {M : Multiset String} {j j' : JsonValue} (written : KeyCounts M j)
    (written' : KeyCounts M j') : j = j' := by
  obtain ⟨L, tallied, sorted, rfl⟩ := written
  obtain ⟨L', tallied', sorted', rfl⟩ := written'
  rw [Tallied.unique (fun x y before after => String.lt_asymm before after) tallied tallied'
    sorted sorted']

/-! ## A count per pair, written -/

/-- The JSON text of a pair tells pairs apart: the string reader takes each quoted text
back. -/
theorem pairKey_inj {a b c d : String} (same : pairKey a b = pairKey c d) : a = c ∧ b = d := by
  have text : ∀ x y : String, (pairKey x y).toList =
      '[' :: '"' :: (x.toList.flatMap (fun ch => (JsonText.escapeChar true ch).toList) ++
        '"' :: ',' :: '"' :: (y.toList.flatMap (fun ch => (JsonText.escapeChar true ch).toList) ++
        '"' :: [']'])) := by
    intro x y
    simp [pairKey, JsonText.toList_quote]
  have chars := congrArg String.toList same
  rw [text, text] at chars
  simp only [List.cons.injEq, true_and] at chars
  have first := congrArg (JsonRead.stringBody []) chars
  rw [JsonRead.stringBody_quoted, JsonRead.stringBody_quoted] at first
  simp only [Except.ok.injEq, Prod.mk.injEq, List.reverse_nil, List.nil_append,
    String.ofList_toList, List.cons.injEq, true_and] at first
  obtain ⟨ac, rest⟩ := first
  have second := congrArg (JsonRead.stringBody []) rest
  rw [JsonRead.stringBody_quoted, JsonRead.stringBody_quoted] at second
  simp only [Except.ok.injEq, Prod.mk.injEq, List.reverse_nil, List.nil_append,
    String.ofList_toList] at second
  exact ⟨ac, second.1⟩

/-- The comparison a pair counter's list is sorted with. -/
def pairOrder (x y : (String × String) × Nat) : Bool :=
  x.2 > y.2 || (x.2 == y.2 && decide (pairKey x.1.1 x.1.2 ≤ pairKey y.1.1 y.1.2))

theorem pairOrder_trans (x y z : (String × String) × Nat) (xy : pairOrder x y)
    (yz : pairOrder y z) : pairOrder x z := by
  simp only [pairOrder, gt_iff_lt, Bool.or_eq_true, decide_eq_true_eq, Bool.and_eq_true,
    beq_iff_eq] at xy yz ⊢
  rcases xy with more | ⟨same, keyed⟩ <;> rcases yz with more' | ⟨same', keyed'⟩
  · exact .inl (Nat.lt_trans more' more)
  · exact .inl (same' ▸ more)
  · exact .inl (same ▸ more')
  · exact .inr ⟨same.trans same', String.le_trans keyed keyed'⟩

theorem pairOrder_total (x y : (String × String) × Nat) : pairOrder x y || pairOrder y x := by
  simp only [pairOrder, gt_iff_lt, Bool.or_eq_true, decide_eq_true_eq, Bool.and_eq_true,
    beq_iff_eq]
  rcases Nat.lt_trichotomy x.2 y.2 with less | same | more
  · exact .inr (.inl less)
  · rcases String.le_total (pairKey x.1.1 x.1.2) (pairKey y.1.1 y.1.2) with keyed | keyed
    · exact .inl (.inr ⟨same, keyed⟩)
    · exact .inr (.inr ⟨same.symm, keyed⟩)
  · exact .inl (.inl more)

/-- The order of a pair counter's list: larger counts first, then the pairs' JSON text. -/
def PairsBefore (x y : (String × String) × Nat) : Prop :=
  y.2 < x.2 ∨ (x.2 = y.2 ∧ pairKey x.1.1 x.1.2 < pairKey y.1.1 y.1.2)

/-- The item a pair counter writes for a pair and its count. -/
def pathItem (columns : String × String) (x : (String × String) × Nat) : JsonValue :=
  .object [("count", .number (toString x.2)),
    ("event", .object [(columns.1, .string x.1.1), (columns.2, .string x.1.2)])]

/-- A count per pair as the report writes it: one item per pair of `M` with its count,
larger counts first and then by the pairs' JSON text; null when nothing was counted. -/
def PathCounter (columns : String × String) (M : Multiset (String × String)) (j : JsonValue) :
    Prop :=
  ∃ L : List ((String × String) × Nat), Tallied M L ∧ L.Pairwise PairsBefore ∧
    j = if L.isEmpty then .null else .array (L.map (pathItem columns))

theorem pairCountsJson_eq {o : Option PairCounts} {columns : String × String}
    (kept : ∀ p ∈ o, p.columns = columns) :
    pairCountsJson o = if (pairCounts o).isEmpty then .null
      else .array (((pairCounts o).mergeSort pairOrder).map (pathItem columns)) := by
  cases o with
  | none => rfl
  | some p =>
    rw [← kept p rfl]
    rfl

theorem pairCountsJson_pathCounter {o : Option PairCounts} {columns : String × String}
    (kept : ∀ p ∈ o, p.columns = columns) (distinct : (pairCounts o).Distinct)
    (positive : (pairCounts o).Positive) :
    PathCounter columns (Counts.toMultiset (pairCounts o)) (pairCountsJson o) := by
  have sorted := List.pairwise_mergeSort pairOrder_trans pairOrder_total (pairCounts o)
  refine ⟨(pairCounts o).mergeSort pairOrder,
    (Counts.tallied distinct positive).perm (List.mergeSort_perm _ _),
    pairwise_strict_of_keys sorted (distinct.mergeSort pairOrder) fun x y before apart => ?_, ?_⟩
  · -- equal counts are ordered by the pairs' texts, which differ for different pairs
    simp only [pairOrder, gt_iff_lt, Bool.or_eq_true, decide_eq_true_eq, Bool.and_eq_true,
      beq_iff_eq] at before
    rcases before with more | ⟨same, keyed⟩
    · exact .inl more
    · refine .inr ⟨same, String.not_le.mp fun after => apart ?_⟩
      obtain ⟨first, second⟩ := pairKey_inj (String.le_antisymm keyed after)
      exact Prod.ext first second
  · rw [pairCountsJson_eq kept, (List.mergeSort_perm _ _).isEmpty_eq]

theorem PathCounter.unique {columns : String × String} {M : Multiset (String × String)}
    {j j' : JsonValue} (written : PathCounter columns M j) (written' : PathCounter columns M j') :
    j = j' := by
  obtain ⟨L, tallied, sorted, rfl⟩ := written
  obtain ⟨L', tallied', sorted', rfl⟩ := written'
  have asymm : ∀ x y, PairsBefore x y → ¬ PairsBefore y x := by
    rintro x y (more | ⟨same, keyed⟩) (more' | ⟨same', keyed'⟩)
    · omega
    · omega
    · omega
    · exact String.lt_asymm keyed keyed'
  rw [Tallied.unique asymm tallied tallied' sorted sorted']

/-! ## The report's text -/

/-- What the report writes of its counters is fixed by the direct count over the entries. -/
theorem report_counters_written (es : List Entry) :
    let r := report es
    let t := Tally.ofEntries es
    KeyCounts t.unknown (countsJson r.unknown) ∧
    KeyCounts t.commandNames (countsJson r.commandNames) ∧
    KeyCounts t.stoppedCommands (countsJson r.stoppedCommands) ∧
    PathCounter ("command", "exit_status") t.exitStatuses (pairCountsJson r.exitStatuses) ∧
    PathCounter ("command", "error") t.execErrors (pairCountsJson r.execErrors) := by
  intro r t
  have tally : r.tally = t := report_tally es
  have distinct : r.Distinct := Report.distinct_empty.foldl es
  have counted : r.Counted := report_counted es
  refine ⟨?_, ?_, ?_, ?_, ?_⟩
  · rw [← tally]
    exact countsJson_keyCounts distinct.unknown counted.unknown
  · rw [← tally]
    exact countsJson_keyCounts distinct.commandNames counted.commandNames
  · rw [← tally]
    exact countsJson_keyCounts distinct.stoppedCommands counted.stoppedCommands
  · rw [← tally]
    exact pairCountsJson_pathCounter counted.exitColumns distinct.exitStatuses counted.exitStatuses
  · rw [← tally]
    exact pairCountsJson_pathCounter counted.errorColumns distinct.execErrors counted.execErrors

/-- Entries in another order give the same report JSON. -/
theorem report_toJson_perm {es es' : List Entry} (perm : es'.Perm es) :
    (report es').toJson = (report es).toJson := by
  have tally : (report es').tally = (report es).tally := by
    rw [report_tally, report_tally, Tally.ofEntries_perm perm]
  have sessions : (report es').sessions.length = (report es).sessions.length := by
    rw [report_sessions_length, report_sessions_length,
      List.toFinset_eq_of_perm _ _ ((perm.map _).filter _)]
  obtain ⟨unknown, names, stopped, exits, errors⟩ := report_counters_written es
  obtain ⟨unknown', names', stopped', exits', errors'⟩ := report_counters_written es'
  rw [Tally.ofEntries_perm perm] at unknown' names' stopped' exits' errors'
  simp only [Report.tally, Tally.mk.injEq] at tally
  obtain ⟨entries, started, stoppedCount, resumed, done, -, -, -, failures, -, -⟩ := tally
  simp only [Report.toJson, sessions, entries, started, stoppedCount, resumed, done, failures,
    unknown'.unique unknown, names'.unique names, stopped'.unique stopped, exits'.unique exits,
    errors'.unique errors]

/-- The report of a log counts each entry once, by its event; it names each non-empty
session once; it writes each count per key as a mapping with each key once, keys in text
order, and each count per pair as a list with each pair once, larger counts first and then by
the pair's JSON text; and its YAML is the same for the entries in any order. -/
theorem report_aggregates (es : List Entry) :
    let r := report es
    let t := Tally.ofEntries es
    r.tally = t ∧
    r.entries = es.length ∧
    r.entries = r.started + r.stopped + r.resumed + r.done + r.execFailures +
      (r.unknown.map (·.2)).sum ∧
    (r.commandNames.map (·.2)).sum = r.started ∧
    (r.stoppedCommands.map (·.2)).sum = r.stopped ∧
    ((pairCounts r.exitStatuses).map (·.2)).sum = r.done ∧
    ((pairCounts r.execErrors).map (·.2)).sum = r.execFailures ∧
    r.sessions.length = ((es.map Entry.session).filter (· ≠ "")).toFinset.card ∧
    KeyCounts t.unknown (countsJson r.unknown) ∧
    KeyCounts t.commandNames (countsJson r.commandNames) ∧
    KeyCounts t.stoppedCommands (countsJson r.stoppedCommands) ∧
    PathCounter ("command", "exit_status") t.exitStatuses (pairCountsJson r.exitStatuses) ∧
    PathCounter ("command", "error") t.execErrors (pairCountsJson r.execErrors) ∧
    ∀ es' : List Entry, es'.Perm es → (report es').toYaml = r.toYaml := by
  intro r t
  have tally : r.tally = t := report_tally es
  have entries : r.entries = es.length := congrArg Tally.entries tally
  have byEvent := Tally.byEvent_ofEntries es
  obtain ⟨names, stopped, exits, errors⟩ := Tally.card_ofEntries es
  rw [← report_tally es] at byEvent names stopped exits errors
  -- a count per key sums to the size of the multiset it stands for
  have sums : ∀ {α : Type} (cs : Counts α) (n : Nat),
      Multiset.card (Counts.toMultiset cs) = n → (cs.map (·.2)).sum = n :=
    fun cs _ card => (Counts.sum_eq_card cs).trans card
  obtain ⟨unknownWritten, namesWritten, stoppedWritten, exitsWritten, errorsWritten⟩ :=
    report_counters_written es
  refine ⟨tally, entries, ?_, sums _ _ names, sums _ _ stopped, sums _ _ exits, sums _ _ errors,
    report_sessions_length es, unknownWritten, namesWritten, stoppedWritten, exitsWritten,
    errorsWritten, fun es' perm => congrArg Yaml.write (report_toJson_perm perm)⟩
  rw [Counts.sum_eq_card, entries, ← byEvent]
  rfl

end JobShell.Log
