import JobShell.Proofs.Env.History

/-!
# What word expansion reads

Expanding a word reads its scope in two ways only: the value of a name (`Scope.lookup`, the
one road to the assignments in front, the special parameters and the shell's variables) and
the names a prefix lists for `${!prefix*}` (`namesWithPrefix`, which reads the shell's
variables alone). Two scopes that agree on both expand every word alike (`expand_congr` for
the whole expander, `literalText_congr` for the text of one word).

A scope with assignments in front (`Scope.bind`) reads every name as the shell would with
those assignments made, as long as they assign variable names (`Scope.SeesStore.bind`);
but it lists the names of the shell without them.
-/
namespace JobShell.Script

/-- Two scopes that read alike: every name has the same value in both, and every prefix
lists the same names. -/
structure Scope.ReadsAlike (sc sc' : Scope) : Prop where
  lookup : ∀ name, sc.lookup name = sc'.lookup name
  names : ∀ pre, namesWithPrefix sc pre = namesWithPrefix sc' pre

section Congruence

variable {sc sc' : Scope}

theorem Scope.ReadsAlike.get (alike : sc.ReadsAlike sc') (name : String) :
    sc.get name = sc'.get name := by
  simp only [Scope.get, alike.lookup]

theorem expandTilde_congr (alike : sc.ReadsAlike sc') (s : String) :
    expandTilde sc s = expandTilde sc' s := by
  simp only [expandTilde, alike.lookup]

theorem followNames_congr (alike : sc.ReadsAlike sc') (s : String) :
    followNames sc s = followNames sc' s := by
  unfold followNames
  generalize 100 = fuel
  induction fuel generalizing s with
  | zero => rfl
  | succ fuel ih => simp only [followNames.go, alike.get, ih]

/-- Scopes that read alike expand alike, at every fuel: each function of the expander is the
same function of either scope. The induction is on the fuel, which every call spends, and
each case rewrites the calls one level down by the hypothesis for that level. -/
theorem expand_congr (alike : sc.ReadsAlike sc') (n : Nat) :
    paramValue n sc = paramValue n sc' ∧ arith n sc = arith n sc' ∧
    wordField n sc = wordField n sc' ∧ partField n sc = partField n sc' ∧
    literal n sc = literal n sc' ∧ patternText n sc = patternText n sc' := by
  induction n with
  | zero => exact ⟨rfl, rfl, rfl, rfl, rfl, rfl⟩
  | succ n ih =>
    obtain ⟨param, ar, word, part, lit, pat⟩ := ih
    refine ⟨funext fun p => ?_, funext fun e => ?_, funext fun dq => funext fun w => ?_,
      funext fun dq => funext fun first => funext fun p => ?_, funext fun w => ?_,
      funext fun w => ?_⟩
    · simp only [paramValue, alike.lookup, alike.names, alike.get, ar, lit, pat]
    · simp only [arith, ar, lit, followNames_congr alike]
    · simp only [wordField, part]
    · simp only [partField, expandTilde_congr alike, word, param, ar]
    · simp only [literal, word]
    · simp only [patternText, word]

theorem literalText_congr (alike : sc.ReadsAlike sc') (w : Word) :
    literalText sc w = literalText sc' w := by
  rw [literalText, literalText, (expand_congr alike expandFuel).2.2.2.2.1]

end Congruence

/-! ## Assignments in front -/

/-- The scope with one more assignment in front of the ones it has. -/
def Scope.bind (sc : Scope) (name value : String) : Scope :=
  { sc with overlay := (name, value) :: sc.overlay }

/-- `sc'` reads every name as the scope `sc` does with the store `e` for its variables and
no assignment in front, and lists the names `sc` lists. -/
structure Scope.SeesStore (sc' sc : Scope) (e : Env) : Prop where
  lookup : ∀ name, sc'.lookup name = { sc with vars := e, overlay := [] }.lookup name
  names : ∀ pre, namesWithPrefix sc' pre = namesWithPrefix sc pre

/-- A variable name is none of the special parameters. -/
theorem not_special_of_validName {name : String} (valid : validName name = true) :
    name ≠ "?" ∧ name ≠ "$" ∧ name ≠ "0" ∧ name ≠ "!" := by
  refine ⟨?_, ?_, ?_, ?_⟩ <;> (rintro rfl; revert valid; decide)

/-- With no assignment in front, a variable name is read from the store. -/
theorem Scope.lookup_plain {sc : Scope} {name : String} (valid : validName name = true) (e : Env) :
    { sc with vars := e, overlay := [] }.lookup name = e.lookup name := by
  obtain ⟨q, d, z, b⟩ := not_special_of_validName valid
  unfold Scope.lookup
  simp only [List.lookup_nil]

/-- With no assignment in front, setting a variable name changes what that name reads and
nothing else. -/
theorem Scope.lookup_set {sc : Scope} {name : String} (valid : validName name = true)
    (e : Env) (value x : String) :
    { sc with vars := e.set name value, overlay := [] }.lookup x =
      if x = name then some value else { sc with vars := e, overlay := [] }.lookup x := by
  by_cases same : x = name
  · subst same
    rw [if_pos rfl, Scope.lookup_plain valid, Env.set, Env.lookup_assign, if_pos rfl]
  · rw [if_neg same]
    unfold Scope.lookup
    simp only [List.lookup_nil]
    split <;> simp [Env.set, Ne.symm same]

theorem Scope.lookup_bind (sc : Scope) (name value x : String) :
    (sc.bind name value).lookup x = if x = name then some value else sc.lookup x := by
  unfold Scope.lookup Scope.bind
  by_cases same : x = name
  · simp [same]
  · have other : (x == name) = false := by simpa using same
    simp [List.lookup_cons, same, other]

variable {sc sc' : Scope} {e : Env}

theorem Scope.SeesStore.alike {sc₁ sc₂ : Scope} (first : sc₁.SeesStore sc e)
    (second : sc₂.SeesStore sc e) : sc₁.ReadsAlike sc₂ :=
  ⟨fun name => (first.lookup name).trans (second.lookup name).symm,
   fun pre => (first.names pre).trans (second.names pre).symm⟩

/-- The shell's own scope sees its variables. -/
theorem Scope.SeesStore.self (plain : sc.overlay = []) : sc.SeesStore sc sc.vars :=
  ⟨fun name => by rw [← plain], fun _ => rfl⟩

/-- One more assignment in front is one more variable set, for every name read; the names
listed stay those of the shell. -/
theorem Scope.SeesStore.bind (sees : sc'.SeesStore sc e) {name : String}
    (valid : validName name = true) (value : String) :
    (sc'.bind name value).SeesStore sc (e.set name value) := by
  refine ⟨fun x => ?_, fun pre => sees.names pre⟩
  rw [Scope.lookup_bind, Scope.lookup_set valid, sees.lookup]

end JobShell.Script
