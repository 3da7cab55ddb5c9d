import Rclmine.Parameter.Defs
import Rclmine.ToMathlib.Mealy

/-!
# The storage and its history

What the parameter storage is for, stated over the history of the calls made on it and without
its map, and the proof that `MyParameter` does it.

The module introduces:

* `MyParameter.machine T`: the public methods of `MyParameter` as a Mealy machine;
* `Answers T h c r`: after the history `h`, the call `c` is to be answered `r`;
* `Tracks T h p`: the storage `p` holds what `h` prescribes. Every call preserves it
  (`Tracks.step`), so every run from the empty storage has it (`tracks_run`);
* `storage_refines_history`: the storage gives the one answer the history determines, and rejected
  calls leave no trace.
-/

namespace Rclmine

open MyParameter

/-- A call of a public method of `MyParameter`. -/
inductive Call
  | declareParameter (name : String) (value : ParameterValue)
  | setParameter (name : String) (value : ParameterValue)
  | getParameter (name : String)
  | hasParameter (name : String)
  | getParameterNames
  deriving DecidableEq

/-- The result of a call: a flag, a value or exception, or a list of names. -/
inductive Answer
  | flag (b : Bool)
  | value (r : Except String ParameterValue)
  | names (l : List String)

/-- The storage as a machine that answers calls. -/
def MyParameter.machine (T : ParameterType) : Mealy MyParameter Call Answer where
  step p
    | .declareParameter n v => (.flag (p.declareParameter n v).1, (p.declareParameter n v).2)
    | .setParameter n v => (.flag (p.setParameter T n v).1, (p.setParameter T n v).2)
    | .getParameter n => (.value (p.getParameter n), p)
    | .hasParameter n => (.flag (p.hasParameter n), p)
    | .getParameterNames => (.names p.getParameterNames, p)

/-- The calls made so far with their results. -/
abbrev History := List (Call × Answer)

namespace History

/-- The name and value of a declaration. -/
def declaration : Call × Answer → Option (String × ParameterValue)
  | (.declareParameter n v, _) => some (n, v)
  | _ => none

/-- The name and value of a declaration or an update that returned true. -/
def accepted : Call × Answer → Option (String × ParameterValue)
  | (.declareParameter n v, .flag true) => some (n, v)
  | (.setParameter n v, .flag true) => some (n, v)
  | _ => none

/-- A declaration of `n` was made. -/
def Declared (h : History) (n : String) : Prop :=
  ∃ v r, (Call.declareParameter n v, r) ∈ h

/-- The value of the first declaration of `n`. -/
def firstDeclared (h : History) (n : String) : Option ParameterValue :=
  (h.filterMap declaration).lookup n

/-- The value of the most recent declaration or update of `n` that returned true. -/
def lastAccepted (h : History) (n : String) : Option ParameterValue :=
  (h.filterMap accepted).reverse.lookup n

/-- The call returned false or threw. -/
def Rejected (e : Call × Answer) : Prop :=
  e.2 = .flag false ∨ ∃ what, e.2 = .value (.error what)

/-- After the history `h`, the call is to be answered `r`. -/
def Answers (T : ParameterType) (h : History) : Call → Answer → Prop
  | .declareParameter n _, r => ∃ b, r = .flag b ∧ (b = true ↔ ¬ h.Declared n)
  | .setParameter n v, r =>
      ∃ b, r = .flag b ∧
        (b = true ↔ h.Declared n ∧
          ∃ w, h.firstDeclared n = some w ∧ getParameterType T v = getParameterType T w)
  | .getParameter n, r =>
      (¬ h.Declared n ∧ r = .value (.error ("Parameter not declared: " ++ n))) ∨
        (h.Declared n ∧ ∃ v, h.lastAccepted n = some v ∧ r = .value (.ok v))
  | .hasParameter n, r => ∃ b, r = .flag b ∧ (b = true ↔ h.Declared n)
  | .getParameterNames, r =>
      ∃ l, r = .names l ∧ l.Pairwise (· < ·) ∧ ∀ n, n ∈ l ↔ h.Declared n

/-! ### Histories one call longer -/

variable {h : History} {n m : String} {v : ParameterValue} {e : Call × Answer}

theorem firstDeclared_snoc_of_none (he : declaration e = none) :
    History.firstDeclared (h ++ [e]) n = h.firstDeclared n := by
  simp [firstDeclared, he]

theorem firstDeclared_snoc_of_some (he : declaration e = some (m, v)) :
    History.firstDeclared (h ++ [e]) n =
      (h.firstDeclared n).or (if n = m then some v else none) := by
  by_cases hnm : n = m <;>
    simp [firstDeclared, he, List.lookup_append, List.lookup_cons, hnm, beq_eq_false_iff_ne.mpr]

theorem lastAccepted_snoc_of_none (he : accepted e = none) :
    History.lastAccepted (h ++ [e]) n = h.lastAccepted n := by
  simp [lastAccepted, he]

theorem lastAccepted_snoc_of_some (he : accepted e = some (m, v)) :
    History.lastAccepted (h ++ [e]) n = if m = n then some v else h.lastAccepted n := by
  by_cases hnm : m = n
  · simp [lastAccepted, he, hnm]
  · simp [lastAccepted, he, List.lookup_cons, hnm, beq_eq_false_iff_ne.mpr (Ne.symm hnm)]

theorem declared_iff_mem : h.Declared n ↔ ∃ v, (n, v) ∈ h.filterMap declaration := by
  constructor
  · rintro ⟨v, r, hmem⟩
    exact ⟨v, List.mem_filterMap.mpr ⟨_, hmem, rfl⟩⟩
  · rintro ⟨v, hmem⟩
    obtain ⟨⟨c, r⟩, hc, hd⟩ := List.mem_filterMap.mp hmem
    cases c <;> simp [declaration] at hd
    obtain ⟨rfl, rfl⟩ := hd
    exact ⟨_, r, hc⟩

theorem declared_snoc_of_none (he : declaration e = none) :
    History.Declared (h ++ [e]) n ↔ h.Declared n := by
  simp [declared_iff_mem, he]

theorem declared_snoc_of_some (he : declaration e = some (m, v)) :
    History.Declared (h ++ [e]) n ↔ h.Declared n ∨ n = m := by
  simp [declared_iff_mem, he, exists_or]

/-- A name has a first declaration exactly if it was declared. -/
theorem declared_iff_firstDeclared : h.Declared n ↔ ∃ v, h.firstDeclared n = some v := by
  rw [declared_iff_mem, ← Option.isSome_iff_exists, firstDeclared, List.lookup_isSome_iff]
  simp

/-! ### The storage tracks its history -/

/-- The storage `p` holds what the history `h` prescribes: the last accepted value of every
declared name, in the class of its first declaration. -/
structure Tracks (T : ParameterType) (h : History) (p : MyParameter) : Prop where
  find_eq : ∀ n, p.find n = h.lastAccepted n
  declared_iff : ∀ n, h.Declared n ↔ ∃ v, p.find n = some v
  class_eq : ∀ n v w, p.find n = some v → h.firstDeclared n = some w →
    getParameterType T v = getParameterType T w

variable {T : ParameterType} {p : MyParameter}

theorem tracks_nil (T : ParameterType) : Tracks T [] {} where
  find_eq := by simp [lastAccepted]
  declared_iff := by simp [Declared]
  class_eq := by simp

/-- A call that neither writes nor declares a new name keeps history and storage in step. -/
theorem Tracks.skip (ht : Tracks T h p) (hacc : accepted e = none)
    (hdecl : ∀ m v, declaration e = some (m, v) → ∃ w, p.find m = some w) :
    Tracks T (h ++ [e]) p := by
  refine ⟨fun n => ?_, fun n => ?_, fun n v w hv hw => ?_⟩
  · rw [lastAccepted_snoc_of_none hacc, ht.find_eq]
  · cases hd : declaration e with
    | none => rw [declared_snoc_of_none hd, ht.declared_iff]
    | some d =>
        obtain ⟨m, v⟩ := d
        rw [declared_snoc_of_some hd, ht.declared_iff, or_iff_left_of_imp]
        rintro rfl
        exact hdecl n v hd
  · -- a repeated declaration does not become the first one
    apply ht.class_eq n v w hv
    cases hd : declaration e with
    | none => rwa [firstDeclared_snoc_of_none hd] at hw
    | some d =>
        obtain ⟨m, u⟩ := d
        obtain ⟨w', hw'⟩ := declared_iff_firstDeclared.mp ((ht.declared_iff n).mpr ⟨v, hv⟩)
        rw [firstDeclared_snoc_of_some hd, hw', Option.some_or] at hw
        rw [hw', hw]

/-- A declaration of a new name keeps history and storage in step. -/
theorem Tracks.declare (ht : Tracks T h p) (hn : p.find n = none) (v : ParameterValue) :
    Tracks T (h ++ [(.declareParameter n v, .flag true)]) (p.assign n v) := by
  have hfirst : h.firstDeclared n = none := by
    have hnd : ¬ h.Declared n := by simp [ht.declared_iff, hn]
    rw [declared_iff_firstDeclared, ← Option.isSome_iff_exists] at hnd
    simpa using hnd
  refine ⟨fun m => ?_, fun m => ?_, fun m u w hu hw => ?_⟩
  · rw [find_assign, lastAccepted_snoc_of_some rfl, ht.find_eq]
  · -- the declaration adds exactly its own name
    rw [declared_snoc_of_some rfl, find_assign, ht.declared_iff]
    by_cases hnm : n = m
    · simp [hnm]
    · simp [hnm, Ne.symm hnm]
  · rw [firstDeclared_snoc_of_some rfl] at hw
    rw [find_assign] at hu
    by_cases hnm : n = m
    · subst hnm
      simp_all
    · simp only [hnm, Ne.symm hnm, ↓reduceIte, Option.or_none] at hu hw
      exact ht.class_eq m u w hu hw

/-- An accepted update keeps history and storage in step. -/
theorem Tracks.set (ht : Tracks T h p) {w : ParameterValue} (hn : p.find n = some w)
    (hclass : getParameterType T w = getParameterType T v) :
    Tracks T (h ++ [(.setParameter n v, .flag true)]) (p.assign n v) := by
  refine ⟨fun m => ?_, fun m => ?_, fun m u w' hu hw => ?_⟩
  · rw [find_assign, lastAccepted_snoc_of_some rfl, ht.find_eq]
  · rw [declared_snoc_of_none rfl, find_assign, ht.declared_iff]
    by_cases hnm : n = m
    · simp [← hnm, hn]
    · simp [hnm]
  · rw [firstDeclared_snoc_of_none rfl] at hw
    rw [find_assign] at hu
    by_cases hnm : n = m
    · -- the value replaced had the class of the first declaration, and so has the new one
      subst hnm
      simp only [↓reduceIte, Option.some.injEq] at hu
      rw [← hu, ← hclass]
      exact ht.class_eq n w w' hn hw
    · simp only [hnm, ↓reduceIte] at hu
      exact ht.class_eq m u w' hu hw

/-- Every call keeps history and storage in step. -/
theorem Tracks.step (ht : Tracks T h p) (c : Call) :
    Tracks T (h ++ [(c, ((machine T).step p c).1)]) ((machine T).step p c).2 := by
  cases c with
  | declareParameter n v =>
      rcases declareParameter_cases p n v with ⟨hn, hcall⟩ | ⟨⟨w, hw⟩, hcall⟩
      · simpa only [machine, hcall] using ht.declare hn v
      · simp only [machine, hcall]
        refine ht.skip rfl ?_
        rintro _ _ ⟨⟩
        exact ⟨w, hw⟩
  | setParameter n v =>
      rcases setParameter_cases T p n v with ⟨w, hw, hclass, hcall⟩ | ⟨-, hcall⟩
      · simpa only [machine, hcall] using ht.set hw hclass
      · simp only [machine, hcall]
        exact ht.skip rfl (by simp [declaration])
  | getParameter n => exact ht.skip rfl (by simp [declaration])
  | hasParameter n => exact ht.skip rfl (by simp [declaration])
  | getParameterNames => exact ht.skip rfl (by simp [declaration])

/-- The storage of every run from the empty one tracks the log of the run. -/
theorem tracks_run (T : ParameterType) (cs : List Call) :
    Tracks T ((machine T).log {} cs) ((machine T).run {} cs) :=
  (machine T).log_invariant (Tracks T) (tracks_nil T) (fun _ _ c ht => ht.step c) cs

/-! ### The storage answers what the history prescribes -/

/-- The history leaves one answer to each call. -/
theorem Answers.unique {c : Call} {r r' : Answer} (hr : Answers T h c r)
    (hr' : Answers T h c r') : r = r' := by
  have flags {b b' : Bool} {q : Prop} (hb : b = true ↔ q) (hb' : b' = true ↔ q) : b = b' :=
    Bool.eq_iff_iff.mpr (hb.trans hb'.symm)
  cases c with
  | declareParameter n v =>
      obtain ⟨b, rfl, hb⟩ := hr
      obtain ⟨b', rfl, hb'⟩ := hr'
      rw [flags hb hb']
  | setParameter n v =>
      obtain ⟨b, rfl, hb⟩ := hr
      obtain ⟨b', rfl, hb'⟩ := hr'
      rw [flags hb hb']
  | getParameter n =>
      rcases hr with ⟨hn, rfl⟩ | ⟨hn, v, hv, rfl⟩ <;>
        rcases hr' with ⟨hn', rfl⟩ | ⟨hn', v', hv', rfl⟩
      · rfl
      · exact absurd hn' hn
      · exact absurd hn hn'
      · rw [hv, Option.some.injEq] at hv'
        rw [hv']
  | hasParameter n =>
      obtain ⟨b, rfl, hb⟩ := hr
      obtain ⟨b', rfl, hb'⟩ := hr'
      rw [flags hb hb']
  | getParameterNames =>
      obtain ⟨l, rfl, hl, hmem⟩ := hr
      obtain ⟨l', rfl, hl', hmem'⟩ := hr'
      -- two strictly increasing lists with the same elements are equal
      have hperm : l.Perm l' :=
        (List.perm_ext_iff_of_nodup (hl.imp ne_of_lt) (hl'.imp ne_of_lt)).mpr fun n =>
          (hmem n).trans (hmem' n).symm
      rw [hperm.eq_of_pairwise (fun a b _ _ hab hba => absurd hab hba.asymm) hl hl']

/-- A storage that tracks the history answers as the history prescribes. -/
theorem Tracks.answers (ht : Tracks T h p) (c : Call) :
    Answers T h c ((machine T).step p c).1 := by
  cases c with
  | declareParameter n v =>
      refine ⟨_, rfl, ?_⟩
      rw [ht.declared_iff]
      rcases declareParameter_cases p n v with ⟨hn, hcall⟩ | ⟨hw, hcall⟩
      · simp [hcall, hn]
      · simpa [hcall] using hw
  | setParameter n v =>
      refine ⟨_, rfl, ?_⟩
      rw [ht.declared_iff]
      cases hn : p.find n with
      | none => simp [setParameter_of_find_none hn]
      | some u =>
          -- the check is against the current value `u`, the history speaks of the first one `w`
          obtain ⟨w, hw⟩ := declared_iff_firstDeclared.mp ((ht.declared_iff n).mpr ⟨u, hn⟩)
          have hclass := ht.class_eq n u w hn hw
          simp only [setParameter_of_find_some hn, hclass, hw, Option.some.injEq]
          split <;> simp_all [eq_comm]
  | getParameter n =>
      cases hn : p.find n with
      | none => exact Or.inl ⟨by simp [ht.declared_iff, hn], by simp [machine, getParameter, hn]⟩
      | some v =>
          refine Or.inr ⟨(ht.declared_iff n).mpr ⟨v, hn⟩, v, ?_, ?_⟩
          · rw [← ht.find_eq, hn]
          · simp [machine, getParameter, hn]
  | hasParameter n =>
      exact ⟨_, rfl, hasParameter_eq_true_iff.trans (ht.declared_iff n).symm⟩
  | getParameterNames =>
      exact ⟨_, rfl, sortedLT_getParameterNames p,
        fun n => mem_getParameterNames.trans (ht.declared_iff n).symm⟩

/-- A rejected call leaves the storage as it was. -/
theorem step_of_rejected (p : MyParameter) (c : Call)
    (hrej : Rejected (c, ((machine T).step p c).1)) : ((machine T).step p c).2 = p := by
  cases c with
  | declareParameter n v =>
      rcases declareParameter_cases p n v with ⟨-, hcall⟩ | ⟨-, hcall⟩ <;>
        simp_all [machine, Rejected]
  | setParameter n v =>
      rcases setParameter_cases T p n v with ⟨_, -, -, hcall⟩ | ⟨-, hcall⟩ <;>
        simp_all [machine, Rejected]
  | getParameter n => rfl
  | hasParameter n => rfl
  | getParameterNames => rfl

end History

open History

/-- The parameter storage refines its history specification: on every sequence of calls from the
empty storage each call gets the one answer its history determines, and deleting rejected calls
from the sequence leaves every other answer as it was. -/
theorem storage_refines_history (T : ParameterType) (cs : List Call) :
    (∀ before c after, cs = before ++ c :: after → ∀ r,
        Answers T ((machine T).log {} before) c r ↔
          r = ((machine T).step ((machine T).run {} before) c).1) ∧
      ∀ kept, Mealy.Prunes Rejected ((machine T).log {} cs) kept →
        (machine T).log {} (kept.map Prod.fst) = kept := by
  constructor
  · intro before c after _ r
    have hanswers := (tracks_run T before).answers c
    constructor
    · intro hr
      exact hr.unique hanswers
    · rintro rfl
      exact hanswers
  · intro kept hkept
    exact (machine T).log_of_prunes step_of_rejected hkept

end Rclmine
