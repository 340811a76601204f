import Mathlib.Algebra.Order.Ring.Int
import Mathlib.Data.List.Basic

/-!
# Runs of a partial step function

A system is a partial function from an action and a state to a state: `none`
says that the action is not enabled. A run is a list of actions, each enabled
in the state the ones before it left.

`Guarded` restricts a run by a condition on each step and the state it is
taken in, and `Always` says that a property holds in every state along the
way. The rule that links the two, `always_of_guarded`, is the only induction
over runs that the invariant proofs need.
-/

namespace MediaServer.Lib

variable {σ α : Type} {step : α → σ → Option σ}

/-- The state a list of actions leads to, if each of them is enabled in turn. -/
def run (step : α → σ → Option σ) : List α → σ → Option σ
  | [], s => some s
  | a :: as, s => (step a s).bind (run step as)

/-- Every enabled step of the run meets `ok` in the state before it. -/
def Guarded (step : α → σ → Option σ) (ok : σ → α → Prop) :
    List α → σ → Prop
  | [], _ => True
  | a :: as, s => ok s a ∧ ∀ s', step a s = some s' → Guarded step ok as s'

/-- `P` holds in every state the run passes through. -/
def Always (step : α → σ → Option σ) (P : σ → Prop) : List α → σ → Prop
  | [], s => P s
  | a :: as, s => P s ∧ ∀ s', step a s = some s' → Always step P as s'

/-- Every enabled step of the run stands in relation `R` to the states before
and after it. -/
def AlwaysStep (step : α → σ → Option σ) (R : σ → α → σ → Prop) :
    List α → σ → Prop
  | [], _ => True
  | a :: as, s => ∀ s', step a s = some s' → R s a s' ∧ AlwaysStep step R as s'

/-- A run is checked against a decidable condition by running it. -/
instance Guarded.decidable {ok : σ → α → Prop}
    [∀ s a, Decidable (ok s a)] :
    (as : List α) → (s : σ) → Decidable (Guarded step ok as s)
  | [], _ => .isTrue trivial
  | a :: as, s =>
      match hs : step a s with
      | none => decidable_of_iff (ok s a)
          ⟨fun h => ⟨h, fun t ht => by rw [hs] at ht; cases ht⟩, And.left⟩
      | some t =>
          have : Decidable (Guarded step ok as t) := Guarded.decidable as t
          decidable_of_iff (ok s a ∧ Guarded step ok as t)
            ⟨fun h => ⟨h.1, fun t' ht' => by
                rw [hs] at ht'; cases ht'; exact h.2⟩,
              fun h => ⟨h.1, h.2 t hs⟩⟩

instance Always.decidable {P : σ → Prop} [∀ s, Decidable (P s)] :
    (as : List α) → (s : σ) → Decidable (Always step P as s)
  | [], s => inferInstanceAs (Decidable (P s))
  | a :: as, s =>
      match hs : step a s with
      | none => decidable_of_iff (P s)
          ⟨fun h => ⟨h, fun t ht => by rw [hs] at ht; cases ht⟩, And.left⟩
      | some t =>
          have : Decidable (Always step P as t) := Always.decidable as t
          decidable_of_iff (P s ∧ Always step P as t)
            ⟨fun h => ⟨h.1, fun t' ht' => by
                rw [hs] at ht'; cases ht'; exact h.2⟩,
              fun h => ⟨h.1, h.2 t hs⟩⟩

theorem run_cons {a : α} {as : List α} {s s' : σ}
    (h : run step (a :: as) s = some s') :
    ∃ t, step a s = some t ∧ run step as t = some s' :=
  Option.bind_eq_some_iff.mp h

theorem run_append (as bs : List α) (s : σ) :
    run step (as ++ bs) s = (run step as s).bind (run step bs) := by
  induction as generalizing s with
  | nil => rfl
  | cons a as ih =>
      simp only [List.cons_append, run]
      cases step a s with
      | none => rfl
      | some t => exact ih t

theorem Guarded.append {ok : σ → α → Prop} {as bs : List α} {s : σ}
    (h : Guarded step ok (as ++ bs) s) {t : σ} (ht : run step as s = some t) :
    Guarded step ok bs t := by
  induction as generalizing s with
  | nil => cases ht; exact h
  | cons a as ih =>
      obtain ⟨u, hu, hrun⟩ := run_cons ht
      exact ih (h.2 u hu) hrun

theorem Guarded.left {ok : σ → α → Prop} {as bs : List α} {s : σ}
    (h : Guarded step ok (as ++ bs) s) : Guarded step ok as s := by
  induction as generalizing s with
  | nil => trivial
  | cons a as ih => exact ⟨h.1, fun t ht => ih (h.2 t ht)⟩

theorem Guarded.and {ok ok' : σ → α → Prop} {as : List α} {s : σ}
    (h : Guarded step ok as s) (h' : Guarded step ok' as s) :
    Guarded step (fun s a => ok s a ∧ ok' s a) as s := by
  induction as generalizing s with
  | nil => trivial
  | cons a as ih =>
      exact ⟨⟨h.1, h'.1⟩, fun t ht => ih (h.2 t ht) (h'.2 t ht)⟩

/-- The invariant rule: what the guarded steps keep, a guarded run keeps. -/
theorem always_of_guarded {ok : σ → α → Prop} {P : σ → Prop}
    (hstep : ∀ a s s', P s → ok s a → step a s = some s' → P s')
    {as : List α} {s : σ} (hg : Guarded step ok as s) (hs : P s) :
    Always step P as s := by
  induction as generalizing s with
  | nil => exact hs
  | cons a as ih =>
      exact ⟨hs, fun t ht => ih (hg.2 t ht) (hstep a s t hs hg.1 ht)⟩

/-- The invariant rule for steps: what every guarded step from a state in
order satisfies, every step of a guarded run satisfies. -/
theorem alwaysStep_of_guarded {ok : σ → α → Prop} {P : σ → Prop}
    {R : σ → α → σ → Prop}
    (hstep : ∀ a s s', P s → ok s a → step a s = some s' → P s' ∧ R s a s')
    {as : List α} {s : σ} (hg : Guarded step ok as s) (hs : P s) :
    AlwaysStep step R as s := by
  induction as generalizing s with
  | nil => trivial
  | cons a as ih =>
      intro t ht
      obtain ⟨hP, hR⟩ := hstep a s t hs hg.1 ht
      exact ⟨hR, ih (hg.2 t ht) hP⟩

theorem Always.mono {P Q : σ → Prop} {as : List α} {s : σ}
    (h : Always step P as s) (hPQ : ∀ s, P s → Q s) : Always step Q as s := by
  induction as generalizing s with
  | nil => exact hPQ s h
  | cons a as ih => exact ⟨hPQ s h.1, fun t ht => ih (h.2 t ht)⟩

theorem Always.last {P : σ → Prop} {as : List α} {s s' : σ}
    (h : Always step P as s) (hrun : run step as s = some s') : P s' := by
  induction as generalizing s with
  | nil => cases hrun; exact h
  | cons a as ih =>
      obtain ⟨t, ht, hrest⟩ := run_cons hrun
      exact ih (h.2 t ht) hrest

theorem Always.head {P : σ → Prop} {as : List α} {s : σ}
    (h : Always step P as s) : P s := by
  cases as with
  | nil => exact h
  | cons a as => exact h.1

/-- The invariant rule, read at the end of the run. -/
theorem run_invariant {ok : σ → α → Prop} {P : σ → Prop}
    (hstep : ∀ a s s', P s → ok s a → step a s = some s' → P s')
    {as : List α} {s s' : σ} (hg : Guarded step ok as s) (hs : P s)
    (hrun : run step as s = some s') : P s' :=
  (always_of_guarded hstep hg hs).last hrun

/-- The same for steps that also rely on what is known to hold throughout. -/
theorem run_invariant_of_always {ok : σ → α → Prop} {P Q : σ → Prop}
    (hstep : ∀ a s s', P s → Q s → Q s' → ok s a → step a s = some s' → P s')
    {as : List α} {s s' : σ} (hg : Guarded step ok as s)
    (hQ : Always step Q as s) (hs : P s) (hrun : run step as s = some s') :
    P s' := by
  induction as generalizing s with
  | nil => cases hrun; exact hs
  | cons a as ih =>
      obtain ⟨t, ht, hrest⟩ := run_cons hrun
      have hQt := hQ.2 t ht
      exact ih (hg.2 t ht) hQt (hstep a s t hs hQ.1 hQt.head hg.1 ht) hrest

/-- How many steps of the run lead to a state in relation `R` to the one
before. -/
def tally (step : α → σ → Option σ) (R : σ → σ → Bool) : List α → σ → Nat
  | [], _ => 0
  | a :: as, s =>
      match step a s with
      | none => 0
      | some t => (if R s t then 1 else 0) + tally step R as t

/-- The rule for accounts: what a run spends by its actions, and what it has
left at the end, it had before or was given by a step in `R`. -/
theorem tally_spent {ok : σ → α → Prop} {P : σ → Prop} {R : σ → σ → Bool}
    {m : σ → Nat} {cost : α → Nat}
    (hstep : ∀ a s s', P s → ok s a → step a s = some s' →
      P s' ∧ m s' + cost a = m s + if R s s' then 1 else 0)
    {as : List α} {s s' : σ} (hg : Guarded step ok as s) (hs : P s)
    (hrun : run step as s = some s') :
    m s' + (as.map cost).sum = m s + tally step R as s := by
  induction as generalizing s with
  | nil => cases hrun; rfl
  | cons a as ih =>
      obtain ⟨t, ht, hrest⟩ := run_cons hrun
      obtain ⟨hP, hm⟩ := hstep a s t hs hg.1 ht
      have hsum := ih (hg.2 t ht) hP hrest
      rw [List.map_cons, List.sum_cons, tally, ht]
      dsimp only
      omega

/-- A measure that each guarded step raises by one exactly if it is in `R`
counts those steps. -/
theorem tally_of_guarded {ok : σ → α → Prop} {P : σ → Prop}
    {R : σ → σ → Bool} {m : σ → Nat}
    (hstep : ∀ a s s', P s → ok s a → step a s = some s' →
      P s' ∧ m s' = m s + if R s s' then 1 else 0)
    {as : List α} {s s' : σ} (hg : Guarded step ok as s) (hs : P s)
    (hrun : run step as s = some s') : m s' = m s + tally step R as s := by
  have hsum : m s' + (as.map fun _ => 0).sum = m s + tally step R as s :=
    tally_spent hstep hg hs hrun
  rw [List.map_const', List.sum_replicate_nat, Nat.mul_zero] at hsum
  exact hsum

/-- A measure that no step lowers, and that a step leaves as it is exactly if
it meets `ok`, tells whether all of them did. -/
theorem guarded_iff_measure {ok : σ → α → Prop} {m : σ → Nat}
    (hstep : ∀ a s s', step a s = some s' →
      m s ≤ m s' ∧ (m s' = m s ↔ ok s a))
    {as : List α} {s s' : σ} (hrun : run step as s = some s') :
    m s ≤ m s' ∧ (m s' = m s ↔ Guarded step ok as s) := by
  induction as generalizing s with
  | nil => cases hrun; exact ⟨le_rfl, iff_of_true rfl trivial⟩
  | cons a as ih =>
      obtain ⟨t, ht, hrest⟩ := run_cons hrun
      obtain ⟨hle, hok⟩ := hstep a s t ht
      obtain ⟨hle', hok'⟩ := ih hrest
      refine ⟨hle.trans hle', fun h => ⟨hok.mp (by omega), fun u hu => ?_⟩,
        fun h => ?_⟩
      · cases ht.symm.trans hu
        exact hok'.mp (by omega)
      · rw [hok'.mpr (h.2 t ht), hok.mpr h.1]

theorem guarded_of_forall {ok : α → Prop} {as : List α} {s : σ}
    (h : ∀ a ∈ as, ok a) : Guarded step (fun _ a => ok a) as s := by
  induction as generalizing s with
  | nil => trivial
  | cons a as ih =>
      exact ⟨h a (by simp), fun _ _ => ih fun b hb =>
        h b (List.mem_cons_of_mem _ hb)⟩

/-- A run with no condition on its steps is guarded by the trivial one. -/
theorem guarded_true (as : List α) (s : σ) :
    Guarded step (fun _ _ => True) as s := by
  induction as generalizing s with
  | nil => trivial
  | cons a as ih => exact ⟨trivial, fun t _ => ih t⟩

end MediaServer.Lib
