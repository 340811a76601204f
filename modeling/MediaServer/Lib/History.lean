import MediaServer.Lib.Trans
import Mathlib.Data.List.Induction

/-!
# What a run has passed

An invariant that says where something in a state comes from refers to states
the run has passed. Such an invariant belongs to a run and its last state
together, and is carried along by taking the run apart at its end.
-/

namespace MediaServer.Lib

variable {σ α : Type} {step : α → σ → Option σ} {P Q : σ → Prop}
variable {as : List α} {s t : σ}

/-- The run from `s` passes a state with `P`, at the latest its last one. -/
def Passes (step : α → σ → Option σ) (P : σ → Prop) (as : List α) (s : σ) :
    Prop :=
  ∃ as₁ as₂ t, as = as₁ ++ as₂ ∧ run step as₁ s = some t ∧ P t

theorem Passes.append (h : Passes step P as s) (bs : List α) :
    Passes step P (as ++ bs) s := by
  obtain ⟨as₁, as₂, t, rfl, hrun, ht⟩ := h
  exact ⟨as₁, as₂ ++ bs, t, List.append_assoc _ _ _, hrun, ht⟩

theorem Passes.last (hrun : run step as s = some t) (ht : P t) :
    Passes step P as s :=
  ⟨as, [], t, (List.append_nil as).symm, hrun, ht⟩

/-- The rule for an invariant that refers to the past. -/
theorem run_history {ok : α → Prop} {I : List α → σ → Prop} (hinit : I [] s)
    (hstep : ∀ as a t t', run step as s = some t → I as t → ok a →
      step a t = some t' → I (as ++ [a]) t')
    (hok : ∀ a ∈ as, ok a) (hrun : run step as s = some t) : I as t := by
  induction as using List.reverseRecOn generalizing t with
  | nil =>
      cases hrun
      exact hinit
  | append_singleton as a ih =>
      rw [run_append] at hrun
      obtain ⟨t', hrun', hlast⟩ := Option.bind_eq_some_iff.mp hrun
      obtain ⟨t'', ht, hend⟩ := run_cons hlast
      cases hend
      refine hstep as a t' t hrun' (ih (fun b hb => ?_) hrun') ?_ ht
      · exact hok b (List.mem_append_left _ hb)
      · exact hok a (List.mem_append_right _ (List.mem_singleton_self a))

end MediaServer.Lib
