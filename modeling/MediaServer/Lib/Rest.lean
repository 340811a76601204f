import MediaServer.Lib.Trans

/-!
# Systems that come to rest

Some actions are the system's own, others come from outside. It is at rest
when none of its own is enabled. If each of them lowers a rank, then a run of
them is no longer than the rank of the state it starts from, and however the
system is scheduled it comes to rest.
-/

namespace MediaServer.Lib

variable {σ α : Type} {step : α → σ → Option σ} {own : α → Prop}

/-- None of the system's own actions is enabled. -/
def AtRest (step : α → σ → Option σ) (own : α → Prop) (s : σ) : Prop :=
  ∀ a, own a → step a s = none

/-- Where the system's own actions cannot go on for ever, they lead to
rest. -/
theorem exists_run_atRest_of_acc {s : σ}
    (hacc : Acc (fun t s => ∃ a, own a ∧ step a s = some t) s) :
    ∃ as t, (∀ a ∈ as, own a) ∧ run step as s = some t ∧
      AtRest step own t := by
  induction hacc with
  | intro s _ ih =>
      by_cases hrest : AtRest step own s
      · exact ⟨[], s, nofun, rfl, hrest⟩
      · obtain ⟨a, ha⟩ := not_forall.mp hrest
        obtain ⟨hown, hne⟩ := Classical.not_imp.mp ha
        obtain ⟨t, ht⟩ := Option.ne_none_iff_exists'.mp hne
        obtain ⟨as, u, howns, hrun, hu⟩ := ih t ⟨a, hown, ht⟩
        refine ⟨a :: as, u, fun b hb => ?_, ?_, hu⟩
        · rcases List.mem_cons.mp hb with rfl | hb
          · exact hown
          · exact howns b hb
        · rw [run, ht]
          exact hrun

section Rank

variable {P : σ → Prop} {rank : σ → Nat}

/-- The rank bounds every run of own actions. -/
theorem length_add_rank_le
    (hstep : ∀ a s s', P s → own a → step a s = some s' →
      P s' ∧ rank s' < rank s)
    {as : List α} {s s' : σ} (hs : P s) (hown : ∀ a ∈ as, own a)
    (hrun : run step as s = some s') : as.length + rank s' ≤ rank s := by
  induction as generalizing s with
  | nil =>
      cases hrun
      exact Nat.le_of_eq (Nat.zero_add _)
  | cons a as ih =>
      obtain ⟨t, ht, hrest⟩ := run_cons hrun
      obtain ⟨hPt, hlt⟩ := hstep a s t hs (hown a List.mem_cons_self) ht
      have hle := ih hPt (fun b hb => hown b (List.mem_cons_of_mem _ hb)) hrest
      rw [List.length_cons]
      omega

/-- From every state the system's own actions lead to rest. -/
theorem exists_run_atRest
    (hstep : ∀ a s s', P s → own a → step a s = some s' →
      P s' ∧ rank s' < rank s)
    {s : σ} (hs : P s) :
    ∃ as t, (∀ a ∈ as, own a) ∧ run step as s = some t ∧
      AtRest step own t := by
  refine exists_run_atRest_of_acc ?_
  induction hn : rank s using Nat.strongRecOn generalizing s with
  | ind n ih =>
      refine .intro s ?_
      rintro t ⟨a, ha, ht⟩
      obtain ⟨hPt, hlt⟩ := hstep a s t hs ha ht
      exact ih (rank t) (hn ▸ hlt) hPt rfl

end Rank

end MediaServer.Lib
