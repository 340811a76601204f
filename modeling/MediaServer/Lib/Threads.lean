import MediaServer.Lib.Trans

/-!
# Threads over a shared state

A thread is what it still has to do: a program counter with its local
variables. `exec` says what one block of it does to the shared state and where
it stands afterwards (`none` when it has returned), and is itself `none` while
the thread has to wait. Any thread may take the next turn.

`Inv.turn` is the rule of assertions that do not interfere: if a block keeps
the invariant of the shared state, establishes the assertion of the place it
leads to and keeps the assertions of all other places, every turn keeps all of
them. `run_solo` says that a thread that is given all the turns does what its
blocks do one after the other.
-/

namespace MediaServer.Lib

variable {σ κ : Type}

structure Threads (σ κ : Type) where
  shared : σ
  threads : List κ

namespace Threads

/-- Thread `i` has run a block: it stands at `k`, or it has returned. -/
def resume (t : Threads σ κ) (i : Nat) (s : σ) : Option κ → Threads σ κ
  | some k => ⟨s, t.threads.set i k⟩
  | none => ⟨s, t.threads.eraseIdx i⟩

def turn (exec : κ → σ → Option (σ × Option κ)) (i : Nat) (t : Threads σ κ) :
    Option (Threads σ κ) :=
  match t.threads[i]? with
  | none => none
  | some k => (exec k t.shared).map fun r => t.resume i r.1 r.2

def start (k : κ) (t : Threads σ κ) : Threads σ κ :=
  { t with threads := t.threads ++ [k] }

/-- `P` holds of the shared state and `A` of the place of every thread. -/
structure Inv (P : σ → Prop) (A : κ → σ → Prop) (t : Threads σ κ) : Prop where
  shared : P t.shared
  each : ∀ k ∈ t.threads, A k t.shared

variable {P : σ → Prop} {A : κ → σ → Prop}
variable {exec : κ → σ → Option (σ × Option κ)}

theorem turn_eq_some {i : Nat} {t u : Threads σ κ}
    (h : turn exec i t = some u) :
    ∃ k s next, t.threads[i]? = some k ∧ exec k t.shared = some (s, next) ∧
      u = t.resume i s next := by
  unfold turn at h
  split at h
  · cases h
  · next k hk =>
      obtain ⟨⟨s, next⟩, hs, hu⟩ := Option.map_eq_some_iff.mp h
      exact ⟨k, s, next, hk, hs, hu.symm⟩

theorem mem_resume {t : Threads σ κ} {i : Nat} {s : σ} {next : Option κ}
    {k : κ} (h : k ∈ (t.resume i s next).threads) :
    k ∈ t.threads ∨ next = some k := by
  cases next with
  | none => exact .inl (List.mem_of_mem_eraseIdx h)
  | some k' =>
      rcases List.mem_or_eq_of_mem_set h with h | h
      · exact .inl h
      · exact .inr (by rw [h])

theorem mem_resume_of_ne {t : Threads σ κ} {i : Nat} {s : σ}
    {next : Option κ} {k l : κ} (hk : t.threads[i]? = some k)
    (hl : l ∈ t.threads) (hne : l ≠ k) :
    l ∈ (t.resume i s next).threads := by
  obtain ⟨j, hj, rfl⟩ := List.getElem_of_mem hl
  have hij : i ≠ j := by
    rintro rfl
    rw [List.getElem?_eq_getElem hj] at hk
    exact hne (Option.some.inj hk)
  cases next with
  | none => exact List.mem_eraseIdx_iff_getElem.mpr ⟨j, hj, hij.symm, rfl⟩
  | some k' =>
      refine List.mem_of_getElem? (i := j) ?_
      rw [resume, List.getElem?_set_ne hij]
      exact List.getElem?_eq_getElem hj

theorem mem_resume_next {t : Threads σ κ} {i : Nat} {s : σ} {k l : κ}
    (hk : t.threads[i]? = some k) : l ∈ (t.resume i s (some l)).threads :=
  List.mem_set (List.getElem?_eq_some_iff.mp hk).1 l

theorem resume_shared (t : Threads σ κ) (i : Nat) (s : σ) (next : Option κ) :
    (t.resume i s next).shared = s := by
  cases next with
  | none => rfl
  | some k => rfl

/-! ## Counting threads -/

variable {f : κ → Bool}

/-- How the number of threads in a certain kind of place changes when thread
`i` moves from `k` to where it stands next. -/
theorem countP_resume {t : Threads σ κ} {i : Nat} {k : κ} {s : σ}
    {next : Option κ} (hk : t.threads[i]? = some k) :
    (t.resume i s next).threads.countP f + [k].countP f =
      t.threads.countP f + next.toList.countP f := by
  obtain ⟨hi, rfl⟩ := List.getElem?_eq_some_iff.mp hk
  have hsplit : t.threads.countP f = (t.threads.take i).countP f +
      ([t.threads[i]].countP f + (t.threads.drop (i + 1)).countP f) := by
    rw [← List.countP_append, List.singleton_append, List.getElem_cons_drop,
      ← List.countP_append, List.take_append_drop]
  cases next with
  | none =>
      rw [resume, List.eraseIdx_eq_take_drop_succ, List.countP_append]
      simp only [Option.toList_none, List.countP_nil]
      omega
  | some k' =>
      rw [resume, List.set_eq_take_append_cons_drop, if_pos hi,
        ← List.singleton_append, List.countP_append, List.countP_append,
        Option.toList_some]
      omega

variable {α : Type} {l : List α} {a b : α} {i : Nat}

theorem sum_map_split (w : α → Nat) (h : l[i]? = some a) :
    (l.map w).sum = ((l.take i).map w).sum +
      (w a + ((l.drop (i + 1)).map w).sum) := by
  obtain ⟨hi, rfl⟩ := List.getElem?_eq_some_iff.mp h
  rw [← List.sum_cons, ← List.map_cons, List.getElem_cons_drop,
    ← List.sum_append, ← List.map_append, List.take_append_drop]

theorem sum_map_set (w : α → Nat) (h : l[i]? = some a) :
    ((l.set i b).map w).sum + w a = (l.map w).sum + w b := by
  have hi := (List.getElem?_eq_some_iff.mp h).1
  rw [sum_map_split w h, List.set_eq_take_append_cons_drop, if_pos hi,
    List.map_append, List.sum_append, List.map_cons, List.sum_cons]
  omega

theorem sum_map_eraseIdx (w : α → Nat) (h : l[i]? = some a) :
    ((l.eraseIdx i).map w).sum + w a = (l.map w).sum := by
  rw [sum_map_split w h, List.eraseIdx_eq_take_drop_succ, List.map_append,
    List.sum_append]
  omega

/-- The same for a weight that every place has. -/
theorem sum_resume {t : Threads σ κ} {i : Nat} {k : κ} {s : σ}
    {next : Option κ} (w : κ → Nat) (hk : t.threads[i]? = some k) :
    ((t.resume i s next).threads.map w).sum + w k =
      (t.threads.map w).sum + (next.toList.map w).sum := by
  cases next with
  | none => exact sum_map_eraseIdx w hk
  | some k' => exact sum_map_set w hk

/-! ## Threads of one kind -/

theorem Inv.resume {t : Threads σ κ} (h : Inv P A t) {i : Nat} {s : σ}
    {next : Option κ} (hP : P s) (hnext : ∀ k, next = some k → A k s)
    (hkeep : ∀ k ∈ t.threads, A k t.shared → A k s) :
    Inv P A (t.resume i s next) := by
  refine ⟨by rw [resume_shared]; exact hP, fun k hk => ?_⟩
  rw [resume_shared]
  rcases mem_resume hk with hold | hnew
  · exact hkeep k hold (h.each k hold)
  · exact hnext k hnew

theorem Inv.start {t : Threads σ κ} (h : Inv P A t) {k : κ}
    (hk : A k t.shared) : Inv P A (t.start k) := by
  refine ⟨h.shared, fun k' hk' => ?_⟩
  rcases List.mem_append.mp hk' with hold | hnew
  · exact h.each k' hold
  · rw [List.mem_singleton.mp hnew]
    exact hk

/-- A change of the shared state by something other than a thread. -/
theorem Inv.of_shared {t : Threads σ κ} (h : Inv P A t) {s : σ} (hP : P s)
    (hkeep : ∀ k ∈ t.threads, A k t.shared → A k s) :
    Inv P A { t with shared := s } :=
  ⟨hP, fun k hk => hkeep k hk (h.each k hk)⟩

/-! ## A thread on its own -/

/-- The blocks of a thread one after the other, until it returns, each from a
shared state in which `P` holds. -/
inductive Solo (exec : κ → σ → Option (σ × Option κ)) (P : σ → Prop) :
    κ → σ → σ → Prop where
  | last {k : κ} {s s' : σ} (hP : P s) (h : exec k s = some (s', none)) :
      Solo exec P k s s'
  | more {k l : κ} {s t u : σ} (hP : P s) (h : exec k s = some (t, some l))
      (rest : Solo exec P l t u) : Solo exec P k s u

/-- A system whose action `a` is a turn of one thread, while `P` holds. -/
theorem run_solo {α : Type} {step : α → Threads σ κ → Option (Threads σ κ)}
    {a : α} {ks ls : List κ}
    (hstep : ∀ t, P t.shared → step a t = turn exec ks.length t) {k : κ}
    {s s' : σ} (h : Solo exec P k s s') :
    ∃ n, run step (List.replicate n a) ⟨s, ks ++ k :: ls⟩ =
      some ⟨s', ks ++ ls⟩ := by
  induction h with
  | @last k s s' hP h =>
      refine ⟨1, ?_⟩
      have hone := hstep ⟨s, ks ++ k :: ls⟩ hP
      simp [turn, h, resume, List.eraseIdx_append_of_length_le] at hone
      simp [run, hone]
  | @more k l s t u hP h _ ih =>
      obtain ⟨n, hn⟩ := ih
      refine ⟨n + 1, ?_⟩
      have hone := hstep ⟨s, ks ++ k :: ls⟩ hP
      simp [turn, h, resume] at hone
      simpa [List.replicate_succ, run, hone] using hn

end Threads

end MediaServer.Lib
