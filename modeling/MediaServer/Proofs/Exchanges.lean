import MediaServer.Ref.Rmq

/-!
# Publishing on a live exchange

A function that has passed its test of the flag sends on an exchange variable.
Between the two, and between the last registration of a connection and the
flag it sets, a lost connection can destroy what the variables point to. And
`PublishMessage2CrossClusterPod` tests the flag of one broker and sends on an
exchange of the other.

Only `destroyEXC` in `Stop` and `CenterRMQStop` makes a variable's exchange
unusable. If those calls are made while the broker's flag is clear, while no
connection to it is being registered and while nobody stands between test and
send, then a set flag means that every variable of the broker holds a live
exchange. The invariant says this, together with what a connection has
registered so far.
-/

namespace MediaServer.Ref

open MediaServer.Lib

/-- The variable holds an exchange of its broker that was not destroyed. -/
def Rmq.Holds (l : Rmq) (s : Slot) : Prop :=
  ∃ x, l.slot s = some x ∧ x < l.heap.next ∧ (l.exc x).broker = s.broker ∧
    (l.exc x).destroyed = false

/-- The exchange that `f` sends on is non-nil, belongs to the broker that `f`
is meant for and has not been destroyed. -/
def Rmq.Live (l : Rmq) (f : Publish) : Prop :=
  ∃ x, l.slot f.slot = some x ∧ (l.exc x).broker = f.target ∧
    (l.exc x).destroyed = false

theorem Rmq.Holds.live {l : Rmq} {f : Publish} (h : l.Holds f.slot) :
    l.Live f := by
  obtain ⟨x, hx, -, hb, hd⟩ := h
  exact ⟨x, hx, hb.trans f.slot_broker, hd⟩

/-- Every function that has passed its test has a live exchange to send on. -/
def RmqSched.PublishesLive (t : RmqSched) : Prop :=
  ∀ f, RmqPc.send f ∈ t.threads → t.shared.Live f

/-- The variables that a connection still has to assign. -/
def Registration.slot? : Registration → Option Slot
  | .producer s _ => some s
  | .receiver _ => none

/-- The goroutine relies on the exchanges of `b`: it is registering them, or
about to send on one. -/
def RmqPc.reliesOn (b : Broker) : RmqPc → Bool
  | .register b' _ => b' = b
  | .send f => f.target = b
  | _ => false

/-- The broker whose variables the next block destroys. -/
def RmqPc.destroys : RmqPc → Option Broker
  | .stop b (_ :: _) _ => some b
  | _ => none

/-- The flag of `b` is clear and nobody relies on its exchanges. -/
def RmqSched.Unused (t : RmqSched) (b : Broker) : Prop :=
  (t.shared.link b).connected = false ∧
    ∀ k ∈ t.threads, k.reliesOn b = false

/-- Exchanges are destroyed only while they are unused, and whoever tests one
broker's flag to send to the other finds both flags equal. -/
def RmqSched.Cautious (t : RmqSched) : RmqSched.Act → Prop
  | .turn i _ => ∀ k ∈ t.threads[i]?,
      (∀ b ∈ k.destroys, t.Unused b) ∧
      match k with
      | .publish f => (t.shared.link f.flag).connected = true →
          (t.shared.link f.target).connected = true
      | _ => True
  | _ => True

instance (t : RmqSched) (b : Broker) : Decidable (t.Unused b) :=
  inferInstanceAs (Decidable (_ ∧ _))

instance (t : RmqSched) (a : RmqSched.Act) : Decidable (t.Cautious a) := by
  cases a with
  | turn i o =>
      unfold RmqSched.Cautious
      have : ∀ k : RmqPc, Decidable ((∀ b ∈ k.destroys, t.Unused b) ∧
          match k with
          | .publish f => (t.shared.link f.flag).connected = true →
              (t.shared.link f.target).connected = true
          | _ => True) := by
        intro k
        cases k <;> infer_instance
      infer_instance
  | _ => exact .isTrue trivial

/-! ## The invariant -/

/-- An exchange that no variable points to. -/
def Rmq.Apart (l : Rmq) (x : ExcRef) : Prop :=
  x < l.heap.next ∧ ∀ s, l.slot s ≠ some x

/-- The variables point to exchanges of their brokers, the receivers are kept
apart from them, and a set flag means that all of its variables hold. -/
structure Rmq.Stocked (l : Rmq) : Prop where
  own : ∀ s x, l.slot s = some x →
    x < l.heap.next ∧ (l.exc x).broker = s.broker
  apart : ∀ b, ∀ x ∈ (l.link b).exs, l.Apart x
  flag : ∀ s, (l.link s.broker).connected = true → l.Holds s

/-- What is known at the place of a goroutine: a connection has assigned every
variable of its broker that is not on its list any more. -/
def RmqPc.Sound (l : Rmq) : RmqPc → Prop
  | .register b todo =>
      (∀ s ∈ todo.filterMap Registration.slot?, s.broker = b) ∧
        (l.fatal = false → ∀ s, s.broker = b →
          s ∈ todo.filterMap Registration.slot? ∨ l.Holds s)
  | .stop b todo _ => ∀ s ∈ todo, s.broker = b
  | .stopExs _ todo _ => ∀ x ∈ todo, l.Apart x
  | .send f => l.Holds f.slot
  | _ => True

section Keeps

variable {l l' : Rmq} {b : Broker} {s : Slot} {x : ExcRef}

/-- No variable stops holding and no exchange is assigned to one anew. -/
structure Rmq.Keeps (l l' : Rmq) : Prop where
  fatal : l'.fatal = false → l.fatal = false
  holds : ∀ s, l.Holds s → l'.Holds s
  apart : ∀ x, l.Apart x → l'.Apart x

theorem Rmq.Keeps.sound (h : l.Keeps l') {k : RmqPc} (hk : k.Sound l) :
    k.Sound l' := by
  cases k with
  | register b todo =>
      exact ⟨hk.1, fun hf s hs =>
        (hk.2 (h.fatal hf) s hs).imp_right (h.holds s)⟩
  | stop b todo again => exact hk
  | stopExs b todo again => exact fun x hx => h.apart x (hk x hx)
  | send f => exact h.holds _ hk
  | dial | dialed | closed | closeConn | blocked | publish => trivial

/-- The variables and the exchanges are the same. -/
theorem Rmq.Keeps.of_eq (hslot : l'.slot = l.slot) (hheap : l'.heap = l.heap)
    (hfatal : l'.fatal = false → l.fatal = false) : l.Keeps l' where
  fatal := hfatal
  holds s h := by
    simp only [Rmq.Holds, Rmq.exc, hslot, hheap] at h ⊢
    exact h
  apart x h := by
    simp only [Rmq.Apart, hslot, hheap] at h ⊢
    exact h

theorem Rmq.Stocked.of_eq (h : l.Stocked) (hslot : l'.slot = l.slot)
    (hheap : l'.heap = l.heap)
    (hexs : ∀ b, ∀ x ∈ (l'.link b).exs, x ∈ (l.link b).exs)
    (hflag : ∀ b, (l'.link b).connected = true →
      (l.link b).connected = true) : l'.Stocked where
  own s x hx := by
    rw [hslot] at hx
    simp only [Rmq.exc, hheap]
    exact h.own s x hx
  apart b x hx := by
    have hx := h.apart b x (hexs b x hx)
    simp only [Rmq.Apart, hslot, hheap] at hx ⊢
    exact hx
  flag s hs := by
    have hs := h.flag s (hflag _ hs)
    simp only [Rmq.Holds, Rmq.exc, hslot, hheap] at hs ⊢
    exact hs

/-- A change of one link that adds no receiver and sets no flag. -/
theorem Rmq.Stocked.setLink (h : l.Stocked) {f : Link → Link}
    (hf : ∀ k, (∀ x ∈ (f k).exs, x ∈ k.exs) ∧
      ((f k).connected = true → k.connected = true)) :
    (l.setLink b f).Stocked := by
  refine h.of_eq rfl rfl (fun i x hx => ?_) fun i hi => ?_
  · simp only [Rmq.setLink] at hx
    split at hx
    · exact (hf _).1 x hx
    · exact hx
  · simp only [Rmq.setLink] at hi
    split at hi
    · exact (hf _).2 hi
    · exact hi

/-! ## A registration -/

theorem Rmq.alloc_exc (l : Rmq) (e : QueueExchange) (hx : x < l.heap.next) :
    (l.heap.alloc e).cell x = l.exc x :=
  l.heap.alloc_cell_of_ne e (Nat.ne_of_lt hx)

theorem Rmq.Holds.alloc {e : QueueExchange} (hheap : l'.heap = l.heap.alloc e)
    (hs : l'.slot s = l.slot s) (h : l.Holds s) : l'.Holds s := by
  obtain ⟨x, hx, hlt, hb, hd⟩ := h
  refine ⟨x, hs.trans hx, ?_, ?_⟩
  · rw [hheap]; exact Nat.lt_succ_of_lt hlt
  · rw [Rmq.exc, hheap, l.alloc_exc e hlt]
    exact ⟨hb, hd⟩

/-- A registration fails on a nil pointer, or adds an exchange: a producer's
goes to its variable, a receiver's to the list. -/
theorem Rmq.register_cases (l : Rmq) (b : Broker) (o : Amqp)
    (g : Registration) :
    l.register b o g = l.throw ∨ ∃ e : QueueExchange,
      e.broker = b ∧ e.destroyed = false ∧
      (l.register b o g).heap = l.heap.alloc e ∧
      (l.register b o g).slot =
        (fun i => if g.slot? = some i then some l.heap.next else l.slot i) ∧
      (l.register b o g).fatal = l.fatal ∧
      (∀ i, ((l.register b o g).link i).connected = (l.link i).connected) ∧
      ∀ i, ∀ x ∈ ((l.register b o g).link i).exs,
        x ∈ (l.link i).exs ∨ g.slot? = none ∧ x = l.heap.next := by
  unfold Rmq.register
  split
  · exact .inl rfl
  · exact .inl rfl
  · next c _ _ =>
      right
      cases g with
      | producer s d =>
          refine ⟨_, rfl, rfl, rfl, ?_, rfl, fun _ => rfl,
            fun _ _ hx => .inl hx⟩
          funext i
          simp only [Registration.slot?, Option.some.injEq, eq_comm]
      | receiver d =>
          refine ⟨_, rfl, rfl, rfl, rfl, rfl, fun i => ?_, fun i x hx => ?_⟩
          · simp only [Rmq.setLink]
            split
            · rfl
            · rfl
          · simp only [Rmq.setLink] at hx
            split at hx
            · rcases List.mem_append.mp hx with hx | hx
              · exact .inl hx
              · exact .inr ⟨rfl, List.mem_singleton.mp hx⟩
            · exact .inl hx

theorem Rmq.register_keeps {o : Amqp} {g : Registration}
    (hown : ∀ s, g.slot? = some s → s.broker = b) :
    l.Keeps (l.register b o g) := by
  rcases l.register_cases b o g with
    h | ⟨e, hb, hd, hheap, hslot, hfatal, -, -⟩
  · rw [h]; exact .of_eq rfl rfl fun h => by cases h
  · refine ⟨fun h => hfatal ▸ h, fun s hs => ?_,
      fun x hx => ⟨?_, fun s hs => ?_⟩⟩
    · by_cases hg : g.slot? = some s
      · refine ⟨l.heap.next, by simp [hslot, hg], ?_, ?_⟩
        · rw [hheap]; exact Nat.lt_succ_self _
        · rw [Rmq.exc, hheap, Heap.alloc_cell_next]
          exact ⟨hb.trans (hown s hg).symm, hd⟩
      · exact hs.alloc hheap (by simp [hslot, hg])
    · rw [hheap]; exact Nat.lt_succ_of_lt hx.1
    · simp only [hslot] at hs
      split at hs
      · cases hs; exact Nat.lt_irrefl _ hx.1
      · exact hx.2 s hs

/-- After the registration of a producer its variable holds. -/
theorem Rmq.register_holds {o : Amqp} {g : Registration} (hs : s.broker = b)
    (hg : g.slot? = some s) (hf : (l.register b o g).fatal = false) :
    (l.register b o g).Holds s := by
  rcases l.register_cases b o g with h | ⟨e, hb, hd, hheap, hslot, -, -, -⟩
  · rw [h] at hf; cases hf
  · refine ⟨l.heap.next, by simp [hslot, hg], ?_, ?_⟩
    · rw [hheap]; exact Nat.lt_succ_self _
    · rw [Rmq.exc, hheap, Heap.alloc_cell_next]
      exact ⟨hb.trans hs.symm, hd⟩

theorem Rmq.Stocked.register {o : Amqp} {g : Registration} (h : l.Stocked)
    (hown : ∀ s, g.slot? = some s → s.broker = b) :
    (l.register b o g).Stocked := by
  have hk := Rmq.register_keeps (l := l) (o := o) hown
  rcases l.register_cases b o g with
    he | ⟨e, hb, hd, hheap, hslot, -, hconn, hexs⟩
  · rw [he]
    exact h.of_eq rfl rfl (fun _ _ hx => hx) fun _ hx => hx
  · refine ⟨fun s x hx => ?_, fun i x hx => ?_, fun s hs => ?_⟩
    · simp only [hslot] at hx
      split at hx
      · next hg =>
          cases hx
          rw [Rmq.exc, hheap, Heap.alloc_cell_next]
          exact ⟨Nat.lt_succ_self _, hb.trans (hown s hg).symm⟩
      · obtain ⟨hlt, hbr⟩ := h.own s x hx
        rw [Rmq.exc, hheap, l.alloc_exc e hlt]
        exact ⟨Nat.lt_succ_of_lt hlt, hbr⟩
    · rcases hexs i x hx with hx | ⟨hg, rfl⟩
      · exact hk.apart x (h.apart i x hx)
      · refine ⟨by rw [hheap]; exact Nat.lt_succ_self _, fun s hs => ?_⟩
        simp only [hslot, hg] at hs
        exact Nat.lt_irrefl _ (h.own s _ hs).1
    · rw [hconn] at hs
      exact hk.holds s (h.flag s hs)

/-! ## Destroying -/

theorem Rmq.destroyEXC_exc (l : Rmq) (x y : ExcRef) :
    (l.destroyEXC x).exc y = if y = x then
      { l.exc y with loop := false, destroyed := true } else l.exc y :=
  l.heap.modify_cell x y fun e => { e with loop := false, destroyed := true }

theorem Rmq.destroyEXC_broker (l : Rmq) (x y : ExcRef) :
    ((l.destroyEXC x).exc y).broker = (l.exc y).broker := by
  rw [Rmq.destroyEXC_exc]
  split
  · rfl
  · rfl

/-- A variable that points elsewhere holds as before. -/
theorem Rmq.Holds.destroyEXC (h : l.Holds s) (hx : l.slot s ≠ some x) :
    (l.destroyEXC x).Holds s := by
  obtain ⟨y, hy, hlt, hb, hd⟩ := h
  refine ⟨y, hy, hlt, by rw [Rmq.destroyEXC_broker]; exact hb, ?_⟩
  rw [Rmq.destroyEXC_exc, if_neg]
  · exact hd
  · rintro rfl; exact hx hy

theorem Rmq.Stocked.destroyEXC (h : l.Stocked)
    (hx : ∀ s, l.slot s = some x → (l.link s.broker).connected = false) :
    (l.destroyEXC x).Stocked where
  own s y hy := by
    rw [Rmq.destroyEXC_broker]
    exact h.own s y hy
  apart := h.apart
  flag s hs := by
    refine (h.flag s hs).destroyEXC fun hsx => ?_
    have hf := hx s hsx
    rw [show (l.link s.broker).connected = true from hs] at hf
    cases hf

end Keeps

/-! ## The steps -/

section Steps

variable {t u : RmqSched}

abbrev RmqSched.Inv (t : RmqSched) : Prop :=
  Threads.Inv Rmq.Stocked (fun k l => k.Sound l) t

theorem init_inv (uuid : String) : (RmqSched.init uuid).Inv where
  shared :=
    { own := fun _ _ h => by cases h
      apart := fun _ _ h => by cases h
      flag := fun _ h => by cases h }
  each _ h := by cases h

theorem registrations_sound (l : Rmq) (b : Broker) :
    (RmqPc.register b (b.registrations l.uuid)).Sound l := by
  have h : (b.registrations l.uuid).filterMap Registration.slot? = b.slots := by
    cases b <;> rfl
  simp only [RmqPc.Sound, h, Broker.mem_slots]
  exact ⟨fun _ hs => hs, fun _ _ hs => .inl hs⟩

theorem afterDestroy_sound {l l' : Rmq} {x : ExcRef} {k : RmqPc}
    (hk : k.Sound l') : (l.afterDestroy x k).Sound l' := by
  unfold Rmq.afterDestroy
  split
  · exact hk
  · trivial

/-- The variables and the exchanges are left alone. -/
structure Rmq.Idles (l l' : Rmq) : Prop where
  slot : l'.slot = l.slot
  heap : l'.heap = l.heap
  fatal : l'.fatal = false → l.fatal = false
  stocked : l.Stocked → l'.Stocked

theorem Rmq.Idles.trans {l l' l'' : Rmq} (h : l.Idles l') (h' : l'.Idles l'') :
    l.Idles l'' :=
  ⟨h'.slot.trans h.slot, h'.heap.trans h.heap, h.fatal ∘ h'.fatal,
    h'.stocked ∘ h.stocked⟩

theorem Rmq.idles_of_link {l l' : Rmq} (hslot : l'.slot = l.slot)
    (hheap : l'.heap = l.heap) (hlink : l'.link = l.link)
    (hfatal : l'.fatal = false → l.fatal = false) : l.Idles l' where
  slot := hslot
  heap := hheap
  fatal := hfatal
  stocked h := h.of_eq hslot hheap (fun _ _ hx => by rwa [hlink] at hx)
    fun _ hx => by rwa [hlink] at hx

theorem Rmq.setLink_idles (l : Rmq) (b : Broker) {f : Link → Link}
    (hf : ∀ k, (∀ x ∈ (f k).exs, x ∈ k.exs) ∧
      ((f k).connected = true → k.connected = true)) :
    l.Idles (l.setLink b f) :=
  ⟨rfl, rfl, id, fun h => h.setLink hf⟩

theorem Rmq.dial_idles (l : Rmq) (b : Broker) (ok : Bool) :
    l.Idles (l.dial b ok) := by
  unfold Rmq.dial
  refine Rmq.Idles.trans ?_ (Rmq.setLink_idles _ b fun k => ⟨fun _ h => h, id⟩)
  split
  · exact Rmq.idles_of_link rfl rfl rfl id
  · exact Rmq.idles_of_link rfl rfl rfl id

theorem Rmq.launchRetryTimer_idles (l : Rmq) (b : Broker) :
    l.Idles (l.launchRetryTimer b) :=
  l.setLink_idles b fun _ => ⟨fun _ h => h, id⟩

theorem Rmq.closeConn_idles (l : Rmq) (b : Broker) :
    l.Idles (l.closeConn b) := by
  unfold Rmq.closeConn
  split
  · exact Rmq.idles_of_link rfl rfl rfl fun h => by cases h
  · refine Rmq.Idles.trans ?_
      (Rmq.setLink_idles _ b fun _ => ⟨fun _ h => h, id⟩)
    exact Rmq.idles_of_link rfl rfl rfl id

theorem Rmq.Idles.sound {l l' : Rmq} {next : Option RmqPc} {P : Prop}
    (h : l.Idles l') (hl : l.Stocked) (hn : ∀ k, next = some k → k.Sound l') :
    l'.Stocked ∧ (∀ k, next = some k → k.Sound l') ∧ (P → l.Keeps l') :=
  ⟨h.stocked hl, hn, fun _ => .of_eq h.slot h.heap h.fatal⟩

/-- The block of one goroutine: it keeps the stock and knows what it needs at
its next place, and unless it destroys variables of a broker it takes nothing
from the others. -/
theorem exec_sound {o : Amqp} {k : RmqPc} {l l' : Rmq} {next : Option RmqPc}
    (hf : l.fatal = false) (hl : l.Stocked) (hk : k.Sound l)
    (hd : ∀ b ∈ k.destroys, (l.link b).connected = false)
    (hp : ∀ f, k = .publish f → (l.link f.flag).connected = true →
      (l.link f.target).connected = true)
    (h : Rmq.exec o k l = some (l', next)) :
    l'.Stocked ∧ (∀ k', next = some k' → k'.Sound l') ∧
      (k.destroys = none → l.Keeps l') := by
  have hdone : ∀ k : RmqPc, none = some k → k.Sound l' := fun _ h => by cases h
  cases k with
  | dial b =>
      cases h
      exact (l.dial_idles b _).sound hl fun k hk => by cases hk; trivial
  | dialed b ok =>
      simp only [Rmq.exec] at h
      split at h
      · split at h
        · cases h
          refine Rmq.Idles.sound ?_ hl fun k hk => ?_
          · exact Rmq.idles_of_link rfl rfl rfl id
          · cases hk
            exact registrations_sound _ b
        · cases h
          exact (l.launchRetryTimer_idles b).sound hl hdone
      · cases h
  | register b todo =>
      cases todo with
      | nil =>
          cases h
          have hall : ∀ s : Slot, s.broker = b → l.Holds s := fun s hs =>
            (hk.2 hf s hs).resolve_left (List.not_mem_nil)
          refine ⟨?_, hdone, fun _ => .of_eq rfl rfl id⟩
          refine ⟨hl.own, fun i x hx => ?_, fun s hs => ?_⟩
          · refine hl.apart i x ?_
            simp only [Rmq.setLink] at hx
            split at hx
            · exact hx
            · exact hx
          · simp only [Rmq.setLink] at hs
            split at hs
            · next hb => exact hall s hb
            · exact hl.flag s hs
      | cons g todo =>
          cases h
          have hown : ∀ s, g.slot? = some s → s.broker = b := fun s hs =>
            hk.1 s (by rw [List.filterMap_cons, hs]; exact List.mem_cons_self)
          have hkeep := Rmq.register_keeps (l := l) (o := o) hown
          refine ⟨hl.register hown, fun k hk' => ?_, fun _ => hkeep⟩
          cases hk'
          refine ⟨fun s hs => hk.1 s ?_, fun hf' s hs => ?_⟩
          · rw [List.filterMap_cons]
            split
            · exact hs
            · exact List.mem_cons_of_mem _ hs
          · rcases hk.2 hf s hs with hmem | hold
            · rw [List.filterMap_cons] at hmem
              split at hmem
              · exact .inl hmem
              · next s' hg =>
                  rcases List.mem_cons.mp hmem with rfl | hmem
                  · exact .inr (Rmq.register_holds hs hg hf')
                  · exact .inl hmem
            · exact .inr (hkeep.holds s hold)
  | closed b =>
      cases h
      refine Rmq.Idles.sound ?_ hl fun k hk => ?_
      · exact l.setLink_idles b fun _ => ⟨fun _ h => h, fun h => by cases h⟩
      · cases hk
        exact fun s hs => Broker.mem_slots.mp hs
  | stop b todo again =>
      cases todo with
      | nil =>
          cases h
          refine (Rmq.idles_of_link rfl rfl rfl id).sound hl fun k hk => ?_
          cases hk
          exact hl.apart b
      | cons s todo =>
          have htodo : ∀ s' ∈ todo, s'.broker = b := fun s' hs' =>
            hk s' (List.mem_cons_of_mem _ hs')
          simp only [Rmq.exec] at h
          split at h
          · cases h
            exact (Rmq.idles_of_link rfl rfl rfl id).sound hl
              fun k hk => by cases hk; exact htodo
          · next x hx =>
              cases h
              refine ⟨hl.destroyEXC fun s' hs' => ?_, fun k hk' => ?_,
                fun h => nomatch h⟩
              · rw [← (hl.own s' x hs').2, (hl.own s x hx).2,
                  hk s List.mem_cons_self]
                exact hd b rfl
              · cases hk'
                exact afterDestroy_sound htodo
  | stopExs b todo again =>
      cases todo with
      | nil =>
          cases h
          refine Rmq.Idles.sound ?_ hl fun k hk => ?_
          · refine l.setLink_idles b fun _ => ⟨fun _ h => ?_, id⟩
            cases h
          · cases hk
            trivial
      | cons x todo =>
          cases h
          have hx := hk x List.mem_cons_self
          refine ⟨hl.destroyEXC fun s hs => absurd hs (hx.2 s), fun k hk' => ?_,
            fun _ => ⟨id, fun s hs => hs.destroyEXC (hx.2 s), fun _ h => h⟩⟩
          cases hk'
          exact afterDestroy_sound fun y hy =>
            hk y (List.mem_cons_of_mem _ hy)
  | closeConn b again =>
      have hc := l.closeConn_idles b
      cases again with
      | false => cases h; exact hc.sound hl hdone
      | true =>
          cases h
          exact (hc.trans (Rmq.launchRetryTimer_idles _ b)).sound hl hdone
  | blocked => cases h
  | publish f =>
      cases h
      refine (Rmq.idles_of_link rfl rfl rfl id).sound hl fun k hk => ?_
      split at hk
      · next hc =>
          cases hk
          refine hl.flag f.slot ?_
          rw [f.slot_broker]
          exact hp f rfl hc
      · cases hk
  | send f =>
      obtain ⟨l'', hs, he⟩ := Option.map_eq_some_iff.mp h
      cases he
      unfold Rmq.send at hs
      split at hs
      · cases hs
        refine Rmq.Idles.sound ?_ hl hdone
        exact Rmq.idles_of_link rfl rfl rfl fun h => by cases h
      · split at hs
        · cases hs
          refine Rmq.Idles.sound ?_ hl hdone
          exact Rmq.idles_of_link rfl rfl rfl id
        · cases hs

/-- What is known elsewhere survives, if nobody relies on the broker. -/
theorem RmqPc.Sound.destroyEXC {l : Rmq} {k : RmqPc} {s : Slot} {x : ExcRef}
    (hk : k.Sound l) (hl : l.Stocked) (hx : l.slot s = some x)
    (hfree : k.reliesOn s.broker = false) : k.Sound (l.destroyEXC x) := by
  have hother : ∀ s' : Slot, s'.broker ≠ s.broker → l.Holds s' →
      (l.destroyEXC x).Holds s' := fun s' hne h =>
    h.destroyEXC fun hx' => hne ((hl.own s' x hx').2.symm.trans (hl.own s x hx).2)
  cases k with
  | register b todo =>
      have hb : b ≠ s.broker := by simpa [RmqPc.reliesOn] using hfree
      refine ⟨hk.1, fun hf s' hs' => (hk.2 hf s' hs').imp_right ?_⟩
      exact hother s' (by rw [hs']; exact hb)
  | send f =>
      have hb : f.target ≠ s.broker := by simpa [RmqPc.reliesOn] using hfree
      exact hother f.slot (by rw [f.slot_broker]; exact hb) hk
  | stop b todo again => exact hk
  | stopExs b todo again => exact hk
  | dial | dialed | closed | closeConn | blocked | publish => trivial

/-- A block that may destroy a variable of `b` destroys one at most. -/
theorem exec_destroys {o : Amqp} {k : RmqPc} {l l' : Rmq} {b : Broker}
    {next : Option RmqPc} (hk : k.Sound l) (hb : k.destroys = some b)
    (h : Rmq.exec o k l = some (l', next)) :
    l' = l ∨ ∃ s x, s.broker = b ∧ l.slot s = some x ∧ l' = l.destroyEXC x := by
  unfold RmqPc.destroys at hb
  split at hb
  · next s todo again =>
      cases hb
      simp only [Rmq.exec] at h
      split at h
      · cases h; exact .inl rfl
      · next x hx =>
          cases h
          exact .inr ⟨s, x, hk s List.mem_cons_self, hx, rfl⟩
  · cases hb

theorem turn_inv {i : Nat} {o : Amqp} (hi : t.Inv)
    (hf : t.shared.fatal = false) (hc : t.Cautious (.turn i o))
    (hs : t.turn (Rmq.exec o) i = some u) : u.Inv := by
  obtain ⟨k, l', next, hk, he, rfl⟩ := Threads.turn_eq_some hs
  obtain ⟨hd, hp⟩ := hc k hk
  have hmem : k ∈ t.threads := List.mem_of_getElem? hk
  have hks := hi.each k hmem
  obtain ⟨hst, hnext, hkeep⟩ := exec_sound hf hi.shared hks
    (fun b hb => (hd b hb).1) (fun f hkf => by subst hkf; exact hp) he
  refine hi.resume hst hnext fun k' hk' hs' => ?_
  cases hb : k.destroys with
  | none => exact (hkeep hb).sound hs'
  | some b =>
      rcases exec_destroys hks hb he with rfl | ⟨s, x, rfl, hx, rfl⟩
      · exact hs'
      · exact hs'.destroyEXC hi.shared hx ((hd _ hb).2 k' hk')

/-- A change of the shared state that leaves variables and exchanges alone. -/
theorem inv_of_idles {l : Rmq} (hi : t.Inv) (h : t.shared.Idles l) :
    Threads.Inv Rmq.Stocked (fun k l => k.Sound l) { t with shared := l } :=
  hi.of_shared (h.stocked hi.shared) fun _ _ =>
    (Rmq.Keeps.of_eq h.slot h.heap h.fatal).sound

theorem exit_idles {b : Broker} {fired : Bool} {l l' : Rmq}
    (h : RmqSched.exit b fired l = some l') : l.Idles l' := by
  unfold RmqSched.exit at h
  obtain ⟨-, h⟩ := Option.ite_none_right_eq_some.mp h
  cases h
  refine l.setLink_idles b fun k => ?_
  split
  · exact ⟨fun _ h => h, id⟩
  · exact ⟨fun _ h => h, id⟩

theorem listen_idles {i : Nat} {l l' : Rmq}
    (h : RmqSched.listen i l = some l') : l.Idles l' := by
  unfold RmqSched.listen at h
  split at h
  · split at h
    · cases h; exact Rmq.idles_of_link rfl rfl rfl fun h => by cases h
    · split at h
      · cases h; exact Rmq.idles_of_link rfl rfl rfl id
      · cases h; exact Rmq.idles_of_link rfl rfl rfl id
  · cases h

theorem lose_inv {c : ConnRef} (hi : t.Inv) (hs : t.lose c = some u) :
    u.Inv := by
  unfold RmqSched.lose at hs
  dsimp only at hs
  split at hs
  · cases hs
    have hsame := inv_of_idles (l := { t.shared with
      down := c :: t.shared.down
      watchers := t.shared.watchers.filter (·.conn ≠ some c) }) hi
      (Rmq.idles_of_link rfl rfl rfl id)
    refine ⟨hsame.shared, fun k hk => ?_⟩
    rcases List.mem_append.mp hk with hk | hk
    · exact hsame.each k hk
    · obtain ⟨w, -, rfl⟩ := List.mem_map.mp hk
      trivial
  · cases hs

theorem RmqSched.step_inv {a : RmqSched.Act} (hi : t.Inv)
    (hc : t.Cautious a) (hs : RmqSched.step a t = some u) : u.Inv := by
  unfold RmqSched.step at hs
  dsimp only at hs
  split at hs
  · cases hs
  · next hf =>
      have hf : t.shared.fatal = false := by simpa using hf
      cases a with
      | fire b =>
          dsimp only at hs
          split at hs
          · cases hs
            refine Threads.Inv.start (inv_of_idles hi ?_) trivial
            exact t.shared.setLink_idles b fun _ => ⟨fun _ h => h, id⟩
          · cases hs
      | exit b fired =>
          obtain ⟨l, hl, rfl⟩ := Option.map_eq_some_iff.mp hs
          exact inv_of_idles hi (exit_idles hl)
      | listen i =>
          obtain ⟨l, hl, rfl⟩ := Option.map_eq_some_iff.mp hs
          exact inv_of_idles hi (listen_idles hl)
      | lose c => exact lose_inv hi hs
      | stop b =>
          cases hs
          exact hi.start fun s hs => Broker.mem_slots.mp hs
      | publish f => cases hs; exact hi.start trivial
      | turn i o => exact turn_inv hi hf hc hs

theorem RmqSched.Inv.live (h : t.Inv) : t.PublishesLive := fun f hf =>
  Rmq.Holds.live (h.each (.send f) hf)

end Steps

/-- In every run in which exchanges are destroyed only while they are unused,
and in which `PublishMessage2CrossClusterPod` is called with both flags equal,
every function that passes its test has a live exchange to send on. -/
theorem publishesLive_of_cautious (uuid : String) (as : List RmqSched.Act)
    (h : Guarded RmqSched.step RmqSched.Cautious as (RmqSched.init uuid)) :
    Always RmqSched.step RmqSched.PublishesLive as (RmqSched.init uuid) :=
  (always_of_guarded (fun _ _ _ hi hc hs => RmqSched.step_inv hi hc hs) h
    (init_inv uuid)).mono fun _ h => h.live

/-! ## Two runs -/

/-- A connection to `b`, from its timer to the flag, with nothing else going
on. Its watcher is the `i`-th, and `n` exchanges are registered. -/
def connectRun (b : Broker) (i n : Nat) : List RmqSched.Act :=
  [.fire b, .turn 0 .ok, .exit b true, .turn 0 .ok, .listen i] ++
    List.replicate (n + 1) (.turn 0 .ok)

/-- The cluster's broker is connected and the center's is not. -/
def halfConnected : List RmqSched.Act :=
  connectRun .cluster 0 6 ++
    [.publish (.publishMessage2CrossClusterPod "pod" "m"), .turn 0 .ok]

/-- A message to a pod of another cluster passes the test of the wrong flag
and dereferences nil. -/
theorem crossClusterPod_nil :
    ∃ t u, run RmqSched.step halfConnected (RmqSched.init "ms1") = some t ∧
      ¬t.PublishesLive ∧ RmqSched.step (.turn 0 .ok) t = some u ∧
      u.shared.fatal = true := by
  have h : (run RmqSched.step halfConnected (RmqSched.init "ms1")).map
      (fun t => (t.threads, t.shared.slot .excCrossClusterDr,
        (RmqSched.step (.turn 0 .ok) t).map (·.shared.fatal))) =
      some ([.send (.publishMessage2CrossClusterPod "pod" "m")], none,
        some true) := by decide
  obtain ⟨t, ht, hfacts⟩ := Option.map_eq_some_iff.mp h
  simp only [Prod.mk.injEq] at hfacts
  obtain ⟨hthreads, hslot, hnext⟩ := hfacts
  obtain ⟨u, hu, hfatal⟩ := Option.map_eq_some_iff.mp hnext
  refine ⟨t, u, ht, fun hlive => ?_, hu, hfatal⟩
  obtain ⟨x, hx, -⟩ := hlive (.publishMessage2CrossClusterPod "pod" "m")
    (by rw [hthreads]; exact List.mem_cons_self)
  rw [show t.shared.slot (Publish.publishMessage2CrossClusterPod "pod"
    "m").slot = none from hslot] at hx
  cases hx

/-- Both brokers are connected, a message goes out, and then the connection to
the center is lost and its exchanges are destroyed. -/
def lostAfterSend : List RmqSched.Act :=
  connectRun .cluster 0 6 ++ connectRun .center 1 4 ++
    [.publish (.publishMessage2CrossClusterPod "pod" "m"), .turn 0 .ok,
      .turn 0 .ok, .lose 1, .turn 0 .ok, .turn 0 .ok, .turn 0 .ok]

theorem publishesLive_lostAfterSend :
    Guarded RmqSched.step RmqSched.Cautious lostAfterSend
        (RmqSched.init "ms1") ∧
      Always RmqSched.step RmqSched.PublishesLive lostAfterSend
        (RmqSched.init "ms1") ∧
      ((run RmqSched.step lostAfterSend (RmqSched.init "ms1")).map fun t =>
        (t.shared.sent.map Prod.snd, t.threads)) =
        some ([⟨"WB_", "pod", "m"⟩], [.stop .center [] true]) := by
  have hg : Guarded RmqSched.step RmqSched.Cautious lostAfterSend
      (RmqSched.init "ms1") := by decide
  exact ⟨hg, publishesLive_of_cautious "ms1" lostAfterSend hg, by decide⟩

end MediaServer.Ref
