import MediaServer.Proofs.Exchanges
import MediaServer.Ref.Register

/-!
# Which exchanges have a loop

A registration whose calls succeed leaves an exchange with one loop, and a
producer with its `msgChan`; one whose `ExchangeDeclare`, `QueueDeclare`,
`QueueBind` or `Consume` fails leaves an exchange without, and the connect
function goes on to set its flag. So the exchanges of a connection are usable
exactly if no such call has failed. A failed `Channel` ends the program before
the flag is set, and a failed `Qos` changes nothing.

The last part ties this to the goroutine that registers in `Rmq.lean`: run
alone, with the answers taken together for each registration, it leaves the
same exchanges behind.
-/

namespace MediaServer.Ref

open MediaServer.Lib

/-- The calls that `addProducer` and `addReceiver` return early for. The
queue's are made for a producer only if it has one. -/
def Registration.succeeds (o : AmqpCalls) : Registration → Bool
  | .producer _ d => o.exchangeDeclare &&
      (d.queueName.length = 0 || o.queueDeclare && o.queueBind)
  | .receiver _ => o.exchangeDeclare && o.queueDeclare && o.queueBind &&
      o.consume

namespace Exchange

variable {o : AmqpCalls} {d : Declaration} {ex : Exchange}

/-- One loop, which takes what is published. -/
def Ready (ex : Exchange) : Prop := ex.loops = 1 ∧ ex.msgChan = true

theorem addProducer_eq (o : AmqpCalls) (s : Slot) (d : Declaration) :
    (create d).addProducer o = if o.channel then
      some (if (Registration.producer s d).succeeds o then ⟨d, true, 1⟩
        else create d) else none := by
  obtain ⟨channel, declare, queue, bind, qos, consume⟩ := o
  by_cases hq : d.queueName.length = 0
  · cases channel <;> cases declare <;>
      simp [addProducer, create, Registration.succeeds, hq]
  · cases channel <;> cases declare <;> cases queue <;> cases bind <;>
      simp [addProducer, create, Registration.succeeds, hq]

theorem addReceiver_eq (o : AmqpCalls) (d : Declaration) :
    (create d).addReceiver o = if o.channel then
      some (if (Registration.receiver d).succeeds o then ⟨d, false, 1⟩
        else create d) else none := by
  obtain ⟨channel, declare, queue, bind, qos, consume⟩ := o
  cases channel <;> cases declare <;> cases queue <;> cases bind <;>
    cases consume <;> simp [addReceiver, create, Registration.succeeds]

/-- The channel was opened, and the exchange is what success or failure makes
of it. -/
theorem added_cases {ok : Bool} {good bad : Exchange}
    (h : (if o.channel then some (if ok then good else bad) else none) =
      some ex) :
    o.channel = true ∧ (ok = true ∧ ex = good ∨ ok = false ∧ ex = bad) := by
  obtain ⟨hchannel, h⟩ := Option.ite_none_right_eq_some.mp h
  refine ⟨hchannel, ?_⟩
  cases ok with
  | true => exact .inl ⟨rfl, (Option.some.inj h).symm⟩
  | false => exact .inr ⟨rfl, (Option.some.inj h).symm⟩

theorem addProducer_ready {s : Slot}
    (h : (create d).addProducer o = some ex) :
    ex.Ready ↔ (Registration.producer s d).succeeds o = true := by
  rw [addProducer_eq o s d] at h
  obtain ⟨-, ⟨hok, rfl⟩ | ⟨hfail, rfl⟩⟩ := added_cases h
  · exact iff_of_true ⟨rfl, rfl⟩ hok
  · refine iff_of_false (fun h => ?_) (Bool.eq_false_iff.mp hfail)
    cases h.1

theorem addReceiver_loops (h : (create d).addReceiver o = some ex) :
    ex.loops = 1 ↔ (Registration.receiver d).succeeds o = true := by
  rw [addReceiver_eq] at h
  obtain ⟨-, ⟨hok, rfl⟩ | ⟨hfail, rfl⟩⟩ := added_cases h
  · exact iff_of_true rfl hok
  · exact iff_of_false Nat.zero_ne_one (Bool.eq_false_iff.mp hfail)

theorem destroyEXC_of_pos (h : 0 < ex.loops) :
    ex.destroyEXC = some { ex with loops := ex.loops - 1 } := if_pos h

end Exchange

namespace Registry

variable {r r' : Registry} {b : Broker} {answers : Nat → AmqpCalls}
variable {n : Nat} {g : Registration} {todo : List Registration} {s : Slot}

/-- Every variable of `b` holds a producer with its loop, and every receiver
has one. -/
structure Running (b : Broker) (r : Registry) : Prop where
  producers : ∀ s ∈ b.slots, ∃ ex, r.slot s = some ex ∧ ex.Ready
  receivers : ∀ ex ∈ r.exs b, ex.loops = 1

/-- Nothing waits for ever: neither a function that publishes to `b` nor the
`Stop` before the next connection. -/
structure Unhindered (b : Broker) (r : Registry) : Prop where
  publish : ∀ f : Publish, f.target = b →
    ∃ ex, r.slot f.slot = some ex ∧ ex.publishes = true
  stop : (r.stop b).isSome = true

/-! ## The loops of a connection -/

theorem register_slot_other {o : AmqpCalls} (h : r.register b o g = some r')
    (hs : g.slot? ≠ some s) : r'.slot s = r.slot s := by
  cases g with
  | producer s' d =>
      obtain ⟨ex, -, rfl⟩ := Option.map_eq_some_iff.mp h
      exact if_neg fun hss => hs (congrArg some hss.symm)
  | receiver d =>
      obtain ⟨ex, -, rfl⟩ := Option.map_eq_some_iff.mp h
      rfl

theorem registerAll_slot_other
    (h : registerAll b answers n todo r = some r')
    (hs : s ∉ todo.filterMap Registration.slot?) : r'.slot s = r.slot s := by
  induction todo generalizing n r with
  | nil => cases h; rfl
  | cons g todo ih =>
      obtain ⟨r₁, hg, hrest⟩ := Option.bind_eq_some_iff.mp h
      rw [List.filterMap_cons] at hs
      cases hg' : g.slot? with
      | none =>
          rw [hg'] at hs
          rw [ih hrest hs, register_slot_other hg (by rw [hg']; exact nofun)]
      | some s' =>
          rw [hg'] at hs
          obtain ⟨hne, hs⟩ := not_or.mp fun h => hs (List.mem_cons.mpr h)
          refine (ih hrest hs).trans (register_slot_other hg fun h => hne ?_)
          exact (Option.some.inj (hg'.symm.trans h)).symm

/-- What a variable holds in the end is what its registration has left. -/
theorem registerAll_slot (h : registerAll b answers n todo r = some r')
    (hnodup : (todo.filterMap Registration.slot?).Nodup) {i : Nat}
    {d : Declaration} (hi : todo[i]? = some (.producer s d)) :
    ∃ ex, r'.slot s = some ex ∧
      (ex.Ready ↔ (Registration.producer s d).succeeds (answers (n + i)) =
        true) := by
  induction todo generalizing n r i with
  | nil => cases hi
  | cons g todo ih =>
      obtain ⟨r₁, hg, hrest⟩ := Option.bind_eq_some_iff.mp h
      cases i with
      | zero =>
          cases hi
          obtain ⟨hlast, -⟩ := List.nodup_cons.mp hnodup
          obtain ⟨ex, hex, rfl⟩ := Option.map_eq_some_iff.mp hg
          refine ⟨ex, ?_, Exchange.addProducer_ready hex⟩
          rw [registerAll_slot_other hrest hlast]
          exact if_pos rfl
      | succ i =>
          have hrest' : (todo.filterMap Registration.slot?).Nodup := by
            rw [List.filterMap_cons] at hnodup
            split at hnodup
            · exact hnodup
            · exact (List.nodup_cons.mp hnodup).2
          have hfound := ih hrest hrest' hi
          rw [Nat.add_right_comm] at hfound
          exact hfound

theorem register_exs {o : AmqpCalls} (h : r.register b o g = some r') :
    (∀ ex ∈ r'.exs b, ex.loops = 1) ↔ (∀ ex ∈ r.exs b, ex.loops = 1) ∧
      (g.slot? = none → g.succeeds o = true) := by
  cases g with
  | producer s d =>
      obtain ⟨ex, -, rfl⟩ := Option.map_eq_some_iff.mp h
      exact ⟨fun h => ⟨h, nofun⟩, And.left⟩
  | receiver d =>
      obtain ⟨ex, hex, rfl⟩ := Option.map_eq_some_iff.mp h
      have hloop := Exchange.addReceiver_loops hex
      simp only [if_true, List.forall_mem_append, List.forall_mem_singleton,
        hloop]
      exact and_congr_right fun _ => ⟨fun h _ => h, fun h => h rfl⟩

/-- The receivers have their loops if those from before have and none of the
new ones has failed. -/
theorem registerAll_exs (h : registerAll b answers n todo r = some r') :
    (∀ ex ∈ r'.exs b, ex.loops = 1) ↔ (∀ ex ∈ r.exs b, ex.loops = 1) ∧
      ∀ i d, todo[i]? = some (.receiver d) →
        (Registration.receiver d).succeeds (answers (n + i)) = true := by
  induction todo generalizing n r with
  | nil =>
      cases h
      exact ⟨fun h => ⟨h, nofun⟩, And.left⟩
  | cons g todo ih =>
      obtain ⟨r₁, hg, hrest⟩ := Option.bind_eq_some_iff.mp h
      rw [ih hrest, register_exs hg]
      constructor
      · intro ⟨⟨hold, hfirst⟩, hlater⟩
        refine ⟨hold, fun i d hi => ?_⟩
        cases i with
        | zero =>
            cases hi
            exact hfirst rfl
        | succ i =>
            have hok := hlater i d hi
            rw [Nat.add_right_comm] at hok
            exact hok
      · intro ⟨hold, hall⟩
        refine ⟨⟨hold, fun hnone => ?_⟩, fun i d hi => ?_⟩
        · cases g with
          | producer s d => cases hnone
          | receiver d => exact hall 0 d rfl
        · rw [Nat.add_right_comm]
          exact hall (i + 1) d hi

theorem registrations_slots (b : Broker) (uuid : String) :
    (b.registrations uuid).filterMap Registration.slot? = b.slots := by
  cases b with
  | _ => rfl

theorem slots_nodup (b : Broker) : b.slots.Nodup := by
  cases b with
  | _ => decide

/-! ## What can be done with them -/

theorem destroySlots_isSome {slots : List Slot} (hnodup : slots.Nodup)
    (hloops : ∀ s ∈ slots, ∀ ex, r.slot s = some ex → 0 < ex.loops) :
    ∃ r', destroySlots slots r = some r' ∧ r'.exs = r.exs := by
  induction slots generalizing r with
  | nil => exact ⟨r, rfl, rfl⟩
  | cons s slots ih =>
      obtain ⟨hs, hnodup⟩ := List.nodup_cons.mp hnodup
      unfold destroySlots
      split
      · exact ih hnodup fun s' hs' => hloops s' (List.mem_cons_of_mem _ hs')
      · next ex hex =>
          have hpos := hloops s List.mem_cons_self ex hex
          rw [Exchange.destroyEXC_of_pos hpos]
          refine ih (r := { r with slot := _ }) hnodup fun s' hs' ex' hex' => ?_
          have hne : s' ≠ s := fun h => hs (h ▸ hs')
          exact hloops s' (List.mem_cons_of_mem _ hs') ex'
            ((if_neg hne).symm.trans hex')

theorem Running.unhindered (h : Running b r) : Unhindered b r where
  publish f hf := by
    have hmem : f.slot ∈ b.slots :=
      Broker.mem_slots.mpr (f.slot_broker.trans hf)
    obtain ⟨ex, hex, hloops, hchan⟩ := h.producers f.slot hmem
    refine ⟨ex, hex, ?_⟩
    rw [Exchange.publishes, hchan, hloops]
    rfl
  stop := by
    obtain ⟨r₁, hr₁, hexs⟩ := destroySlots_isSome (r := r) (slots_nodup b)
      fun s hs ex hex => by
        obtain ⟨ex', hex', hloops, -⟩ := h.producers s hs
        rw [hex'] at hex
        cases hex
        rw [hloops]
        exact Nat.one_pos
    have hall : ((r₁.exs b).all fun ex => ex.destroyEXC.isSome) = true := by
      refine List.all_eq_true.mpr fun ex hex => ?_
      rw [hexs] at hex
      have hpos : 0 < ex.loops := by
        rw [h.receivers ex hex]
        exact Nat.one_pos
      rw [Exchange.destroyEXC_of_pos hpos]
      rfl
    rw [Registry.stop, hr₁, Option.bind_some, if_pos hall]
    rfl

theorem connect_running_iff {uuid : String}
    (h : connect uuid b answers r = some r') :
    Running b r' ↔ (∀ ex ∈ r.exs b, ex.loops = 1) ∧
      ∀ (i : Nat) (g : Registration), (b.registrations uuid)[i]? = some g →
        g.succeeds (answers i) = true := by
  obtain ⟨r₁, hr₁, rfl⟩ := Option.map_eq_some_iff.mp h
  have hslots := registrations_slots b uuid
  have hnodup : ((b.registrations uuid).filterMap Registration.slot?).Nodup :=
    hslots ▸ slots_nodup b
  have hexs := registerAll_exs hr₁
  have hslot := fun i s d hi =>
    registerAll_slot (i := i) (s := s) (d := d) hr₁ hnodup hi
  simp only [Nat.zero_add] at hexs hslot
  constructor
  · intro hrun
    obtain ⟨hold, hreceivers⟩ := hexs.mp hrun.receivers
    refine ⟨hold, fun i g hi => ?_⟩
    cases g with
    | producer s d =>
        have hs : s ∈ b.slots := by
          rw [← hslots]
          exact List.mem_filterMap.mpr ⟨_, List.mem_of_getElem? hi, rfl⟩
        obtain ⟨ex, hex, hready⟩ := hslot i s d hi
        obtain ⟨ex', hex', hready'⟩ := hrun.producers s hs
        cases hex.symm.trans hex'
        exact hready.mp hready'
    | receiver d => exact hreceivers i d hi
  · intro ⟨hold, hall⟩
    refine ⟨fun s hs => ?_, hexs.mpr ⟨hold, fun i d hi => hall i _ hi⟩⟩
    rw [← hslots] at hs
    obtain ⟨g, hg, hgs⟩ := List.mem_filterMap.mp hs
    obtain ⟨i, hi⟩ := List.mem_iff_getElem?.mp hg
    cases g with
    | producer s' d =>
        cases hgs
        obtain ⟨ex, hex, hready⟩ := hslot i s d hi
        exact ⟨ex, hex, hready.mpr (hall i _ hi)⟩
    | receiver d => cases hgs

/-- Once the flag is set: every exchange of the broker has its loop, and so
nobody waits for ever, exactly if the receivers that were there before have
theirs and no call has failed but a `Qos`. -/
theorem connected_running_iff {uuid : String}
    (h : connect uuid b answers r = some r') :
    r'.connected b = true ∧
    (Running b r' ∧ Unhindered b r' ↔ (∀ ex ∈ r.exs b, ex.loops = 1) ∧
      ∀ (i : Nat) (g : Registration), (b.registrations uuid)[i]? = some g →
        g.succeeds (answers i) = true) := by
  constructor
  · obtain ⟨r₁, -, rfl⟩ := Option.map_eq_some_iff.mp h
    exact if_pos rfl
  · rw [← connect_running_iff h]
    exact ⟨And.left, fun hrun => ⟨hrun, hrun.unhindered⟩⟩

/-- As `InterClusterStartup` and `CrossClusterStartup` leave it. -/
def startup : Registry := ⟨fun _ => none, fun _ => [], fun _ => false⟩

/-- All calls succeed but the `Qos` of one receiver. -/
def qosFails (i : Nat) : AmqpCalls := ⟨true, true, true, true, i ≠ 2, true⟩

theorem qosFails_succeeds (g : Registration) (i : Nat) :
    g.succeeds (qosFails i) = true := by
  cases g with
  | _ => simp [Registration.succeeds, qosFails]

theorem running_qosFails :
    ∃ r, connect "ms1" .cluster qosFails startup = some r ∧
      Running .cluster r ∧ Unhindered .cluster r := by
  have hconnects : (connect "ms1" .cluster qosFails startup).isSome := by decide
  obtain ⟨r, hr⟩ := Option.isSome_iff_exists.mp hconnects
  exact ⟨r, hr, (connected_running_iff hr).2.mpr
    ⟨nofun, fun i g _ => qosFails_succeeds g i⟩⟩

/-- All calls succeed but the `ExchangeDeclare` of `exc_proxy_bc`. -/
def proxyUndeclared (i : Nat) : AmqpCalls :=
  ⟨true, i ≠ 3, true, true, true, true⟩

/-- The flag is set, and both a message to the proxy and the `Stop` before the
next connection wait for ever. -/
theorem undeclared_blocks :
    ∃ r, connect "ms1" .cluster proxyUndeclared startup = some r ∧
      r.connected .cluster = true ∧ ¬Running .cluster r ∧
      (∃ ex, r.slot .excProxyBc = some ex ∧ ex.loops = 0 ∧
        ex.publishes = false) ∧
      r.stop .cluster = none := by
  have h : (connect "ms1" .cluster proxyUndeclared startup).map (fun r =>
      (r.connected .cluster, r.slot .excProxyBc, (r.stop .cluster).isNone)) =
      some (true, some (Exchange.create
        ⟨"udpProxy", "fanout", "", "broadcast", "ad"⟩), true) := by decide
  obtain ⟨r, hr, hfacts⟩ := Option.map_eq_some_iff.mp h
  simp only [Prod.mk.injEq] at hfacts
  obtain ⟨hflag, hslot, hstop⟩ := hfacts
  refine ⟨r, hr, hflag, fun hrun => ?_, ⟨_, hslot, rfl, rfl⟩,
    Option.isNone_iff_eq_none.mp hstop⟩
  obtain ⟨ex, hex, hready⟩ := hrun.producers .excProxyBc (by decide)
  cases hslot.symm.trans hex
  cases hready.1

/-! ## The goroutine that registers -/

end Registry

def Registration.decl : Registration → Declaration
  | .producer _ d | .receiver d => d

/-- The one answer that stands for those to the calls of a registration. -/
def Registration.outcome (o : AmqpCalls) (g : Registration) : Amqp :=
  if !o.channel then .noChannel
  else if g.succeeds o then .ok
  else .refused

/-- What both models say of an exchange. -/
def Exchange.sight (ex : Exchange) : Declaration × Bool :=
  (ex.decl, decide (ex.loops = 1))

def Rmq.sight (l : Rmq) (x : ExcRef) : Declaration × Bool :=
  ((l.exc x).decl, (l.exc x).loop)

/-- An exchange is stored where its registration says. -/
def Registry.store (b : Broker) (g : Registration) (ex : Exchange)
    (r : Registry) : Registry :=
  match g with
  | .producer s _ =>
      { r with slot := fun i => if i = s then some ex else r.slot i }
  | .receiver _ =>
      { r with exs := fun i => if i = b then r.exs i ++ [ex] else r.exs i }

def Rmq.store (l : Rmq) (b : Broker) (g : Registration) (e : QueueExchange) :
    Rmq :=
  match g with
  | .producer s _ =>
      { l with
        heap := l.heap.alloc e
        slot := fun i => if i = s then some l.heap.next else l.slot i }
  | .receiver _ =>
      { l with heap := l.heap.alloc e }.setLink b
        fun k => { k with exs := k.exs ++ [l.heap.next] }

section Refines

variable {l : Rmq} {r r' : Registry} {b : Broker} {c : ConnRef}
variable {o : AmqpCalls} {g : Registration}

theorem Registry.register_eq_store (h : r.register b o g = some r') :
    ∃ ex, r' = r.store b g ex ∧ ex.sight = (g.decl, g.succeeds o) ∧
      o.channel = true := by
  cases g with
  | producer s d =>
      obtain ⟨ex, hex, rfl⟩ := Option.map_eq_some_iff.mp h
      rw [Exchange.addProducer_eq o s d] at hex
      obtain ⟨hchannel, ⟨hok, rfl⟩ | ⟨hok, rfl⟩⟩ := Exchange.added_cases hex
      · exact ⟨_, rfl, by rw [hok]; rfl, hchannel⟩
      · exact ⟨_, rfl, by rw [hok]; rfl, hchannel⟩
  | receiver d =>
      obtain ⟨ex, hex, rfl⟩ := Option.map_eq_some_iff.mp h
      rw [Exchange.addReceiver_eq] at hex
      obtain ⟨hchannel, ⟨hok, rfl⟩ | ⟨hok, rfl⟩⟩ := Exchange.added_cases hex
      · exact ⟨_, rfl, by rw [hok]; rfl, hchannel⟩
      · exact ⟨_, rfl, by rw [hok]; rfl, hchannel⟩

theorem Rmq.register_eq_store (hc : (l.link b).conn = some c)
    (ho : o.channel = true) :
    l.register b (g.outcome o) g =
      l.store b g (createQueueExchange b c g.decl (g.succeeds o)) := by
  unfold Registration.outcome
  rw [ho]
  cases hok : g.succeeds o with
  | true => cases g <;> simp [Rmq.register, Rmq.store, hc, Registration.decl]
  | false => cases g <;> simp [Rmq.register, Rmq.store, hc, Registration.decl]

/-- Both models have the same exchanges in the same places. -/
structure Agrees (b : Broker) (l : Rmq) (r : Registry) : Prop where
  slot : ∀ s, s.broker = b →
    (l.slot s).map l.sight = (r.slot s).map Exchange.sight
  exs : (l.link b).exs.map l.sight = (r.exs b).map Exchange.sight

theorem Rmq.store_sight (l : Rmq) (b : Broker) (g : Registration)
    (e : QueueExchange) :
    (l.store b g e).sight l.heap.next = (e.decl, e.loop) ∧
      ∀ x < l.heap.next, (l.store b g e).sight x = l.sight x := by
  have hheap : (l.store b g e).heap = l.heap.alloc e := by
    cases g with
    | _ => rfl
  constructor
  · rw [Rmq.sight, Rmq.exc, hheap, Heap.alloc_cell_next]
  · intro x hx
    rw [Rmq.sight, Rmq.exc, hheap, l.alloc_exc e hx]
    rfl

theorem Agrees.store {e : QueueExchange} {ex : Exchange} (h : Agrees b l r)
    (hl : l.Stocked) (hsight : ex.sight = (e.decl, e.loop)) :
    Agrees b (l.store b g e) (r.store b g ex) := by
  obtain ⟨hnew, hold⟩ := l.store_sight b g e
  have hslot : ∀ s, s.broker = b → (l.slot s).map (l.store b g e).sight =
      (r.slot s).map Exchange.sight := by
    intro s hs
    rw [← h.slot s hs]
    cases hx : l.slot s with
    | none => rfl
    | some x => exact congrArg some (hold x (hl.own s x hx).1)
  have hexs : (l.link b).exs.map (l.store b g e).sight =
      (r.exs b).map Exchange.sight := by
    rw [← h.exs]
    exact List.map_congr_left fun x hx => hold x (hl.apart b x hx).1
  cases g with
  | producer s d =>
      refine ⟨fun i hi => ?_, hexs⟩
      simp only [Rmq.store, Registry.store]
      split
      · exact congrArg some (hnew.trans hsight.symm)
      · exact hslot i hi
  | receiver d =>
      refine ⟨hslot, ?_⟩
      simp only [Rmq.store, Rmq.setLink, Registry.store, if_true,
        List.map_append, List.map_cons, List.map_nil]
      rw [hsight, ← hnew]
      exact congrArg (· ++ _) hexs

theorem Rmq.store_rest (l : Rmq) (b : Broker) (g : Registration)
    (e : QueueExchange) :
    (l.store b g e).fatal = l.fatal ∧
      ((l.store b g e).link b).conn = (l.link b).conn := by
  cases g with
  | producer s d => exact ⟨rfl, rfl⟩
  | receiver d =>
      simp only [Rmq.store]
      exact ⟨rfl, by rw [Rmq.setLink_self]⟩

/-- The turns of the goroutine that registers, from the `n`-th registration
on. -/
def registerRun (answers : Nat → AmqpCalls) :
    Nat → List Registration → List RmqSched.Act
  | _, [] => []
  | n, g :: todo =>
      .turn 0 (g.outcome (answers n)) :: registerRun answers (n + 1) todo

theorem registerAll_refines {answers : Nat → AmqpCalls} {n : Nat}
    {todo : List Registration} (h : Agrees b l r) (hl : l.Stocked)
    (hf : l.fatal = false) (hc : (l.link b).conn = some c)
    (hown : ∀ s ∈ todo.filterMap Registration.slot?, s.broker = b)
    (hr : Registry.registerAll b answers n todo r = some r') :
    ∃ l', run RmqSched.step (registerRun answers n todo)
        ⟨l, [.register b todo]⟩ = some ⟨l', [.register b []]⟩ ∧
      Agrees b l' r' ∧ l'.fatal = false := by
  induction todo generalizing n l r with
  | nil =>
      cases hr
      exact ⟨l, rfl, h, hf⟩
  | cons g todo ih =>
      obtain ⟨r₁, hg, hrest⟩ := Option.bind_eq_some_iff.mp hr
      obtain ⟨ex, rfl, hsight, hchannel⟩ := Registry.register_eq_store hg
      have hstore := Rmq.register_eq_store (g := g) hc hchannel
      obtain ⟨hfatal, hconn⟩ := l.store_rest b g
        (Rmq.createQueueExchange b c g.decl (g.succeeds (answers n)))
      have hfirst : ∀ s, g.slot? = some s → s.broker = b := fun s hs =>
        hown s (by rw [List.filterMap_cons, hs]; exact List.mem_cons_self)
      have hlater : ∀ s ∈ todo.filterMap Registration.slot?,
          s.broker = b := by
        intro s hs
        refine hown s ?_
        rw [List.filterMap_cons]
        split
        · exact hs
        · exact List.mem_cons_of_mem _ hs
      have hstocked := hl.register (o := g.outcome (answers n)) hfirst
      rw [hstore] at hstocked
      have hturn : RmqSched.step (.turn 0 (g.outcome (answers n)))
          ⟨l, [.register b (g :: todo)]⟩ =
            some ⟨l.store b g (Rmq.createQueueExchange b c g.decl
              (g.succeeds (answers n))), [.register b todo]⟩ := by
        rw [← hstore]
        simp [RmqSched.step, hf, Threads.turn, Rmq.exec, Threads.resume]
      rw [registerRun, run, hturn]
      exact ih (h.store hl hsight) hstocked (hfatal.trans hf)
        (hconn.trans hc) hlater hrest

/-- The goroutine that registers, run alone from its first registration to the
flag, leaves the exchanges that the connect function leaves. -/
theorem connect_refines {answers : Nat → AmqpCalls} (h : Agrees b l r)
    (hl : l.Stocked) (hf : l.fatal = false) (hc : (l.link b).conn = some c)
    (hr : Registry.connect l.uuid b answers r = some r') :
    ∃ l', run RmqSched.step
        (registerRun answers 0 (b.registrations l.uuid) ++ [.turn 0 .ok])
        ⟨l, [.register b (b.registrations l.uuid)]⟩ = some ⟨l', []⟩ ∧
      Agrees b l' r' ∧ (l'.link b).connected = true := by
  obtain ⟨r₁, hr₁, rfl⟩ := Option.map_eq_some_iff.mp hr
  have hown : ∀ s ∈ (b.registrations l.uuid).filterMap Registration.slot?,
      s.broker = b := by
    rw [Registry.registrations_slots]
    exact fun s hs => Broker.mem_slots.mp hs
  obtain ⟨l₁, hrun, hagrees, hf₁⟩ :=
    registerAll_refines h hl hf hc hown hr₁
  have hflag : RmqSched.step (.turn 0 .ok) ⟨l₁, [.register b []]⟩ =
      some ⟨l₁.setLink b fun k => { k with connected := true }, []⟩ := by
    simp [RmqSched.step, hf₁, Threads.turn, Rmq.exec, Threads.resume]
  refine ⟨l₁.setLink b fun k => { k with connected := true }, ?_,
    ⟨hagrees.slot, ?_⟩, ?_⟩
  · rw [run_append, hrun, Option.bind_some, run, hflag]
    rfl
  · rw [Rmq.setLink_self]
    exact hagrees.exs
  · rw [Rmq.setLink_self]

end Refines

end MediaServer.Ref
