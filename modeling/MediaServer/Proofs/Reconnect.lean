import MediaServer.Ref.Rmq

/-!
# The retry timers

The goroutine of a retry timer starts a dial when the timer fires and then
waits for an exit token. The dial sends that token, waits for the goroutine to
be gone and has the next one launched: itself if it failed, or, if it
succeeded, by the goroutine that watches the connection.

So the right to launch is handed on: a timer that has not fired has it, then
the dial, then whoever waits in `cancelRetryTimer`, then the watcher of the
connection, then the goroutine that stops what the lost connection has left
behind. Nobody has it twice, and it may get lost: a watcher that comes too
late is told nothing, and `destroyEXC` may block. The invariant counts who has
it, and the tokens against the goroutines whose timers have fired.

The account of the launches needs no more than that. Nothing in it depends on
who stops a broker.
-/

namespace MediaServer.Ref

open MediaServer.Lib

namespace RmqPc

/-- The goroutine is going to dial. -/
def dials (b : Broker) : RmqPc → Bool
  | .dial b' => b' = b
  | _ => false

/-- The goroutine is in `cancelRetryTimer`. -/
def cancels (b : Broker) : RmqPc → Bool
  | .dialed b' _ => b' = b
  | _ => false

/-- The goroutine stops what a lost connection has left behind. -/
def relaunches (b : Broker) : RmqPc → Bool
  | .closed b' => b' = b
  | .stop b' _ again | .stopExs b' _ again | .closeConn b' again =>
      again && b' = b
  | _ => false

end RmqPc

def Watcher.watches (b : Broker) (w : Watcher) : Bool := w.broker = b

namespace Rmq

variable {l l' : Rmq} {b b' : Broker}

def watching (l : Rmq) (b : Broker) : Nat :=
  l.watchers.countP (Watcher.watches b)

/-- The retry timers of `b` are left alone, and nobody watches it anew. -/
structure SameTimers (b : Broker) (l l' : Rmq) : Prop where
  armed : (l'.link b).armed = (l.link b).armed
  fired : (l'.link b).fired = (l.link b).fired
  tokens : (l'.link b).tokens = (l.link b).tokens
  watching : l'.watching b ≤ l.watching b

theorem SameTimers.of_eq (hlink : l'.link b = l.link b)
    (hwatch : l'.watchers = l.watchers) : SameTimers b l l' := by
  refine ⟨?_, ?_, ?_, ?_⟩
  · rw [hlink]
  · rw [hlink]
  · rw [hlink]
  · rw [Rmq.watching, Rmq.watching, hwatch]

theorem SameTimers.trans {l'' : Rmq} (h : SameTimers b l l')
    (h' : SameTimers b l' l'') : SameTimers b l l'' :=
  ⟨h'.armed.trans h.armed, h'.fired.trans h.fired, h'.tokens.trans h.tokens,
    Nat.le_trans h'.watching h.watching⟩

/-- A change of one link that leaves its timers alone. -/
theorem setLink_sameTimers {f : Link → Link}
    (hf : ∀ k, (f k).armed = k.armed ∧ (f k).fired = k.fired ∧
      (f k).tokens = k.tokens) : SameTimers b l (l.setLink b' f) := by
  by_cases hb : b = b'
  · subst hb
    obtain ⟨ha, hfired, ht⟩ := hf (l.link b)
    rw [← setLink_self l b f] at ha hfired ht
    exact ⟨ha, hfired, ht, Nat.le_refl _⟩
  · exact .of_eq (setLink_other hb) rfl

theorem register_sameTimers (l : Rmq) (b' : Broker) (o : Amqp)
    (g : Registration) : SameTimers b l (l.register b' o g) := by
  unfold Rmq.register
  split
  · exact .of_eq rfl rfl
  · exact .of_eq rfl rfl
  · cases g with
    | producer s d => exact .of_eq rfl rfl
    | receiver d =>
        refine SameTimers.trans ?_
          (setLink_sameTimers fun _ => ⟨rfl, rfl, rfl⟩)
        exact .of_eq rfl rfl

theorem filter_watching (p : Watcher → Bool) (l : List Watcher) :
    (l.filter p).countP (Watcher.watches b) ≤ l.countP (Watcher.watches b) :=
  List.filter_sublist.countP_le

theorem closeConn_sameTimers (l : Rmq) (b' : Broker) :
    SameTimers b l (l.closeConn b') := by
  unfold Rmq.closeConn
  split
  · exact .of_eq rfl rfl
  · next c _ =>
      have hdown : SameTimers b l { l with
          down := c :: l.down
          watchers := l.watchers.filter (·.conn ≠ some c) } :=
        ⟨rfl, rfl, rfl, filter_watching _ _⟩
      exact hdown.trans (setLink_sameTimers fun _ => ⟨rfl, rfl, rfl⟩)

theorem send_sameTimers {f : Publish} (h : l.send f = some l') :
    SameTimers b l l' := by
  unfold Rmq.send at h
  split at h
  · cases h
    exact .of_eq rfl rfl
  · split at h
    · cases h
      exact .of_eq rfl rfl
    · cases h

/-! ## What a block does about the timers of one broker -/

/-- A block of the goroutine at `k`: it hands nothing on, or drops it; it
sends the token; it has connected, and a watcher takes over; or it launches
the next timer. -/
inductive Hands (b : Broker) (k : RmqPc) (l l' : Rmq) (next : Option RmqPc) :
    Prop where
  | nothing (same : SameTimers b l l')
      (dials : next.toList.countP (RmqPc.dials b) = [k].countP (RmqPc.dials b))
      (cancels : next.toList.countP (RmqPc.cancels b) =
        [k].countP (RmqPc.cancels b))
      (relaunches : next.toList.countP (RmqPc.relaunches b) ≤
        [k].countP (RmqPc.relaunches b))
  | token (ok : Bool) (place : k = .dial b)
      (hnext : next = some (.dialed b ok))
      (armed : (l'.link b).armed = (l.link b).armed)
      (fired : (l'.link b).fired = (l.link b).fired)
      (tokens : (l'.link b).tokens = (l.link b).tokens + 1)
      (watching : l'.watching b = l.watching b)
  | watcher (todo : List Registration) (place : k = .dialed b true)
      (gone : (l.link b).armed + (l.link b).fired = 0)
      (hnext : next = some (.register b todo)) (link : l'.link b = l.link b)
      (watching : l'.watching b = l.watching b + 1)
  | launch (hnext : next = none)
      (place : k = .dialed b false ∧ (l.link b).armed + (l.link b).fired = 0 ∨
        k = .closeConn b true)
      (armed : (l'.link b).armed = (l.link b).armed + 1)
      (fired : (l'.link b).fired = (l.link b).fired)
      (tokens : (l'.link b).tokens = (l.link b).tokens)
      (watching : l'.watching b ≤ l.watching b)

variable {k : RmqPc} {next : Option RmqPc} {o : Amqp}

/-- A goroutine that has to do with another broker, or with none, ends. -/
theorem Hands.ends (same : SameTimers b l l')
    (hk : k.dials b = false ∧ k.cancels b = false) : Hands b k l l' none := by
  refine .nothing same ?_ ?_ (Nat.zero_le _)
  · simp [hk.1]
  · simp [hk.2]

/-- Such a goroutine goes on, as one that may launch only if it could. -/
theorem Hands.goes {k' : RmqPc} (same : SameTimers b l l')
    (hk : k.dials b = false ∧ k.cancels b = false)
    (hnext : k'.dials b = false ∧ k'.cancels b = false ∧
      (k'.relaunches b = true → k.relaunches b = true)) :
    Hands b k l l' (some k') := by
  obtain ⟨hd, hc, hr⟩ := hnext
  refine .nothing same ?_ ?_ ?_
  · simp [hk.1, hd]
  · simp [hk.2, hc]
  · cases hre : k'.relaunches b with
    | false => simp [hre]
    | true => simp [hre, hr hre]

theorem launch_link (l : Rmq) (b : Broker) :
    (l.launchRetryTimer b).link b =
      { l.link b with armed := (l.link b).armed + 1 } :=
  setLink_self l b _

theorem afterDestroy_quiet (x : ExcRef)
    (hk : k.dials b = false ∧ k.cancels b = false) :
    (l.afterDestroy x k).dials b = false ∧
      (l.afterDestroy x k).cancels b = false ∧
      ((l.afterDestroy x k).relaunches b = true → k.relaunches b = true) := by
  unfold Rmq.afterDestroy
  split
  · exact ⟨hk.1, hk.2, id⟩
  · exact ⟨rfl, rfl, nofun⟩

theorem dial_hands (l : Rmq) (b' : Broker) (ok : Bool) :
    Hands b (.dial b') l (l.dial b' ok) (some (.dialed b' ok)) := by
  have hwatch : (l.dial b' ok).watchers = l.watchers := by
    unfold Rmq.dial
    cases ok with
    | _ => rfl
  by_cases hb : b = b'
  · subst hb
    have hlink : ∃ c, (l.dial b ok).link b =
        { l.link b with conn := c, tokens := (l.link b).tokens + 1 } := by
      unfold Rmq.dial
      cases ok with
      | _ => exact ⟨_, setLink_self _ b _⟩
    obtain ⟨c, hlink⟩ := hlink
    refine .token ok rfl rfl ?_ ?_ ?_ ?_
    · rw [hlink]
    · rw [hlink]
    · rw [hlink]
    · rw [Rmq.watching, Rmq.watching, hwatch]
  · have hlink : (l.dial b' ok).link b = l.link b := by
      unfold Rmq.dial
      cases ok with
      | _ => exact setLink_other hb
    have hne : ¬b' = b := fun h => hb h.symm
    refine .nothing (.of_eq hlink hwatch) ?_ ?_ ?_
    · simp [RmqPc.dials, hne]
    · simp [RmqPc.cancels, hne]
    · simp [RmqPc.relaunches]

theorem dialed_hands {ok : Bool}
    (h : Rmq.exec o (.dialed b' ok) l = some (l', next)) :
    Hands b (.dialed b' ok) l l' next := by
  simp only [Rmq.exec] at h
  split at h
  · next hgone =>
      by_cases hb : b' = b
      · subst hb
        cases ok with
        | true =>
            cases h
            refine .watcher _ rfl hgone rfl rfl ?_
            simp [Rmq.watching, Watcher.watches]
        | false =>
            cases h
            refine .launch rfl (.inl ⟨rfl, hgone⟩) ?_ ?_ ?_ (Nat.le_refl _)
            · rw [launch_link]
            · rw [launch_link]
            · rw [launch_link]
      · have hk : (RmqPc.dialed b' ok).dials b = false ∧
            (RmqPc.dialed b' ok).cancels b = false :=
          ⟨rfl, decide_eq_false hb⟩
        cases ok with
        | true =>
            cases h
            refine .goes ⟨rfl, rfl, rfl, ?_⟩ hk ⟨rfl, rfl, nofun⟩
            simp [Rmq.watching, Watcher.watches, hb]
        | false =>
            cases h
            exact .ends (.of_eq (setLink_other fun h => hb h.symm) rfl) hk
  · cases h

theorem closeConn_hands (l : Rmq) (b' : Broker) (again : Bool) :
    Hands b (.closeConn b' again) l (if again then
      (l.closeConn b').launchRetryTimer b' else l.closeConn b') none := by
  have hclose := closeConn_sameTimers (b := b) l b'
  cases again with
  | false => exact .ends hclose ⟨rfl, rfl⟩
  | true =>
      rw [if_pos rfl]
      by_cases hb : b = b'
      · subst hb
        refine .launch rfl (.inr rfl) ?_ ?_ ?_ hclose.watching
        · rw [launch_link, hclose.armed]
        · rw [launch_link, hclose.fired]
        · rw [launch_link, hclose.tokens]
      · refine .ends (hclose.trans ?_) ⟨rfl, rfl⟩
        exact .of_eq (setLink_other hb) rfl

theorem exec_hands (h : Rmq.exec o k l = some (l', next)) :
    Hands b k l l' next := by
  cases k with
  | dial b' =>
      cases h
      exact dial_hands l b' _
  | dialed b' ok => exact dialed_hands h
  | register b' todo =>
      cases todo with
      | nil =>
          cases h
          exact .ends (setLink_sameTimers fun _ => ⟨rfl, rfl, rfl⟩) ⟨rfl, rfl⟩
      | cons g todo =>
          cases h
          exact .goes (register_sameTimers l b' o g) ⟨rfl, rfl⟩
            ⟨rfl, rfl, nofun⟩
  | closed b' =>
      cases h
      exact .goes (setLink_sameTimers fun _ => ⟨rfl, rfl, rfl⟩) ⟨rfl, rfl⟩
        ⟨rfl, rfl, id⟩
  | stop b' todo again =>
      cases todo with
      | nil =>
          cases h
          exact .goes (.of_eq rfl rfl) ⟨rfl, rfl⟩ ⟨rfl, rfl, id⟩
      | cons s todo =>
          simp only [Rmq.exec] at h
          split at h
          · cases h
            exact .goes (.of_eq rfl rfl) ⟨rfl, rfl⟩ ⟨rfl, rfl, id⟩
          · next x _ =>
              cases h
              exact .goes (.of_eq rfl rfl) ⟨rfl, rfl⟩
                (afterDestroy_quiet (k := .stop b' todo again) x ⟨rfl, rfl⟩)
  | stopExs b' todo again =>
      cases todo with
      | nil =>
          cases h
          exact .goes (setLink_sameTimers fun _ => ⟨rfl, rfl, rfl⟩)
            ⟨rfl, rfl⟩ ⟨rfl, rfl, id⟩
      | cons x todo =>
          cases h
          exact .goes (.of_eq rfl rfl) ⟨rfl, rfl⟩
            (afterDestroy_quiet (k := .stopExs b' todo again) x ⟨rfl, rfl⟩)
  | closeConn b' again =>
      cases h
      exact closeConn_hands l b' again
  | blocked => cases h
  | publish f =>
      cases h
      split
      · exact .goes (.of_eq rfl rfl) ⟨rfl, rfl⟩ ⟨rfl, rfl, nofun⟩
      · exact .ends (.of_eq rfl rfl) ⟨rfl, rfl⟩
  | send f =>
      obtain ⟨l'', hs, he⟩ := Option.map_eq_some_iff.mp h
      cases he
      exact .ends (send_sameTimers hs) ⟨rfl, rfl⟩

end Rmq

namespace RmqSched

variable {t u : RmqSched} {a : Act} {b : Broker}

/-! ## The invariant -/

def dialing (t : RmqSched) (b : Broker) : Nat :=
  t.threads.countP (RmqPc.dials b)

def cancelling (t : RmqSched) (b : Broker) : Nat :=
  t.threads.countP (RmqPc.cancels b)

def relaunching (t : RmqSched) (b : Broker) : Nat :=
  t.threads.countP (RmqPc.relaunches b)

/-- One at most may launch the next timer. A timer that has fired has a dial
that has not sent its token yet, or the token; and who sent a token waits. -/
structure Relay (b : Broker) (t : RmqSched) : Prop where
  one : (t.shared.link b).armed + t.dialing b + t.cancelling b +
    t.relaunching b + t.shared.watching b ≤ 1
  fired : (t.shared.link b).fired = t.dialing b + (t.shared.link b).tokens
  tokens : (t.shared.link b).tokens ≤ t.cancelling b

/-- What the counts of a run are made of: a timer that is launched, and one
that fires. -/
def Act.attempts (b : Broker) : Act → Nat
  | .fire b' => if b' = b then 1 else 0
  | _ => 0

/-- A retry timer of `b` is launched. -/
def launches (b : Broker) (t u : RmqSched) : Bool :=
  (t.shared.link b).armed < (u.shared.link b).armed

/-- What a step does to the invariant and to the account of the launches. -/
structure Relays (b : Broker) (a : Act) (t u : RmqSched) : Prop where
  relay : Relay b u
  account : (u.shared.link b).armed + a.attempts b =
    (t.shared.link b).armed + if launches b t u then 1 else 0

theorem init_relay (uuid : String) (b : Broker) : Relay b (init uuid) :=
  ⟨Nat.le_refl _, rfl, Nat.le_refl _⟩

theorem account_same (ha : a.attempts b = 0)
    (h : (u.shared.link b).armed = (t.shared.link b).armed) :
    (u.shared.link b).armed + a.attempts b =
      (t.shared.link b).armed + if launches b t u then 1 else 0 := by
  simp [launches, h, ha]

/-- The timers are the same, and nobody has come by the right to launch one
but from somebody who has lost it. -/
theorem Relay.same (h : Relay b t) (ha : a.attempts b = 0)
    (hsame : t.shared.SameTimers b u.shared)
    (hd : u.dialing b = t.dialing b) (hc : u.cancelling b = t.cancelling b)
    (hr : u.relaunching b + u.shared.watching b ≤
      t.relaunching b + t.shared.watching b) : Relays b a t u := by
  obtain ⟨harmed, hfired, htokens, -⟩ := hsame
  obtain ⟨hone, hf, ht⟩ := h
  refine ⟨⟨?_, ?_, ?_⟩, account_same ha harmed⟩
  · omega
  · omega
  · omega

/-- A turn is one block, and the counts change as the place of its thread
does. -/
theorem turn_counts {i : Nat} {o : Amqp} (b : Broker)
    (hs : t.turn (Rmq.exec o) i = some u) :
    ∃ k l next, Rmq.exec o k t.shared = some (l, next) ∧ u.shared = l ∧
      u.dialing b + [k].countP (RmqPc.dials b) =
        t.dialing b + next.toList.countP (RmqPc.dials b) ∧
      u.cancelling b + [k].countP (RmqPc.cancels b) =
        t.cancelling b + next.toList.countP (RmqPc.cancels b) ∧
      u.relaunching b + [k].countP (RmqPc.relaunches b) =
        t.relaunching b + next.toList.countP (RmqPc.relaunches b) := by
  obtain ⟨k, l, next, hk, hexec, rfl⟩ := Threads.turn_eq_some hs
  exact ⟨k, l, next, hexec, Threads.resume_shared .., Threads.countP_resume hk,
    Threads.countP_resume hk, Threads.countP_resume hk⟩

theorem turn_relays {i : Nat} {o : Amqp} (h : Relay b t)
    (hs : t.turn (Rmq.exec o) i = some u) : Relays b (.turn i o) t u := by
  obtain ⟨k, l, next, hexec, hshared, hdials, hcancels, hrelaunches⟩ :=
    turn_counts b hs
  obtain ⟨hone, hf, ht⟩ := id h
  subst hshared
  cases Rmq.exec_hands (b := b) hexec with
  | nothing same dials cancels relaunches =>
      have hwatch := same.watching
      refine h.same rfl same ?_ ?_ ?_
      · omega
      · omega
      · omega
  | token ok place hnext armed fired tokens watching =>
      subst place hnext
      simp [RmqPc.dials] at hdials
      simp [RmqPc.cancels] at hcancels
      simp [RmqPc.relaunches] at hrelaunches
      refine ⟨⟨?_, ?_, ?_⟩, account_same rfl armed⟩
      · omega
      · omega
      · omega
  | watcher todo place gone hnext link watching =>
      subst place hnext
      simp [RmqPc.dials] at hdials
      simp [RmqPc.cancels] at hcancels
      simp [RmqPc.relaunches] at hrelaunches
      refine ⟨⟨?_, ?_, ?_⟩, account_same rfl (by rw [link])⟩
      · rw [link]
        omega
      · rw [link]
        omega
      · rw [link]
        omega
  | launch hnext place armed fired tokens watching =>
      subst hnext
      -- the right to launch is given up for a timer that has not fired
      have hgiven : u.dialing b = t.dialing b ∧
          u.cancelling b + u.relaunching b + 1 =
            t.cancelling b + t.relaunching b ∧
          (t.shared.link b).tokens ≤ u.cancelling b := by
        rcases place with ⟨rfl, gone⟩ | rfl
        · simp [RmqPc.dials] at hdials
          simp [RmqPc.cancels] at hcancels
          simp [RmqPc.relaunches] at hrelaunches
          omega
        · simp [RmqPc.dials] at hdials
          simp [RmqPc.cancels] at hcancels
          simp [RmqPc.relaunches] at hrelaunches
          omega
      refine ⟨⟨?_, ?_, ?_⟩, ?_⟩
      · omega
      · omega
      · omega
      · simp [launches, armed, Act.attempts]

/-! ## The other steps -/

theorem start_counts (t : RmqSched) (k : RmqPc) :
    dialing (t.start k) b = t.dialing b + [k].countP (RmqPc.dials b) ∧
    cancelling (t.start k) b = t.cancelling b + [k].countP (RmqPc.cancels b) ∧
    relaunching (t.start k) b =
      t.relaunching b + [k].countP (RmqPc.relaunches b) :=
  ⟨List.countP_append, List.countP_append, List.countP_append⟩

theorem Relay.start (h : Relay b t) (ha : a.attempts b = 0) {k : RmqPc}
    (hd : k.dials b = false) (hc : k.cancels b = false)
    (hr : k.relaunches b = false) : Relays b a t (t.start k) := by
  obtain ⟨hdials, hcancels, hrelaunches⟩ := start_counts (b := b) t k
  simp [hd] at hdials
  simp [hc] at hcancels
  simp [hr] at hrelaunches
  refine h.same ha (.of_eq rfl rfl) hdials hcancels ?_
  rw [hrelaunches]
  exact Nat.le_refl _

/-- A step that changes one link and no goroutine's place. -/
theorem Relay.setLink {b' : Broker} {f : Link → Link} (h : Relay b t)
    (ha : a.attempts b = 0)
    (hself : b' = b → (f (t.shared.link b)).armed = (t.shared.link b).armed ∧
      (f (t.shared.link b)).fired + (t.shared.link b).tokens =
        (t.shared.link b).fired + (f (t.shared.link b)).tokens ∧
      (f (t.shared.link b)).tokens ≤ (t.shared.link b).tokens) :
    Relays b a t { t with shared := t.shared.setLink b' f } := by
  by_cases hb : b' = b
  · obtain ⟨harmed, hfired, htokens⟩ := hself hb
    obtain ⟨hone, hf, ht⟩ := h
    subst hb
    rw [← Rmq.setLink_self t.shared b' f] at harmed hfired htokens
    refine ⟨⟨?_, ?_, ?_⟩, account_same ha harmed⟩
    · rw [harmed]
      exact hone
    · change ((t.shared.setLink b' f).link b').fired = t.dialing b' +
        ((t.shared.setLink b' f).link b').tokens
      omega
    · exact Nat.le_trans htokens ht
  · refine h.same ha (.of_eq (Rmq.setLink_other fun h => hb h.symm) rfl) rfl rfl
      (Nat.le_refl _)

theorem exit_relays {b' : Broker} {fired : Bool} {l : Rmq} (h : Relay b t)
    (hx : RmqSched.exit b' fired t.shared = some l) :
    Relays b (.exit b' fired) t { t with shared := l } := by
  unfold RmqSched.exit at hx
  obtain ⟨hpos, hx⟩ := Option.ite_none_right_eq_some.mp hx
  cases hx
  refine h.setLink rfl fun hb => ?_
  subst hb
  have hone := h.one
  have ht := h.tokens
  cases fired with
  | true =>
      have hfired := hpos.2
      rw [if_pos rfl] at hfired
      refine ⟨rfl, ?_, Nat.sub_le _ _⟩
      simp only [if_true]
      omega
  | false =>
      -- there is no token while a timer waits to fire
      have harmed := hpos.2
      rw [if_neg Bool.false_ne_true] at harmed
      have htoken := hpos.1
      omega

/-- A timer that fires hands the right to launch to its dial. -/
theorem Relay.fire (h : Relay b t) (hpos : 0 < (t.shared.link b).armed)
    (hlink : u.shared.link b = { t.shared.link b with
      armed := (t.shared.link b).armed - 1
      fired := (t.shared.link b).fired + 1 })
    (hwatch : u.shared.watching b = t.shared.watching b)
    (hd : u.dialing b = t.dialing b + 1) (hc : u.cancelling b = t.cancelling b)
    (hr : u.relaunching b = t.relaunching b) : Relays b (.fire b) t u := by
  obtain ⟨hone, hf, ht⟩ := h
  refine ⟨⟨?_, ?_, ?_⟩, ?_⟩
  · rw [hlink]
    dsimp only
    omega
  · rw [hlink]
    dsimp only
    omega
  · rw [hlink]
    dsimp only
    omega
  · have hless : ¬(t.shared.link b).armed < (t.shared.link b).armed - 1 := by
      omega
    simp only [launches, hlink, Act.attempts, if_true, hless, decide_false,
      Bool.false_eq_true, if_false]
    omega

theorem fire_relays {b' : Broker} (h : Relay b t)
    (hpos : 0 < (t.shared.link b').armed) :
    Relays b (.fire b') t ({ t with shared := t.shared.setLink b' fun k =>
      { k with armed := k.armed - 1, fired := k.fired + 1 } }.start
        (.dial b')) := by
  obtain ⟨hdials, hcancels, hrelaunches⟩ := start_counts (b := b)
    { t with shared := t.shared.setLink b' fun k =>
      { k with armed := k.armed - 1, fired := k.fired + 1 } } (.dial b')
  simp only [List.countP_singleton, RmqPc.dials, RmqPc.cancels,
    RmqPc.relaunches, Bool.false_eq_true, if_false, Nat.add_zero,
    decide_eq_true_eq] at hdials hcancels hrelaunches
  by_cases hb : b' = b
  · subst hb
    rw [if_pos rfl] at hdials
    have hlink := Rmq.setLink_self t.shared b' fun k =>
      { k with armed := k.armed - 1, fired := k.fired + 1 }
    exact h.fire hpos hlink rfl hdials hcancels hrelaunches
  · rw [if_neg hb] at hdials
    have hlink : (t.shared.setLink b' fun k =>
        { k with armed := k.armed - 1, fired := k.fired + 1 }).link b =
          t.shared.link b := Rmq.setLink_other fun h => hb h.symm
    exact h.same (if_neg hb) (.of_eq hlink rfl) hdials hcancels
      (Nat.le_of_eq (congrArg (· + _) hrelaunches))

/-- Who begins to listen is the same watcher; who comes too late is gone. -/
theorem listen_sameTimers {i : Nat} {l l' : Rmq}
    (h : RmqSched.listen i l = some l') : l.SameTimers b l' := by
  unfold RmqSched.listen at h
  split at h
  · next b' hi =>
      split at h
      · cases h
        exact .of_eq rfl rfl
      · next c _ =>
          split at h
          · cases h
            refine ⟨rfl, rfl, rfl, ?_⟩
            exact (List.eraseIdx_sublist _ _).countP_le
          · cases h
            have hset : (Threads.resume ⟨(), l.watchers⟩ i ()
                (some ⟨b', some c⟩)).threads.countP (Watcher.watches b) +
                  [Watcher.mk b' none].countP (Watcher.watches b) =
                l.watchers.countP (Watcher.watches b) +
                  [Watcher.mk b' (some c)].countP (Watcher.watches b) :=
              Threads.countP_resume hi
            refine ⟨rfl, rfl, rfl, ?_⟩
            simp only [List.countP_singleton, Watcher.watches] at hset
            exact Nat.le_of_eq (Nat.add_right_cancel hset)
  · cases h

/-- The watchers of a lost connection go on with what they have. -/
theorem lose_relays {c : ConnRef} (h : Relay b t) (hs : t.lose c = some u) :
    Relays b (.lose c) t u := by
  unfold RmqSched.lose at hs
  dsimp only at hs
  split at hs
  · cases hs
    have hsplit := t.shared.watchers.countP_eq_countP_filter_add
      (Watcher.watches b) (fun w => decide (w.conn = some c))
    have hclosed : ∀ f : RmqPc → Bool, (∀ b', f (.closed b') = false) →
        (((t.shared.watchers.filter (·.conn = some c)).map
          fun w => RmqPc.closed w.broker).countP f) = 0 := by
      intro f hf
      refine List.countP_eq_zero.mpr fun k hk => ?_
      obtain ⟨w, -, rfl⟩ := List.mem_map.mp hk
      rw [hf]
      exact Bool.false_ne_true
    refine h.same rfl ⟨rfl, rfl, rfl, Rmq.filter_watching _ _⟩ ?_ ?_ ?_
    · simp only [dialing, List.countP_append]
      rw [hclosed _ fun _ => rfl, Nat.add_zero]
    · simp only [cancelling, List.countP_append]
      rw [hclosed _ fun _ => rfl, Nat.add_zero]
    · simp only [relaunching, List.countP_append, List.countP_map,
        Rmq.watching]
      have hfun : RmqPc.relaunches b ∘ (fun w => RmqPc.closed w.broker) =
        Watcher.watches b := rfl
      simp only [hfun, ne_eq, decide_not] at hsplit ⊢
      omega
  · cases hs

theorem step_relays (h : Relay b t) (hs : step a t = some u) :
    Relays b a t u := by
  unfold RmqSched.step at hs
  dsimp only at hs
  split at hs
  · cases hs
  · cases a with
    | fire b' =>
        dsimp only at hs
        split at hs
        · next hpos =>
            cases hs
            exact fire_relays h hpos
        · cases hs
    | exit b' fired =>
        obtain ⟨l, hl, rfl⟩ := Option.map_eq_some_iff.mp hs
        exact exit_relays h hl
    | listen i =>
        obtain ⟨l, hl, rfl⟩ := Option.map_eq_some_iff.mp hs
        have hsame := listen_sameTimers (b := b) hl
        exact h.same rfl hsame rfl rfl
          (Nat.add_le_add_left hsame.watching _)
    | lose c => exact lose_relays h hs
    | stop b' =>
        cases hs
        exact h.start rfl rfl rfl rfl
    | publish f =>
        cases hs
        exact h.start rfl rfl rfl rfl
    | turn i o => exact turn_relays h hs

/-! ## What holds of every run -/

/-- At most one retry timer goroutine of `b` is alive. When a dial is about to
call `cancelRetryTimer` there is exactly one, whose timer has fired, and no
token is under way; while it waits there that goroutine and the token are both
there or both gone; at any other time there is no token, and so none when a
timer is waiting to fire. -/
structure OneTimer (b : Broker) (t : RmqSched) : Prop where
  alive : (t.shared.link b).armed + (t.shared.link b).fired ≤ 1
  cancel : .dial b ∈ t.threads → (t.shared.link b).armed = 0 ∧
    (t.shared.link b).fired = 1 ∧ (t.shared.link b).tokens = 0
  waits : ∀ ok, .dialed b ok ∈ t.threads → (t.shared.link b).armed = 0 ∧
    (t.shared.link b).fired = (t.shared.link b).tokens
  stale : (∀ ok, .dialed b ok ∉ t.threads) → (t.shared.link b).tokens = 0
  retry : 0 < (t.shared.link b).armed → (t.shared.link b).tokens = 0

theorem Relay.oneTimer (h : Relay b t) : OneTimer b t := by
  obtain ⟨hone, hf, ht⟩ := h
  have hdial : .dial b ∈ t.threads → 0 < t.dialing b := fun hmem =>
    List.countP_pos_iff.mpr ⟨_, hmem, decide_eq_true rfl⟩
  have hcancel : ∀ ok, .dialed b ok ∈ t.threads → 0 < t.cancelling b :=
    fun ok hmem => List.countP_pos_iff.mpr ⟨_, hmem, decide_eq_true rfl⟩
  refine ⟨by omega, fun hmem => ?_, fun ok hmem => ?_, fun hnone => ?_,
    fun hpos => by omega⟩
  · have hpos := hdial hmem
    omega
  · have hpos := hcancel ok hmem
    omega
  · have hzero : t.cancelling b = 0 := by
      refine List.countP_eq_zero.mpr fun k hk hcan => ?_
      cases k with
      | dialed b' ok =>
          rw [show b' = b from of_decide_eq_true hcan] at hk
          exact hnone ok hk
      | _ => cases hcan
    omega

/-- Every run, whatever AMQP answers and whoever stops a broker. The last
clause counts the dials that the timers of `b` have started against the
launches, the one of the startup included: they differ by the timer that has
not fired yet. -/
theorem timers_in_turn (uuid : String) (as : List Act) (b : Broker) :
    Always step (OneTimer b) as (init uuid) ∧
    ∀ t, run step as (init uuid) = some t →
      (as.map (Act.attempts b)).sum + (t.shared.link b).armed =
        1 + tally step (launches b) as (init uuid) := by
  constructor
  · have halways := always_of_guarded (P := Relay b)
      (fun a _ _ h _ hs => (step_relays (a := a) h hs).relay)
      (guarded_true as _) (init_relay uuid b)
    exact halways.mono fun _ h => h.oneTimer
  · intro t hrun
    have hsum : (t.shared.link b).armed + (as.map (Act.attempts b)).sum =
        1 + tally step (launches b) as (init uuid) :=
      tally_spent (P := Relay b) (m := fun t => (t.shared.link b).armed)
        (fun a s s' h _ hs => ⟨(step_relays (a := a) h hs).relay,
          (step_relays h hs).account⟩) (guarded_true as _)
        (init_relay uuid b) hrun
    rw [Nat.add_comm]
    exact hsum

/-- A dial that fails, and the one after it. -/
def redial : List Act :=
  [.fire .cluster, .turn 0 .refused, .exit .cluster true, .turn 0 .ok,
    .fire .cluster, .turn 0 .ok, .exit .cluster true]

theorem timers_redial :
    Always step (OneTimer .cluster) redial (init "ms1") ∧
    ∃ t, run step redial (init "ms1") = some t ∧
      t.threads = [.dialed .cluster true] ∧
      (redial.map (Act.attempts .cluster)).sum + (t.shared.link .cluster).armed =
        1 + tally step (launches .cluster) redial (init "ms1") := by
  obtain ⟨halways, haccount⟩ := timers_in_turn "ms1" redial .cluster
  exact ⟨halways, _, rfl, rfl, haccount _ rfl⟩

end RmqSched

end MediaServer.Ref
