import MediaServer.Lib.Rest
import MediaServer.Ref.IceInfo

/-!
# Which candidates reach the proxy

A `CheckIceInfo` needs a sender to go on, and a sender a `CheckIceInfo`. Both
are used up when they meet: there is one of the first for every candidate
that passed the filter and one of the second for every remote description. So
when nothing can go on, the smaller number of them have met, and on one side
the rest wait for ever.

Who has met another broadcasts its message, unless the flag of the broker is
clear when it is tested or nobody receives from the exchange at the send. Hence
every candidate is broadcast and nobody is left exactly if there were as many
candidates as remote descriptions, every test found the flag set, and whoever
came to the send in the end found the exchange with its loop.
-/

namespace MediaServer.Ref

open MediaServer.Lib

namespace IcePc

/-- A `CheckIceInfo` that waits for a value. -/
def waits : IcePc → Bool
  | .checkIceInfo _ _ => true
  | _ => false

def sends : IcePc → Bool
  | .sender => true
  | _ => false

/-- A `CheckIceInfo` that has received one. -/
def proceeds : IcePc → Bool
  | .read _ _ | .broadcast _ | .send _ => true
  | _ => false

def reads : IcePc → Bool
  | .read _ _ => true
  | _ => false

/-- A `BroadcastMessage2Proxy` before its test of the flag. -/
def tests : IcePc → Bool
  | .broadcast _ => true
  | _ => false

end IcePc

namespace IcePeer

variable {w w' : IcePeer} {k : IcePc} {next : Option IcePc}

/-- The peer is not destroyed, and both descriptions are there and can be
parsed. -/
def readable (w : IcePeer) : Bool :=
  !w.destroyed && w.localDescription.join.isSome &&
    w.remoteDescription.join.isSome

/-- The exchange to the proxies has its loop. -/
def receives (w : IcePeer) : Bool :=
  (w.rmq.slot .excProxyBc).any fun x => (w.rmq.exc x).loop

/-- The messages that have been dealt with. -/
def handled (w : IcePeer) : Nat := w.broadcast.length + w.dropped

/-- What a block of a goroutine does to the numbers: a message is broadcast or
dropped, or its `CheckIceInfo` has still to do it. -/
structure Moves (k : IcePc) (w w' : IcePeer) (next : Option IcePc) : Prop where
  accepted : w'.accepted = w.accepted
  described : w'.described = w.described
  waits : [k].countP IcePc.waits = next.toList.countP IcePc.waits
  sends : [k].countP IcePc.sends = next.toList.countP IcePc.sends
  proceeds : next.toList.countP IcePc.proceeds + w'.handled =
    [k].countP IcePc.proceeds + w.handled

theorem iceInfo_of_readable (h : w.readable = true) (ip : String)
    (port : UInt16) : ∃ m, w.iceInfo ip port = (w, some (.broadcast m)) := by
  unfold readable at h
  simp only [Bool.and_eq_true, Bool.not_eq_true'] at h
  obtain ⟨⟨halive, hlocal⟩, hremote⟩ := h
  obtain ⟨lSdp, hl⟩ := Option.isSome_iff_exists.mp hlocal
  obtain ⟨rSdp, hr⟩ := Option.isSome_iff_exists.mp hremote
  rw [Option.join_eq_some_iff] at hl hr
  unfold iceInfo
  rw [halive, hl, hr]
  exact ⟨_, rfl⟩

theorem setLocalDescription_rest (w : IcePeer) (d : Option Description) :
    (w.setLocalDescription d).accepted = w.accepted ∧
      (w.setLocalDescription d).described = w.described ∧
      (w.setLocalDescription d).handled = w.handled ∧
      (w.setLocalDescription d).dropped = w.dropped := by
  unfold setLocalDescription
  split
  · exact ⟨rfl, rfl, rfl, rfl⟩
  · split
    · exact ⟨rfl, rfl, rfl, rfl⟩
    · exact ⟨rfl, rfl, rfl, rfl⟩

theorem exec_moves (hread : k.reads = true → w.readable = true)
    (hlive : w'.fatal = false) (h : exec k w = some (w', next)) :
    Moves k w w' next := by
  cases k with
  | checkIceInfo ip port => cases h
  | sender => cases h
  | read ip port =>
      obtain ⟨m, hm⟩ := iceInfo_of_readable (hread rfl) ip port
      simp only [exec, hm, Option.some.injEq, Prod.mk.injEq] at h
      obtain ⟨rfl, rfl⟩ := h
      exact ⟨rfl, rfl, rfl, rfl, rfl⟩
  | broadcast m =>
      simp only [exec] at h
      split at h
      · cases h
        exact ⟨rfl, rfl, rfl, rfl, rfl⟩
      · cases h
        refine ⟨rfl, rfl, rfl, rfl, ?_⟩
        simp [IcePc.proceeds, handled]
        omega
  | send m =>
      simp only [exec] at h
      split at h
      · cases h
        cases hlive
      · split at h
        · cases h
          refine ⟨rfl, rfl, rfl, rfl, ?_⟩
          simp [IcePc.proceeds, handled]
          omega
        · cases h
  | setLocal answer =>
      cases h
      obtain ⟨ha, hd, hh, -⟩ := w.setLocalDescription_rest answer
      exact ⟨ha, hd, rfl, rfl, by rw [hh]; rfl⟩

/-- A message is dropped where the flag is tested and is not set. -/
theorem exec_dropped (h : exec k w = some (w', next)) :
    w.dropped ≤ w'.dropped ∧ (w'.dropped = w.dropped ↔
      (k.tests = true → (w.rmq.link .cluster).connected = true)) := by
  have hsame : w'.dropped = w.dropped → k.tests = false →
      w.dropped ≤ w'.dropped ∧ (w'.dropped = w.dropped ↔
        (k.tests = true → (w.rmq.link .cluster).connected = true)) :=
    fun heq hk => ⟨heq.ge, iff_of_true heq fun h => by rw [hk] at h; cases h⟩
  cases k with
  | checkIceInfo | sender => cases h
  | read ip port =>
      refine hsame ?_ rfl
      have hw : (w.iceInfo ip port).1 = w' := congrArg Prod.fst
        (Option.some.inj h)
      rw [← hw, iceInfo]
      repeat' split
      all_goals rfl
  | broadcast m =>
      simp only [exec] at h
      split at h
      · next hset =>
          cases h
          exact ⟨le_rfl, iff_of_true rfl fun _ => hset⟩
      · next hset =>
          cases h
          exact ⟨Nat.le_succ _, iff_of_false (Nat.succ_ne_self _)
            fun hall => hset (hall rfl)⟩
  | send m =>
      refine hsame ?_ rfl
      simp only [exec] at h
      split at h
      · cases h; rfl
      · split at h
        · cases h; rfl
        · cases h
  | setLocal answer =>
      cases h
      exact hsame (w.setLocalDescription_rest answer).2.2.2 rfl

/-- Whoever cannot go on waits on a channel. -/
theorem exec_eq_none (h : exec k w = none) :
    k.waits = true ∨ k.sends = true ∨ ∃ m, k = .send m ∧ w.receives = false := by
  cases k with
  | checkIceInfo ip port => exact .inl rfl
  | sender => exact .inr (.inl rfl)
  | send m =>
      refine .inr (.inr ⟨m, rfl, ?_⟩)
      simp only [exec] at h
      split at h
      · cases h
      · next x hx =>
          split at h
          · cases h
          · next hloop => simp [receives, hx, hloop]
  | broadcast m =>
      simp only [exec] at h
      split at h
      · cases h
      · cases h
  | read | setLocal => cases h

end IcePeer

namespace IceSched

variable {t u : IceSched} {a : Act}

def waiting (t : IceSched) : Nat := t.threads.countP IcePc.waits

def sending (t : IceSched) : Nat := t.threads.countP IcePc.sends

def proceeding (t : IceSched) : Nat := t.threads.countP IcePc.proceeds

/-- A `CheckIceInfo` reads the descriptions only if they are there to be read,
at a peer that is not destroyed. -/
def Readable (t : IceSched) : Act → Prop
  | .turn i => ∀ k ∈ t.threads[i]?, k.reads = true →
      t.shared.readable = true
  | _ => True

instance (t : IceSched) (a : Act) : Decidable (Readable t a) := by
  cases a with
  | turn i =>
      unfold Readable
      infer_instance
  | _ => exact .isTrue trivial

/-- The flag is set when a `BroadcastMessage2Proxy` tests it. -/
def Flagged (t : IceSched) : Act → Prop
  | .turn i => ∀ k ∈ t.threads[i]?, k.tests = true →
      (t.shared.rmq.link .cluster).connected = true
  | _ => True

instance (t : IceSched) (a : Act) : Decidable (Flagged t a) := by
  cases a with
  | turn i =>
      unfold Flagged
      infer_instance
  | _ => exact .isTrue trivial

/-! ## The account -/

/-- Where the candidates and the descriptions are. -/
structure Account (t : IceSched) : Prop where
  accepted : t.shared.accepted = t.waiting + t.proceeding + t.shared.handled
  described : t.shared.described = t.sending + t.proceeding + t.shared.handled

/-- Two goroutines have met: one goes on, and one returns. -/
theorem meet_eq_some {i j : Nat} (h : t.meet i j = some u) :
    ∃ ip port, t.threads[i]? = some (.checkIceInfo ip port) ∧
      (t.resume i t.shared (some (.read ip port))).threads[j]? =
        some .sender ∧
      u = (t.resume i t.shared (some (.read ip port))).resume j t.shared
        none := by
  unfold IceSched.meet at h
  split at h
  · next ip port hi hj =>
      cases h
      have hne : i ≠ j := by
        intro heq
        rw [heq, hj] at hi
        cases hi
      refine ⟨ip, port, hi, ?_, rfl⟩
      rw [← hj]
      exact List.getElem?_set_ne hne
  · cases h

theorem meet_counts {i j : Nat} (h : t.meet i j = some u) :
    u.shared = t.shared ∧ u.waiting + 1 = t.waiting ∧
      u.sending + 1 = t.sending ∧ u.proceeding = t.proceeding + 1 := by
  obtain ⟨ip, port, hi, hj, rfl⟩ := meet_eq_some h
  have hcount : ∀ f : IcePc → Bool,
      ((t.resume i t.shared (some (.read ip port))).resume j t.shared
        none).threads.countP f + [IcePc.sender].countP f +
          [IcePc.checkIceInfo ip port].countP f =
      t.threads.countP f + [IcePc.read ip port].countP f := by
    intro f
    have hfirst : (t.resume i t.shared (some (.read ip port))).threads.countP
        f + [IcePc.checkIceInfo ip port].countP f =
          t.threads.countP f + [IcePc.read ip port].countP f :=
      Threads.countP_resume hi
    have hsecond : ((t.resume i t.shared (some (.read ip port))).resume j
        t.shared none).threads.countP f + [IcePc.sender].countP f =
          (t.resume i t.shared (some (.read ip port))).threads.countP f :=
      Threads.countP_resume hj
    omega
  refine ⟨Threads.resume_shared .., ?_, ?_, ?_⟩
  · exact hcount IcePc.waits
  · exact hcount IcePc.sends
  · exact hcount IcePc.proceeds

theorem Account.start {w : IcePeer} {k : IcePc} (h : Account t)
    (ha : w.accepted = t.shared.accepted + [k].countP IcePc.waits)
    (hd : w.described = t.shared.described + [k].countP IcePc.sends)
    (hh : w.handled = t.shared.handled)
    (hp : k.proceeds = false) : Account (Threads.start k ⟨w, t.threads⟩) := by
  obtain ⟨hacc, hdesc⟩ := h
  have hproceed : [k].countP IcePc.proceeds = 0 := by simp [hp]
  simp only [waiting, sending, proceeding] at hacc hdesc
  refine ⟨?_, ?_⟩
  · simp only [Threads.start, waiting, proceeding, List.countP_append]
    omega
  · simp only [Threads.start, sending, proceeding, List.countP_append]
    omega

theorem Account.setShared {w : IcePeer} (h : Account t)
    (ha : w.accepted = t.shared.accepted)
    (hd : w.described = t.shared.described)
    (hh : w.handled = t.shared.handled) : Account { t with shared := w } := by
  obtain ⟨hacc, hdesc⟩ := h
  refine ⟨?_, ?_⟩
  · rw [ha, hh]
    exact hacc
  · rw [hd, hh]
    exact hdesc

theorem Account.turn {i : Nat} (h : Account t)
    (hread : Readable t (.turn i)) (hlive : u.shared.fatal = false)
    (hs : t.turn IcePeer.exec i = some u) : Account u := by
  obtain ⟨k, w, next, hk, hexec, rfl⟩ := Threads.turn_eq_some hs
  have hshared : (t.resume i w next).shared = w := Threads.resume_shared ..
  rw [hshared] at hlive
  obtain ⟨ha, hd, hw, hsend, hp⟩ :=
    IcePeer.exec_moves (hread k hk) hlive hexec
  have hwaits : waiting (t.resume i w next) + [k].countP IcePc.waits =
      t.waiting + next.toList.countP IcePc.waits := Threads.countP_resume hk
  have hsends : sending (t.resume i w next) + [k].countP IcePc.sends =
      t.sending + next.toList.countP IcePc.sends := Threads.countP_resume hk
  have hproceeds : proceeding (t.resume i w next) +
      [k].countP IcePc.proceeds =
        t.proceeding + next.toList.countP IcePc.proceeds :=
    Threads.countP_resume hk
  obtain ⟨hacc, hdesc⟩ := h
  refine ⟨?_, ?_⟩
  · rw [hshared]
    omega
  · rw [hshared]
    omega

theorem Account.setRemoteDescription (h : Account t)
    (d : Option Description)
    (hlive : (t.setRemoteDescription d).shared.fatal = false) :
    Account (t.setRemoteDescription d) := by
  unfold IceSched.setRemoteDescription at hlive ⊢
  split at hlive
  · cases hlive
  · next halive =>
      rw [if_neg halive]
      cases d with
      | none => cases hlive
      | some d => exact h.start rfl rfl rfl rfl

theorem step_account (h : Account t) (hread : Readable t a)
    (hs : step a t = some u) (hlive : u.shared.fatal = false) :
    Account u := by
  unfold IceSched.step at hs
  split at hs
  · cases hs
  · cases a with
    | candidate ip port =>
        dsimp only at hs
        split at hs
        · cases hs
          exact h
        · cases hs
          exact h.start rfl rfl rfl rfl
    | remoteOffer offer answer =>
        cases hs
        have hremote := h.setRemoteDescription offer hlive
        exact hremote.start rfl rfl rfl rfl
    | remoteAnswer answer =>
        cases hs
        exact h.setRemoteDescription answer hlive
    | localOffer offer =>
        cases hs
        obtain ⟨ha, hd, hh, -⟩ := t.shared.setLocalDescription_rest offer
        exact h.setShared ha hd hh
    | destroy =>
        dsimp only at hs
        split at hs
        · cases hs
          cases hlive
        · cases hs
          exact h.setShared rfl rfl rfl
    | rmq l =>
        cases hs
        exact h.setShared rfl rfl rfl
    | meet i j =>
        obtain ⟨hshared, hw, hsend, hp⟩ := meet_counts hs
        obtain ⟨hacc, hdesc⟩ := h
        refine ⟨?_, ?_⟩
        · rw [hshared]
          omega
        · rw [hshared]
          omega
    | turn i => exact h.turn hread hlive hs

theorem init_account (localaddr : String) (rmq : Rmq) :
    Account (init localaddr rmq) := ⟨rfl, rfl⟩

theorem live_of_step (hs : step a t = some u) : t.shared.fatal = false := by
  unfold IceSched.step at hs
  split at hs
  · cases hs
  · next hlive => exact Bool.eq_false_iff.mpr hlive

/-- As long as the process runs, the account is in order. -/
theorem run_account {localaddr : String} {rmq : Rmq} {as : List Act}
    (hg : Guarded step Readable as (init localaddr rmq))
    (hrun : run step as (init localaddr rmq) = some t)
    (hlive : t.shared.fatal = false) : Account t := by
  have hinv := run_invariant
    (P := fun t : IceSched => t.shared.fatal = false → Account t)
    (fun a t u h ha hs => step_account (a := a) (h (live_of_step hs)) ha hs) hg
    (fun _ => init_account localaddr rmq) hrun
  exact hinv hlive

theorem setRemoteDescription_dropped (d : Option Description) :
    (t.setRemoteDescription d).shared.dropped = t.shared.dropped := by
  unfold IceSched.setRemoteDescription
  repeat' split
  all_goals rfl

theorem step_dropped (hs : step a t = some u) :
    t.shared.dropped ≤ u.shared.dropped ∧
      (u.shared.dropped = t.shared.dropped ↔ Flagged t a) := by
  have hsame : u.shared.dropped = t.shared.dropped → Flagged t a →
      t.shared.dropped ≤ u.shared.dropped ∧
        (u.shared.dropped = t.shared.dropped ↔ Flagged t a) :=
    fun heq ha => ⟨heq.ge, iff_of_true heq ha⟩
  unfold IceSched.step at hs
  split at hs
  · cases hs
  · cases a with
    | candidate ip port =>
        dsimp only at hs
        split at hs
        · cases hs; exact hsame rfl trivial
        · cases hs; exact hsame rfl trivial
    | remoteOffer offer answer =>
        cases hs
        exact hsame (setRemoteDescription_dropped offer) trivial
    | remoteAnswer answer =>
        cases hs
        exact hsame (setRemoteDescription_dropped answer) trivial
    | localOffer offer =>
        cases hs
        exact hsame (t.shared.setLocalDescription_rest offer).2.2.2 trivial
    | destroy =>
        dsimp only at hs
        split at hs
        · cases hs; exact hsame rfl trivial
        · cases hs; exact hsame rfl trivial
    | rmq l => cases hs; exact hsame rfl trivial
    | meet i j =>
        exact hsame (congrArg IcePeer.dropped (meet_counts hs).1) trivial
    | turn i =>
        obtain ⟨k, w, next, hk, hexec, rfl⟩ := Threads.turn_eq_some hs
        have hdropped := IcePeer.exec_dropped hexec
        rw [Threads.resume_shared]
        simp only [Flagged, hk, Option.mem_some_iff, forall_eq']
        exact hdropped

/-! ## At rest -/

/-- What the goroutines of the peer do, as opposed to calls from outside. -/
def Act.own : Act → Prop
  | .meet _ _ | .turn _ => True
  | _ => False

/-- As many messages as candidates, and no `CheckIceInfo` and no sender left. -/
structure Delivered (t : IceSched) : Prop where
  broadcast : t.shared.broadcast.length = t.shared.accepted
  checks : ∀ k ∈ t.threads, k.waits = false ∧ k.proceeds = false
  senders : ∀ k ∈ t.threads, k.sends = false

theorem countP_zero_iff {f : IcePc → Bool} :
    t.threads.countP f = 0 ↔ ∀ k ∈ t.threads, f k = false := by
  rw [List.countP_eq_zero]
  exact forall₂_congr fun k _ => Bool.eq_false_iff.symm

theorem delivered_iff : Delivered t ↔
    t.shared.broadcast.length = t.shared.accepted ∧ t.waiting = 0 ∧
      t.proceeding = 0 ∧ t.sending = 0 := by
  unfold waiting proceeding sending
  rw [countP_zero_iff, countP_zero_iff, countP_zero_iff]
  constructor
  · intro ⟨hall, hchecks, hsenders⟩
    exact ⟨hall, fun k hk => (hchecks k hk).1, fun k hk => (hchecks k hk).2,
      hsenders⟩
  · intro ⟨hall, hwaits, hproceeds, hsends⟩
    exact ⟨hall, fun k hk => ⟨hwaits k hk, hproceeds k hk⟩, hsends⟩

theorem exists_of_countP_pos {f : IcePc → Bool}
    (h : 0 < t.threads.countP f) :
    ∃ (i : Nat) (k : IcePc), t.threads[i]? = some k ∧ f k = true := by
  obtain ⟨k, hk, hf⟩ := List.countP_pos_iff.mp h
  obtain ⟨i, hi⟩ := List.mem_iff_getElem?.mp hk
  exact ⟨i, k, hi, hf⟩

/-- At rest, one side has run out. -/
theorem unmet_of_rest (hlive : t.shared.fatal = false)
    (hrest : AtRest step Act.own t) : t.waiting = 0 ∨ t.sending = 0 := by
  by_cases hw : t.waiting = 0
  · exact .inl hw
  · refine .inr (Nat.eq_zero_of_not_pos fun hsend => ?_)
    obtain ⟨i, k, hi, hk⟩ := exists_of_countP_pos (Nat.pos_of_ne_zero hw)
    obtain ⟨j, l, hj, hl⟩ := exists_of_countP_pos hsend
    have hnone := hrest (.meet i j) trivial
    cases k with
    | checkIceInfo ip port =>
        cases l with
        | sender => simp [step, hlive, IceSched.meet, hi, hj] at hnone
        | _ => cases hl
    | _ => cases hk

/-- At rest, who has received a value is stuck in the send to the proxy. -/
theorem proceeding_of_rest (hlive : t.shared.fatal = false)
    (hrest : AtRest step Act.own t) :
    t.proceeding = 0 ↔
      ((∃ m, .send m ∈ t.threads) → t.shared.receives = true) := by
  unfold proceeding
  rw [countP_zero_iff]
  constructor
  · rintro h ⟨m, hm⟩
    cases h _ hm
  · intro hsend k hk
    obtain ⟨i, hi⟩ := List.mem_iff_getElem?.mp hk
    have hturn := hrest (.turn i) trivial
    simp only [step, hlive, Bool.false_eq_true, if_false, Threads.turn,
      hi, Option.map_eq_none_iff] at hturn
    rcases IcePeer.exec_eq_none hturn with hwait | hsender | ⟨m, rfl, hno⟩
    · cases k with
      | checkIceInfo ip port => rfl
      | _ => cases hwait
    · cases k with
      | sender => rfl
      | _ => cases hsender
    · rw [hsend ⟨m, hk⟩] at hno
      cases hno

/-- However they are scheduled, the smaller number of candidates and remote
descriptions have met in the end. -/
theorem met_of_rest {localaddr : String} {rmq : Rmq} {as : List Act}
    (hg : Guarded step Readable as (init localaddr rmq))
    (hrun : run step as (init localaddr rmq) = some t)
    (hlive : t.shared.fatal = false) (hrest : AtRest step Act.own t) :
    t.proceeding + t.shared.handled =
      min t.shared.accepted t.shared.described := by
  obtain ⟨hacc, hdesc⟩ := run_account hg hrun hlive
  rcases unmet_of_rest hlive hrest with hzero | hzero
  · omega
  · omega

/-- Every run in which the descriptions are there when they are read, and in
which no goroutine of the peer can go on: the numbers agree, each test found
the flag set, and nobody is at the send without the loop of the exchange. -/
theorem delivered_iff_matched {localaddr : String} {rmq : Rmq} {as : List Act}
    (hg : Guarded step Readable as (init localaddr rmq))
    (hrun : run step as (init localaddr rmq) = some t)
    (hlive : t.shared.fatal = false) (hrest : AtRest step Act.own t) :
    Delivered t ↔ t.shared.described = t.shared.accepted ∧
      Guarded step Flagged as (init localaddr rmq) ∧
      ((∃ m, .send m ∈ t.threads) → t.shared.receives = true) := by
  obtain ⟨hacc, hdesc⟩ := run_account hg hrun hlive
  have hunmet := unmet_of_rest hlive hrest
  have hflag : t.shared.dropped = 0 ↔ _ := (guarded_iff_measure
    (m := fun t => t.shared.dropped) (fun _ _ _ => step_dropped) hrun).2
  rw [delivered_iff, ← proceeding_of_rest hlive hrest, ← hflag]
  unfold IcePeer.handled at hacc hdesc
  constructor
  · intro ⟨hall, hwaits, hproceeds, hsends⟩
    refine ⟨?_, ?_, hproceeds⟩
    · omega
    · omega
  · intro ⟨hsame, hdropped, hproceeds⟩
    have hzero : t.waiting = 0 ∧ t.sending = 0 := by omega
    refine ⟨?_, hzero.1, hproceeds, hzero.2⟩
    omega

/-! ## Coming to rest -/

/-- How many steps a goroutine may still take. A value that is passed counts
for its receiver. -/
def callRank : IcePc → Nat
  | .checkIceInfo _ _ => 4
  | .read _ _ => 3
  | .broadcast _ => 2
  | .send _ | .sender | .setLocal _ => 1

def rank (t : IceSched) : Nat := (t.threads.map callRank).sum

theorem exec_rank {k : IcePc} {w w' : IcePeer} {next : Option IcePc}
    (h : IcePeer.exec k w = some (w', next)) :
    (next.toList.map callRank).sum < callRank k := by
  cases k with
  | checkIceInfo | sender => cases h
  | read ip port =>
      have hnext : next = (w.iceInfo ip port).2 := by
        simp only [IcePeer.exec, Option.some.injEq] at h
        rw [h]
      rw [hnext, IcePeer.iceInfo]
      repeat' split
      all_goals simp [callRank]
  | broadcast m =>
      simp only [IcePeer.exec] at h
      split at h
      · cases h
        simp [callRank]
      · cases h
        simp [callRank]
  | send m =>
      simp only [IcePeer.exec] at h
      split at h
      · cases h
        simp [callRank]
      · split at h
        · cases h
          simp [callRank]
        · cases h
  | setLocal answer =>
      cases h
      simp [callRank]

theorem step_rank (ha : a.own) (hs : step a t = some u) :
    u.rank < t.rank := by
  unfold IceSched.step at hs
  split at hs
  · cases hs
  · cases a with
    | turn i =>
        obtain ⟨k, w, next, hk, hexec, rfl⟩ := Threads.turn_eq_some hs
        have hsum : rank (t.resume i w next) + callRank k =
            t.rank + (next.toList.map callRank).sum :=
          Threads.sum_resume callRank hk
        have hlt := exec_rank hexec
        omega
    | meet i j =>
        obtain ⟨ip, port, hi, hj, rfl⟩ := meet_eq_some hs
        have hfirst : rank (t.resume i t.shared (some (.read ip port))) + 4 =
            t.rank + 3 := Threads.sum_resume callRank hi
        have hsecond : rank ((t.resume i t.shared
            (some (.read ip port))).resume j t.shared none) + 1 =
              rank (t.resume i t.shared (some (.read ip port))) :=
          Threads.sum_resume callRank hj
        omega
    | _ => exact ha.elim

/-- Whatever has happened, the goroutines of the peer come to rest. -/
theorem comes_to_rest (t : IceSched) :
    ∃ as u, (∀ a ∈ as, a.own) ∧ run step as t = some u ∧
      AtRest step Act.own u :=
  exists_run_atRest (P := fun _ => True)
    (fun _ _ _ _ ha hs => ⟨trivial, step_rank ha hs⟩) trivial

/-! ## Two runs -/

/-- A broker that is connected, with an exchange that takes what is sent. -/
def readyRmq : Rmq :=
  { Rmq.startup "ms1" with
    heap := Heap.empty.alloc (Rmq.createQueueExchange .cluster 0
      ⟨"udpProxy", "fanout", "", "broadcast", "ad"⟩ true)
    slot := fun _ => some 0
    link := fun _ => ⟨true, some 0, [], 0, 0, 0⟩ }

def ufragged (ufrag : String) : Option Description :=
  some (some [⟨"video", [⟨"ice-ufrag", ufrag⟩]⟩])

/-- An offer is made, candidates with these ports are found, and an answer
comes. The first of them is broadcast. -/
def negotiated (ports : List UInt16) : List Act :=
  [.localOffer (ufragged "here")] ++
    ports.map (fun port => .candidate "10.0.0.1" port) ++
    [.remoteAnswer (ufragged "there"), .meet 0 ports.length, .turn 0, .turn 0,
      .turn 0]

theorem atRest_of_waiting (hthreads : ∀ k ∈ t.threads, k.waits = true) :
    AtRest step Act.own t := by
  intro a ha
  unfold IceSched.step
  split
  · rfl
  · cases a with
    | turn i =>
        dsimp only
        unfold Threads.turn
        split
        · rfl
        · next k hk =>
            have hwait := hthreads k (List.mem_of_getElem? hk)
            cases k with
            | checkIceInfo ip port => rfl
            | _ => cases hwait
    | meet i j =>
        dsimp only
        unfold IceSched.meet
        split
        · next hj => cases hthreads _ (List.mem_of_getElem? hj)
        · rfl
    | _ => exact ha.elim

/-- One candidate and one remote description. -/
theorem delivered_one :
    ∃ t, run step (negotiated [5000]) (init "10.0.0.1" readyRmq) = some t ∧
      AtRest step Act.own t ∧ Delivered t ∧
      t.shared.broadcast =
        [IceInfo.marshal ⟨"here", "there", "10.0.0.1", 5000⟩] := by
  have hrest : AtRest step Act.own ⟨⟨"10.0.0.1", ufragged "here",
      ufragged "there", false, readyRmq, 1, 1,
      [IceInfo.marshal ⟨"here", "there", "10.0.0.1", 5000⟩], 0, false⟩, []⟩ :=
    atRest_of_waiting nofun
  have hg : Guarded step Readable (negotiated [5000])
      (init "10.0.0.1" readyRmq) := by decide
  exact ⟨_, rfl, hrest, (delivered_iff_matched hg rfl rfl hrest).mpr
    ⟨rfl, by decide, nofun⟩, rfl⟩

/-- Two candidates and one remote description: the second waits for ever, and
the proxy is never told of it. -/
theorem second_candidate_waits :
    ∃ t, run step (negotiated [5000, 5001]) (init "10.0.0.1" readyRmq) =
        some t ∧
      Guarded step Readable (negotiated [5000, 5001])
        (init "10.0.0.1" readyRmq) ∧
      t.shared.fatal = false ∧ AtRest step Act.own t ∧
      t.shared.accepted = 2 ∧ t.shared.described = 1 ∧
      t.shared.broadcast =
        [IceInfo.marshal ⟨"here", "there", "10.0.0.1", 5000⟩] ∧
      t.threads = [.checkIceInfo "10.0.0.1" 5001] ∧ ¬Delivered t := by
  refine ⟨_, rfl, by decide, rfl, ?_, rfl, rfl, rfl, rfl, ?_⟩
  · refine atRest_of_waiting fun k hk => ?_
    cases List.mem_singleton.mp hk
    rfl
  · intro hdelivered
    cases hdelivered.broadcast

end IceSched

end MediaServer.Ref
