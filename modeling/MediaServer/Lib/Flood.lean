import MediaServer.Lib.Trans
import Mathlib.Combinatorics.SimpleGraph.Acyclic

/-!
# Flooding along the wires of a forest

Nodes are joined by wires, and a wire ends at a port of each of its two nodes.
A copy of a message that arrives at one port of a node leaves again through
other ports of that node, and each copy that leaves through a wired port will
arrive at the port on the other side. Nothing remembers which nodes have seen
the message.

If the wires form a forest, every node sees the message at most once
(`Spread.once`). The reason is that the nodes reached so far, together with
those a copy is on its way to, hang together by the wires the copies took. A
copy that leaves for one of them again would take a wire that joins two nodes
joined already without it, and in a forest every wire is a bridge.
-/

namespace MediaServer.Lib

variable {ν π : Type}

/-- The node of each port, and the port at the other end of its wire. -/
structure Wires (ν π : Type) where
  home : π → ν
  far : π → Option π
  symm : ∀ {x y}, far x = some y → far y = some x

namespace Wires

def graph (w : Wires ν π) : SimpleGraph ν :=
  SimpleGraph.fromRel fun a b =>
    ∃ x y, w.far x = some y ∧ w.home x = a ∧ w.home y = b

structure Forest (w : Wires ν π) : Prop where
  apart : ∀ {x y}, w.far x = some y → w.home x ≠ w.home y
  single : ∀ {x y x' y'}, w.far x = some y → w.far x' = some y' →
    w.home x = w.home x' → w.home y = w.home y' → x = x'
  acyclic : w.graph.IsAcyclic

theorem adj_of_far {w : Wires ν π} {x y : π} (hf : w.Forest)
    (h : w.far x = some y) : w.graph.Adj (w.home x) (w.home y) :=
  (SimpleGraph.fromRel_adj ..).mpr ⟨hf.apart h, .inl ⟨x, y, h, rfl, rfl⟩⟩

/-- A copy leaves a node through the ports `out x` after it arrived at `x`:
ports of the same node, each once, and not the one it came by. -/
structure Local (w : Wires ν π) (out : π → List π) : Prop where
  home : ∀ {x y}, y ∈ out x → w.home y = w.home x
  other : ∀ {x y}, y ∈ out x → y ≠ x
  nodup : ∀ x, (out x).Nodup

end Wires

/-- The ports at which a copy has arrived and was passed on, and those at which
a copy is about to arrive. -/
structure Flood (π : Type) where
  done : List π
  flight : List π

namespace Flood

def start (x : π) : Flood π := ⟨[], [x]⟩

/-- The `k`-th of the copies in flight arrives. -/
def step (w : Wires ν π) (out : π → List π) (k : Nat) (f : Flood π) :
    Option (Flood π) :=
  match f.flight[k]? with
  | none => none
  | some x =>
      some ⟨f.done ++ [x], f.flight.eraseIdx k ++ (out x).filterMap w.far⟩

def ports (f : Flood π) : List π := f.done ++ f.flight

/-- How far the message that was put in at port `o` has spread. -/
structure Spread (w : Wires ν π) (out : π → List π) (o : π) (f : Flood π) :
    Prop where
  nodup : (f.ports.map w.home).Nodup
  origin : o ∈ f.ports
  sent : ∀ z ∈ f.ports, z ≠ o → ∃ x ∈ f.done, ∃ y ∈ out x, w.far y = some z
  joined : ∀ g : SimpleGraph ν,
    (∀ y z, z ∈ f.ports → z ≠ o → w.far y = some z →
      g.Adj (w.home y) (w.home z)) →
    ∀ z ∈ f.ports, g.Reachable (w.home o) (w.home z)

variable {w : Wires ν π} {out : π → List π} {o : π} {f f' : Flood π}

/-- A port that was reached is known by its node. -/
theorem Spread.eq_of_home (h : Spread w out o f) {x y : π} (hx : x ∈ f.ports)
    (hy : y ∈ f.ports) (heq : w.home x = w.home y) : x = y :=
  List.inj_on_of_nodup_map h.nodup hx hy heq

theorem Spread.not_done (h : Spread w out o f) {x y : π} (hx : x ∈ f.flight)
    (hy : y ∈ f.done) : w.home x ≠ w.home y := by
  intro heq
  have hnd := h.nodup
  rw [ports, List.map_append] at hnd
  exact (List.nodup_append.mp hnd).2.2 _ (List.mem_map_of_mem hy) _
    (List.mem_map_of_mem hx) heq.symm

/-- None of the wires taken so far joins the two nodes of a wire by which a
copy leaves now. -/
theorem Spread.edge_ne (h : Spread w out o f) (hf : w.Forest)
    (hl : w.Local out) {x y z : π} (hx : x ∈ f.flight) (hy : y ∈ out x)
    (hz : w.far y = some z) {y' z' : π} (hz' : z' ∈ f.ports) (hne : z' ≠ o)
    (hfar : w.far y' = some z') :
    s(w.home y', w.home z') ≠ s(w.home y, w.home z) := by
  intro heq
  rcases Sym2.eq_iff.mp heq with ⟨hy', hz''⟩ | ⟨hy', hz''⟩
  · -- the same wire in the same direction: node `home x` has sent before
    obtain ⟨x', hdone, u, hu, hfaru⟩ := h.sent z' hz' hne
    have huy : u = y' := by
      have h₁ := w.symm hfaru
      rw [w.symm hfar] at h₁
      exact (Option.some.inj h₁).symm
    refine h.not_done hx hdone ?_
    rw [← hl.home hy, ← hl.home hu, huy, hy']
  · -- the other direction: it is the wire the copy came by
    have hzx : z' = x := h.eq_of_home hz'
      (List.mem_append_right _ hx) (by rw [hz'', hl.home hy])
    rw [hzx] at hfar
    exact hl.other hy (hf.single hz (w.symm hfar) (hl.home hy) hy'.symm)

/-- A copy only leaves for nodes that no copy has reached or is on its way
to. -/
theorem Spread.fresh (h : Spread w out o f) (hf : w.Forest)
    (hl : w.Local out) {x y z : π} (hx : x ∈ f.flight) (hy : y ∈ out x)
    (hz : w.far y = some z) {v : π} (hv : v ∈ f.ports) :
    w.home v ≠ w.home z := by
  intro heq
  have hbridge := SimpleGraph.isAcyclic_iff_forall_adj_isBridge.mp hf.acyclic
    (Wires.adj_of_far hf hz)
  refine SimpleGraph.isBridge_iff.mp hbridge ?_
  have hreach := h.joined (w.graph.deleteEdges {s(w.home y, w.home z)})
    fun y' z' hz' hne hfar => by
      rw [SimpleGraph.deleteEdges_adj]
      exact ⟨Wires.adj_of_far hf hfar, fun hmem =>
        h.edge_ne hf hl hx hy hz hz' hne hfar (Set.mem_singleton_iff.mp hmem)⟩
  rw [hl.home hy] at hreach ⊢
  rw [← heq] at hreach ⊢
  exact (hreach x (List.mem_append_right _ hx)).symm.trans (hreach v hv)

theorem ports_step {k : Nat} (hs : step w out k f = some f') :
    ∃ x ∈ f.flight, f'.done = f.done ++ [x] ∧
      f'.ports.Perm (f.ports ++ (out x).filterMap w.far) := by
  unfold step at hs
  split at hs
  · cases hs
  · next x hx =>
      cases hs
      obtain ⟨hk, rfl⟩ := List.getElem?_eq_some_iff.mp hx
      refine ⟨_, List.getElem_mem hk, rfl, ?_⟩
      have hperm := List.getElem_cons_eraseIdx_perm hk
      simp only [ports, List.append_assoc]
      refine List.Perm.append_left _ ?_
      rw [← List.append_assoc, List.singleton_append]
      exact hperm.append_right _

/-- The nodes that one arrival sends copies to are all different. -/
theorem homes_nodup (hf : w.Forest) (hl : w.Local out) (x : π) :
    (((out x).filterMap w.far).map w.home).Nodup := by
  rw [List.Nodup, List.pairwise_map, List.pairwise_filterMap]
  refine (hl.nodup x).imp_of_mem ?_
  intro y y' hy hy' hne z hz z' hz' heq
  exact hne (hf.single hz hz' (by rw [hl.home hy, hl.home hy']) heq)

theorem spread_start (w : Wires ν π) (out : π → List π) (o : π) :
    Spread w out o (start o) where
  nodup := List.nodup_singleton _
  origin := List.mem_singleton_self o
  sent z hz hne := (hne (List.mem_singleton.mp hz)).elim
  joined g _ z hz := by rw [List.mem_singleton.mp hz]

theorem spread_step (hf : w.Forest) (hl : w.Local out) {k : Nat}
    (h : Spread w out o f) (hs : step w out k f = some f') :
    Spread w out o f' := by
  obtain ⟨x, hx, hdone, hperm⟩ := ports_step hs
  have hold : ∀ z ∈ f.ports, z ∈ f'.ports := fun z hz =>
    hperm.mem_iff.mpr (List.mem_append_left _ hz)
  have hnew : ∀ z ∈ f'.ports, z ∈ f.ports ∨ ∃ y ∈ out x, w.far y = some z := by
    intro z hz
    rcases List.mem_append.mp (hperm.mem_iff.mp hz) with hz | hz
    · exact .inl hz
    · exact .inr (List.mem_filterMap.mp hz)
  refine ⟨?_, hold o h.origin, ?_, ?_⟩
  · rw [(hperm.map w.home).nodup_iff, List.map_append]
    refine List.nodup_append.mpr ⟨h.nodup, homes_nodup hf hl x, ?_⟩
    intro a ha b hb
    obtain ⟨v, hv, rfl⟩ := List.mem_map.mp ha
    obtain ⟨z, hz, rfl⟩ := List.mem_map.mp hb
    obtain ⟨y, hy, hfar⟩ := List.mem_filterMap.mp hz
    exact h.fresh hf hl hx hy hfar hv
  · intro z hz hne
    rw [hdone]
    rcases hnew z hz with hz | ⟨y, hy, hfar⟩
    · obtain ⟨x', hx', hsent⟩ := h.sent z hz hne
      exact ⟨x', List.mem_append_left _ hx', hsent⟩
    · exact ⟨x, List.mem_append_right _ List.mem_cons_self, y, hy, hfar⟩
  · intro g hg z hz
    have hreach := h.joined g fun y z hz => hg y z (hold z hz)
    rcases hnew z hz with hz | ⟨y, hy, hfar⟩
    · exact hreach z hz
    · have hne : z ≠ o := by
        rintro rfl
        exact h.fresh hf hl hx hy hfar h.origin rfl
      have hadj := hg y z hz hne hfar
      rw [hl.home hy] at hadj
      exact (hreach x (List.mem_append_right _ hx)).trans hadj.reachable

/-- No node passes the message on twice. -/
theorem Spread.once (h : Spread w out o f) : (f.done.map w.home).Nodup := by
  have hnd := h.nodup
  rw [ports, List.map_append] at hnd
  exact (List.nodup_append.mp hnd).1

end Flood

end MediaServer.Lib
