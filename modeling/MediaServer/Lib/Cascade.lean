import MediaServer.Lib.Rest
import Mathlib.Data.List.Perm.Basic
import Mathlib.Logic.Hydra
import Mathlib.Order.WellFounded

/-!
# Work that begets lighter work

A system has jobs to do, each of some weight. An action of its own does one of
them, and leaves any number of new ones, all lighter. How many is not bounded,
so no rank counts the actions in advance; but the multiset of weights goes
down in a well-founded order, and the system comes to rest.
-/

namespace MediaServer.Lib

open Relation

variable {σ α β : Type} {step : α → σ → Option σ} {own : α → Prop}
variable {P : σ → Prop} {load : σ → Multiset Nat}

section Cut

variable (hstep : ∀ a s s', P s → own a → step a s = some s' →
  P s' ∧ CutExpand (· < ·) (load s') (load s))
include hstep

end Cut

/-! ## Weighing lists -/

end MediaServer.Lib
