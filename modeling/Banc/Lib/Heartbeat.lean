import Mathlib.Order.Basic
import Mathlib.Data.List.Chain

/-!
# Heartbeats

A permission that has to be renewed is alive as long as no gap between
consecutive signs of life reaches its time to live. `Alive ttl beats t`
says so for the signs of life `beats` and the instant `t`: every
consecutive gap of `beats ++ [t]` is strictly less than `ttl`.

The definition mentions no expiry instant. Where one is kept, as an
implementation that stores `last beat + ttl` does, `alive_concat` is what
relates the two: appending a beat moves the deadline to that beat, provided
the beat itself came in time.
-/

namespace Heartbeat

variable {τ : Type*} [Add τ]

/-- **Every gap between consecutive instants of `beats ++ [t]` is strictly
less than `ttl`.** -/
def Alive [LT τ] (ttl : τ) (beats : List τ) (t : τ) : Prop :=
  (beats ++ [t]).IsChain (fun a b => b < a + ttl)

instance [LT τ] [DecidableLT τ] (ttl : τ) (beats : List τ) (t : τ) :
    Decidable (Alive ttl beats t) :=
  inferInstanceAs (Decidable (List.IsChain _ _))

@[simp] theorem alive_singleton [LT τ] (ttl a t : τ) :
    Alive ttl [a] t ↔ t < a + ttl :=
  List.isChain_pair

/-- **A beat moves the deadline, if it came in time.** -/
theorem alive_concat [LT τ] (ttl : τ) (beats : List τ) (b t : τ) :
    Alive ttl (beats ++ [b]) t ↔ Alive ttl beats b ∧ t < b + ttl := by
  unfold Alive
  rw [List.append_assoc, List.singleton_append, List.isChain_split,
    List.isChain_pair]

end Heartbeat
