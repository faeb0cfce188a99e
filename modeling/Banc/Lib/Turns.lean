import Mathlib.Data.List.Nodup
import Mathlib.Tactic.Common

/-!
# Taking turns

Several agents do things, one thing after the other, and what they do is logged with who
did it. They take turns if each of them does all it does in one go: what an agent does
is not interrupted by another. Read as a rule, an agent that has not had a turn may
begin one, and what is done is done by the one whose turn it is.
-/

namespace Turns

variable {κ β : Type*}

/-- What is logged if these agents have had their turns in this order. -/
inductive InTurns : List κ → List (κ × β) → Prop where
  | nil : InTurns [] []
  | begin {ks : List κ} {log : List (κ × β)} {k : κ} (h : InTurns ks log) (hk : k ∉ ks) :
    InTurns (ks ++ [k]) log
  | act {ks : List κ} {log : List (κ × β)} {k : κ} (h : InTurns (ks ++ [k]) log) (b : β) :
    InTurns (ks ++ [k]) (log ++ [(k, b)])

/-- The log of turns, each of an agent and what it does in it. -/
def logOf (turns : List (κ × List β)) : List (κ × β) :=
  turns.flatMap (fun turn => turn.2.map (Prod.mk turn.1))

/-- **Who takes turns has one each.** -/
theorem InTurns.exists_turns {ks : List κ} {log : List (κ × β)} (h : InTurns ks log) :
    ks.Nodup ∧ ∃ turns : List (κ × List β), turns.map Prod.fst = ks ∧ log = logOf turns := by
  induction h with
  | nil => exact ⟨List.nodup_nil, [], rfl, rfl⟩
  | @begin ks log k h hk ih =>
    obtain ⟨hnodup, turns, rfl, rfl⟩ := ih
    refine ⟨?_, turns ++ [(k, [])], List.map_append, ?_⟩
    · rw [← List.concat_eq_append]
      exact List.Nodup.concat hk hnodup
    unfold logOf
    rw [List.flatMap_append]
    exact (List.append_nil _).symm
  | @act ks log k h b ih =>
    obtain ⟨hnodup, turns, hturns, rfl⟩ := ih
    refine ⟨hnodup, ?_⟩
    -- the turn that goes on is the last
    obtain ⟨before, last, rfl, rfl, hlast⟩ := List.map_eq_append_iff.mp hturns
    obtain ⟨⟨k', bs⟩, rfl, rfl⟩ := List.map_eq_singleton_iff.mp hlast
    refine ⟨before ++ [(k', bs ++ [b])], by rw [List.map_append]; rfl, ?_⟩
    unfold logOf
    rw [List.flatMap_append, List.flatMap_append, List.append_assoc]
    simp

end Turns
