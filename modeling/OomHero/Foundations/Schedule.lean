import Mathlib.Data.List.Basic
import Mathlib.Tactic

/-!
# Foundations - Schedules

A system of several parties makes one move at a time.  Which party moves next, and what
the environment contributes to its move, is up to the schedule, so a statement over all
schedules is a statement over all interleavings.  A move that the state does not allow
has no result.

Main results:

- Theorem {lit}`run_invariant`: what every move preserves holds after every schedule.
- Theorem {lit}`countP_add_rank_le`: a rank that some moves lower and none raises bounds
  how many of them a schedule has.
- Theorem {lit}`exists_turning_move`: what holds only after a schedule was brought about
  by one of its moves.
-/

namespace OomHero
namespace Schedule

variable {σ μ : Type}

/-- The state after all moves of a schedule, if each of them was possible. -/
def run (fire : σ → μ → Option σ) (s : σ) (moves : List μ) : Option σ :=
  moves.foldlM fire s

@[simp]
theorem run_nil (fire : σ → μ → Option σ) (s : σ) : run fire s [] = some s :=
  rfl

theorem run_cons_eq_some_iff {fire : σ → μ → Option σ} {s t : σ} {move : μ} {moves : List μ} :
    run fire s (move :: moves) = some t ↔
      ∃ next, fire s move = some next ∧ run fire next moves = some t := by
  unfold run
  rw [List.foldlM_cons, Option.bind_eq_bind, Option.bind_eq_some_iff]

/-- A schedule continues in the state its first part reached. -/
theorem run_append_eq_some_iff {fire : σ → μ → Option σ} {s t : σ} {moves later : List μ} :
    run fire s (moves ++ later) = some t ↔
      ∃ middle, run fire s moves = some middle ∧ run fire middle later = some t := by
  unfold run
  rw [List.foldlM_append, Option.bind_eq_bind, Option.bind_eq_some_iff]

/-! ## Rules -/

/-- What every move preserves holds after every schedule. -/
theorem run_invariant {fire : σ → μ → Option σ} {P : σ → Prop}
    (hfire : ∀ s move t, P s → fire s move = some t → P t) {s t : σ} {moves : List μ}
    (hrun : run fire s moves = some t) (hs : P s) : P t := by
  induction moves generalizing s with
  | nil =>
      cases hrun
      exact hs
  | cons move moves ih =>
      obtain ⟨next, hnext, hrest⟩ := run_cons_eq_some_iff.mp hrun
      exact ih hrest (hfire s move next hs hnext)

/--
While {lit}`P` holds, every counted move lowers the rank and no move raises it.  Then the
rank bounds the number of counted moves.
-/
theorem countP_add_rank_le {fire : σ → μ → Option σ} {P : σ → Prop}
    (hfire : ∀ s move t, P s → fire s move = some t → P t) {rank : σ → Nat}
    {counted : μ → Bool}
    (hrank : ∀ s move t, P s → fire s move = some t →
      rank t + (if counted move then 1 else 0) ≤ rank s) {s t : σ} {moves : List μ}
    (hrun : run fire s moves = some t) (hs : P s) :
    moves.countP counted + rank t ≤ rank s := by
  induction moves generalizing s with
  | nil =>
      cases hrun
      simp
  | cons move moves ih =>
      obtain ⟨next, hnext, hrest⟩ := run_cons_eq_some_iff.mp hrun
      have hlater := ih hrest (hfire s move next hs hnext)
      have hnow := hrank s move next hs hnext
      rw [List.countP_cons]
      omega

/-- What holds after a schedule but not before it was brought about by one of its moves. -/
theorem exists_turning_move {fire : σ → μ → Option σ} {P : σ → Prop} {s t : σ}
    {moves : List μ} (hrun : run fire s moves = some t) (hs : ¬ P s) (ht : P t) :
    ∃ move ∈ moves, ∃ before after, fire before move = some after ∧ ¬ P before ∧ P after := by
  induction moves generalizing s with
  | nil =>
      cases hrun
      exact absurd ht hs
  | cons move moves ih =>
      obtain ⟨next, hnext, hrest⟩ := run_cons_eq_some_iff.mp hrun
      by_cases hturned : P next
      · exact ⟨move, List.mem_cons_self, s, next, hnext, hs, hturned⟩
      · obtain ⟨later, hlater, hturn⟩ := ih hrest hturned
        exact ⟨later, List.mem_cons_of_mem move hlater, hturn⟩

end Schedule
end OomHero
