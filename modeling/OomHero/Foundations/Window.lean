import Mathlib.Data.List.Chain
import OomHero.Foundations.Transducer

/-!
# Foundations - Reports once a window

A loop that ticks all the time but reports only in the first tick of each time
window.  A tick may bring a beat, the reading it would report, and it opens the next
window if it ends a full width after the current one was opened.

Main results:

- Theorem {lit}`Window.reports_chain`: if beats come steadily and the first tick of a
  window is not without one, the reports come steadily too.
- Theorem {lit}`Window.done_chain`: so does what is done for them without delay.
-/

namespace OomHero

open Transducer

/-- One tick: the time of its beat, if it has one, the time it ends, and the time at
which a next window would be opened. -/
structure Tick where
  beat : Option Nat
  endedAt : Nat
  resetAt : Nat

/-- The current window, and whether its first tick is still to come. -/
structure Window where
  openedAt : Nat
  fresh : Bool

namespace Window

/-- Report the beat of a tick if it is the first of its window. -/
def step (width : Nat) (w : Window) (t : Tick) : Window × List Nat :=
  let reported := if w.fresh then t.beat.toList else []
  if t.endedAt - w.openedAt < width then ({ w with fresh := false }, reported)
  else ({ openedAt := t.resetAt, fresh := true }, reported)

/-- The window a run starts with. -/
def initial (startedAt : Nat) : Window where
  openedAt := startedAt
  fresh := true

/-- The readings of a tick, in order. -/
def readings (t : Tick) : List Nat :=
  t.beat.toList ++ [t.endedAt, t.resetAt]

/-- The first tick of a window has a beat, once there has been a report. -/
def Due (width startedAt : Nat) (pre : List Tick) (t : Tick) : Prop :=
  (run (step width) (initial startedAt) pre).1.fresh = true →
    (run (step width) (initial startedAt) pre).2 ≠ [] → t.beat ≠ none

theorem step_snd (width : Nat) (w : Window) (t : Tick) :
    (w.step width t).2 = if w.fresh then t.beat.toList else [] := by
  unfold step
  dsimp only
  split <;> rfl

/-- The window after a tick: the same one, or a new one opened at its end. -/
theorem step_fst_cases (width : Nat) (w : Window) (t : Tick) :
    (t.endedAt < w.openedAt + width ∧
        (w.step width t).1 = { openedAt := w.openedAt, fresh := false }) ∨
      (w.step width t).1 = { openedAt := t.resetAt, fresh := true } := by
  unfold step
  dsimp only
  split <;> rename_i hwidth
  · exact Or.inl ⟨by omega, rfl⟩
  · exact Or.inr rfl

/-! ## What a tick preserves -/

/-- The reports so far are steady, and the last one is recent enough for the next to
be in time: the beats since it do not reach beyond the window. -/
structure Fresh (width spacing : Nat) (w : Window) (reports beats : List Nat) : Prop where
  steady : reports.IsChain fun u u' => u' ≤ u + (width + 2 * spacing)
  recent : ∀ u ∈ reports.getLast?, ∃ c ∈ beats.getLast?,
    (w.fresh = true → c ≤ u + (width + spacing)) ∧
      (w.fresh = false → w.openedAt ≤ u ∧ c < w.openedAt + width)

/-- The next beat is near the last one. -/
theorem near_of_chain {spacing : Nat} {beats : List Nat} {b c : Nat}
    (h : (beats ++ [b]).IsChain fun a a' => a' ≤ a + spacing) (hc : c ∈ beats.getLast?) :
    b ≤ c + spacing := by
  rw [List.isChain_append] at h
  exact h.2.2 c hc b (by simp)

/-- One tick preserves it. -/
theorem Fresh.step {width spacing : Nat} {w : Window} {reports beats : List Nat} {t : Tick}
    (h : Fresh width spacing w reports beats)
    (hclock : (w.openedAt :: readings t).Pairwise (· ≤ ·))
    (hbeats : (beats ++ t.beat.toList).IsChain fun a a' => a' ≤ a + spacing)
    (hdue : w.fresh = true → reports ≠ [] → t.beat ≠ none) :
    Fresh width spacing (w.step width t).1 (reports ++ (w.step width t).2)
      (beats ++ t.beat.toList) := by
  cases hfresh : w.fresh with
  | false =>
      have hnone : (w.step width t).2 = [] := by
        rw [step_snd, hfresh]
        rfl
      rw [hnone, List.append_nil]
      refine ⟨h.steady, fun u hu => ?_⟩
      obtain ⟨c, hc, -, hlate⟩ := h.recent u hu
      obtain ⟨hopened, hbefore⟩ := hlate hfresh
      cases hbeat : t.beat with
      | none =>
          refine ⟨c, by simpa using hc, ?_⟩
          rcases step_fst_cases width w t with ⟨-, hw⟩ | hw
          · rw [hw]
            exact ⟨by simp, fun _ => ⟨hopened, hbefore⟩⟩
          · rw [hw]
            exact ⟨fun _ => by omega, by simp⟩
      | some b =>
          rw [hbeat] at hbeats
          have hnear := near_of_chain hbeats hc
          have hended : b ≤ t.endedAt := by
            simp [readings, hbeat] at hclock
            omega
          refine ⟨b, by simp, ?_⟩
          rcases step_fst_cases width w t with ⟨hin, hw⟩ | hw
          · rw [hw]
            exact ⟨by simp, fun _ => ⟨hopened, hended.trans_lt hin⟩⟩
          · rw [hw]
            exact ⟨fun _ => by omega, by simp⟩
  | true =>
      have hsome : (w.step width t).2 = t.beat.toList := by
        rw [step_snd, hfresh]
        rfl
      rw [hsome]
      cases hbeat : t.beat with
      | none =>
          -- only before the first report
          have hempty : reports = [] := by
            by_contra hne
            exact hdue hfresh hne hbeat
          rw [hempty]
          exact ⟨.nil, by simp⟩
      | some b =>
          rw [hbeat] at hbeats
          refine ⟨?_, ?_⟩
          · apply h.steady.append (List.isChain_singleton b)
            intro u hu b' hb'
            obtain rfl : b = b' := by simpa using hb'
            obtain ⟨c, hc, hearly, -⟩ := h.recent u hu
            have hnear := near_of_chain hbeats hc
            have hbound := hearly hfresh
            omega
          · intro u hu
            obtain rfl : b = u := by simpa using hu
            have hopened : w.openedAt ≤ b ∧ b ≤ t.endedAt := by
              simp [readings, hbeat] at hclock
              omega
            refine ⟨b, by simp, ?_⟩
            rcases step_fst_cases width w t with ⟨hin, hw⟩ | hw
            · rw [hw]
              exact ⟨by simp, fun _ => ⟨hopened.1, hopened.2.trans_lt hin⟩⟩
            · rw [hw]
              exact ⟨fun _ => by omega, by simp⟩

/-- Whole runs preserve it. -/
theorem run_fresh {width spacing startedAt : Nat} {ticks : List Tick}
    (hclock : (startedAt :: ticks.flatMap readings).Pairwise (· ≤ ·))
    (hbeats : (ticks.filterMap Tick.beat).IsChain fun a a' => a' ≤ a + spacing)
    (hdue : AtEach (Due width startedAt) ticks) :
    Fresh width spacing (run (step width) (initial startedAt) ticks).1
        (run (step width) (initial startedAt) ticks).2 (ticks.filterMap Tick.beat) ∧
      (run (step width) (initial startedAt) ticks).1.openedAt ∈
        startedAt :: ticks.flatMap readings := by
  induction ticks using List.reverseRecOn with
  | nil => exact ⟨⟨.nil, by simp⟩, by simp [initial]⟩
  | append_singleton pre t ih =>
      have hsplit : startedAt :: (pre ++ [t]).flatMap readings =
          (startedAt :: pre.flatMap readings) ++ readings t := by
        simp
      rw [hsplit, List.pairwise_append] at hclock
      obtain ⟨hbefore, hwithin, hcross⟩ := hclock
      have hbeat : (pre ++ [t]).filterMap Tick.beat = pre.filterMap Tick.beat ++ t.beat.toList := by
        rw [List.filterMap_append, List.filterMap_cons]
        cases t.beat <;> rfl
      rw [hbeat] at hbeats
      obtain ⟨hfresh, hopened⟩ :=
        ih hbefore hbeats.left_of_append (hdue.of_prefix (List.prefix_append _ _))
      have hnow := hdue pre t (List.prefix_refl _)
      rw [run_concat, hbeat, hsplit]
      refine ⟨hfresh.step ?_ hbeats hnow, ?_⟩
      · rw [List.pairwise_cons]
        exact ⟨fun r hr => hcross _ hopened r hr, hwithin⟩
      · rcases step_fst_cases width (run (step width) (initial startedAt) pre).1 t with
          ⟨-, hw⟩ | hw
        · rw [hw]
          exact List.mem_append_left _ hopened
        · rw [hw]
          exact List.mem_append_right _ (by simp [readings])

/-- If beats come steadily and the first tick of a window is not without one, then
reports come steadily. -/
theorem reports_chain {width spacing startedAt : Nat} {ticks : List Tick}
    (hclock : (startedAt :: ticks.flatMap readings).Pairwise (· ≤ ·))
    (hbeats : (ticks.filterMap Tick.beat).IsChain fun a a' => a' ≤ a + spacing)
    (hdue : AtEach (Due width startedAt) ticks) :
    (run (step width) (initial startedAt) ticks).2.IsChain
      fun u u' => u' ≤ u + (width + 2 * spacing) :=
  (run_fresh hclock hbeats hdue).1.steady

/-- What is done for the reports, each at most a lag after it, comes as steadily as they do
up to the lag. -/
theorem done_chain {lag spacing : Nat} {reports done : List Nat}
    (hlate : List.Forall₂ (fun r d => r ≤ d ∧ d ≤ r + lag) reports done)
    (hchain : reports.IsChain fun r r' => r' ≤ r + spacing) :
    done.IsChain fun d d' => d' ≤ d + (spacing + lag) := by
  induction hlate with
  | nil => exact .nil
  | cons hfirst hrest ih =>
      cases hrest with
      | nil => exact .singleton _
      | cons hsecond hrest =>
          rw [List.isChain_cons_cons] at hchain ⊢
          exact ⟨by omega, ih hchain.2⟩

end Window
end OomHero
