import OomHero.Daemons.History

/-!
# Daemons - The cooldown

The cooldown is meant as the minimum time between sends of the same signal.  The
record of a pid only has the last send to it, so a send of the other severity in
between makes the monitor forget the earlier one.

Main results:

- Theorem {lit}`Monitor.run_keeps_cooldown`: sends of one severity keep the cooldown
  in every run that forgets no send within the cooldown.
- Theorem {lit}`Monitor.spaced_passed_iff`: a run that forgets one breaks it.
- Theorem {lit}`Monitor.cooldown_fails_when_forgotten`: such runs exist.
-/

namespace OomHero

open Transducer

variable {F : Type}

namespace Monitor

/-- Successful sends of one severity to one pid start the cooldown apart. -/
def CooldownLaw (m : Monitor F) (attempts : List (Attempt F)) : Prop :=
  attempts.Pairwise fun a b =>
    a.process.pid = b.process.pid → a.severity = b.severity → a.outcome.isOk = true →
      b.outcome.isOk = true → a.when + m.cooldownInterval ≤ b.when

instance (m : Monitor F) (attempts : List (Attempt F)) : Decidable (m.CooldownLaw attempts) :=
  inferInstanceAs (Decidable (List.Pairwise _ attempts))

/-- The readings of the clock never decrease. -/
structure ClockRuns (calls : List (Call F)) : Prop where
  within : ∀ c ∈ calls, c.checkedAt ≤ c.startedAt
  between : calls.Pairwise fun c c' => c.startedAt ≤ c'.checkedAt

theorem ClockRuns.of_prefix {calls pre : List (Call F)} (h : ClockRuns calls)
    (hpre : pre <+: calls) : ClockRuns pre where
  within c hc := h.within c (hpre.subset hc)
  between := h.between.sublist hpre.sublist

variable [F32 F]

/-- A call that finds the record of the other severity comes the cooldown after the
sends of its own severity that succeeded before. -/
def ForgetsNone (m : Monitor F) (pre : List (Call F)) (c : Call F) : Prop :=
  ∀ last ∈ (m.sendAll pre).1.get? c.process.pid, last.severity ≠ c.severity →
    ∀ a ∈ sends (m.sendAll pre).2, a.process.pid = c.process.pid → a.severity = c.severity →
      a.outcome.isOk = true → a.when + m.cooldownInterval ≤ c.startedAt

instance (m : Monitor F) (pre : List (Call F)) (c : Call F) : Decidable (m.ForgetsNone pre c) :=
  inferInstanceAs (Decidable (∀ last ∈ _, _))

/-- No call of a run forgets a send within the cooldown. -/
def NoForgottenSend (m : Monitor F) (calls : List (Call F)) : Prop :=
  AtEach m.ForgetsNone calls

instance (m : Monitor F) (calls : List (Call F)) : Decidable (m.NoForgottenSend calls) :=
  inferInstanceAs (Decidable (AtEach _ _))

/-- Each send starts the cooldown after every earlier success of its severity. -/
def Spaced (m : Monitor F) (passed : List (Call F)) : Prop :=
  passed.Pairwise fun a b =>
    a.process.pid = b.process.pid → a.severity = b.severity → a.outcome.isOk = true →
      a.startedAt + m.cooldownInterval ≤ b.startedAt

omit [F32 F] in
/-- A call that a record of its severity lets pass is late enough for every earlier
success of that severity, if the recorded send was. -/
theorem spaced_of_same {m : Monitor F} {init : List (Call F)} {last c a : Call F}
    (hspaced : m.Spaced (init ++ [last])) (hclock : last.startedAt ≤ c.checkedAt)
    (hwithin : c.checkedAt ≤ c.startedAt) (hseverity : last.severity = c.severity)
    (hfree : m.suppresses last.attempt.record c = false) (ha : a ∈ init ++ [last])
    (hpid : a.process.pid = last.process.pid) (hsame : a.severity = c.severity)
    (hok : a.outcome.isOk = true) : a.startedAt + m.cooldownInterval ≤ c.startedAt := by
  rcases List.mem_append.mp ha with hinit | hlast
  · -- an earlier success: the recorded send already kept its distance
    have hpair := (List.pairwise_append.mp hspaced).2.2 a hinit last (by simp)
    have hdistance := hpair hpid (hsame.trans hseverity.symm) hok
    omega
  · -- the recorded send itself: the record is older than the cooldown
    obtain rfl : a = last := by simpa using hlast
    simp only [suppresses, Call.attempt, Attempt.record, hseverity, hok, decide_true,
      Bool.true_and, if_true, decide_eq_false_iff_not, not_lt] at hfree
    unfold elapsed at hfree
    omega

/-- One step: a call that passes keeps its distance. -/
theorem spaced_step {m : Monitor F} {pre : List (Call F)} {c : Call F}
    (hplain : m.PlainMap (pre ++ [c])) (hclock : ClockRuns (pre ++ [c]))
    (hforgotten : m.NoForgottenSend (pre ++ [c]))
    (hspaced : m.Spaced (m.gate.passed m.maxCapacity pre))
    (hpass : m.gate.passes (m.gate.slot m.maxCapacity pre c) c = true) :
    m.Spaced (m.gate.passed m.maxCapacity pre ++ [c]) := by
  refine List.pairwise_append.mpr ⟨hspaced, List.pairwise_singleton _ _, ?_⟩
  intro a ha c' hc' hpid hseverity hok
  obtain rfl : c' = c := by simpa using hc'
  obtain ⟨init, last, hfilter, hunder⟩ := Gate.exists_lastUnder (g := m.gate) ha hpid
  have hlast := Gate.lastUnder_some hunder
  -- the record the call finds is that of the last send to its pid
  have hslot : m.gate.slot m.maxCapacity pre c' = some last.attempt.record := by
    rw [Gate.slot_eq hplain.retains, gate_key, hunder]
    rfl
  by_cases hsame : last.severity = c'.severity
  · have hmem : a ∈ init ++ [last] := by
      rw [← hfilter]
      exact List.mem_filter.mpr ⟨ha, decide_eq_true hpid⟩
    have hkept : m.Spaced (init ++ [last]) := by
      rw [← hfilter]
      exact List.Pairwise.filter _ hspaced
    have hbefore : last.startedAt ≤ c'.checkedAt :=
      (List.pairwise_append.mp hclock.between).2.2 last
        ((m.gate.passed_sublist pre).subset hlast.1) c' (by simp)
    have hfree := (m.gate_passes _ c').mp hpass _ hslot
    exact spaced_of_same hkept hbefore (hclock.within c' (by simp)) hsame hfree hmem
      (hpid.trans hlast.2.symm) hseverity hok
  · have hget : (m.sendAll pre).1.get? c'.process.pid = some last.attempt.record := by
      rw [(m.sendAll_gate pre).1, ← m.gate_slot pre (hplain.keeps c' (by simp)), hslot]
    have hsent : a.attempt ∈ sends (m.sendAll pre).2 := by
      rw [(m.sendAll_gate pre).2]
      exact List.mem_map_of_mem ha
    exact hforgotten pre c' (List.prefix_refl _) _ hget hsame a.attempt hsent hpid hseverity hok

/-- A whole run: the calls that pass keep their distance. -/
theorem spaced_passed {m : Monitor F} {calls : List (Call F)} (hplain : m.PlainMap calls)
    (hclock : ClockRuns calls) (hforgotten : m.NoForgottenSend calls) :
    m.Spaced (m.gate.passed m.maxCapacity calls) := by
  induction calls using List.reverseRecOn with
  | nil => exact List.Pairwise.nil
  | append_singleton pre c ih =>
      have hpre : pre <+: pre ++ [c] := List.prefix_append _ _
      have hspaced := ih (hplain.of_subset hpre.subset) (hclock.of_prefix hpre)
        (AtEach.of_prefix hforgotten hpre)
      rw [Gate.passed_concat]
      split <;> rename_i hpass
      · exact spaced_step hplain hclock hforgotten hspaced hpass
      · rw [List.append_nil]
        exact hspaced

/-- A call that finds the record of the other severity sends. -/
theorem forgotten_send_sends {m : Monitor F} {pre : List (Call F)} {c : Call F}
    {last : SignalRecord} (hkeeps : c.lost = [])
    (hlast : (m.sendAll pre).1.get? c.process.pid = some last)
    (hother : last.severity ≠ c.severity) :
    m.gate.passed m.maxCapacity (pre ++ [c]) = m.gate.passed m.maxCapacity pre ++ [c] := by
  have hslot : m.gate.slot m.maxCapacity pre c = some last := by
    rw [m.gate_slot pre hkeeps, ← (m.sendAll_gate pre).1, hlast]
  have hpass : m.gate.passes (m.gate.slot m.maxCapacity pre c) c = true := by
    rw [gate_passes, hslot]
    intro found hfound
    cases hfound
    simp [suppresses, hother]
  rw [Gate.passed_concat, if_pos hpass]

/-- The condition is exact: sends come the cooldown after every earlier success of
their severity only in runs that forget none. -/
theorem spaced_passed_iff {m : Monitor F} {calls : List (Call F)} (hplain : m.PlainMap calls)
    (hclock : ClockRuns calls) :
    m.Spaced (m.gate.passed m.maxCapacity calls) ↔ m.NoForgottenSend calls := by
  refine ⟨?_, spaced_passed hplain hclock⟩
  intro hspaced pre c hpre last hlast hother a ha hpid hseverity hok
  have hsent : m.gate.passed m.maxCapacity (pre ++ [c]) <+: m.gate.passed m.maxCapacity calls :=
    m.gate.passed_prefix hpre
  rw [forgotten_send_sends (hplain.keeps c (hpre.subset (by simp))) hlast hother] at hsent
  rw [(m.sendAll_gate pre).2] at ha
  obtain ⟨before, hbefore, rfl⟩ := List.mem_map.mp ha
  have hpair := hspaced.sublist hsent.sublist
  exact (List.pairwise_append.mp hpair).2.2 before hbefore c (by simp) hpid hseverity hok

/-- In a run that forgets no send within the cooldown, two successful sends of one
severity to one pid start at least the cooldown apart. -/
theorem run_keeps_cooldown (m : Monitor F) (startedAt : Nat) (passes : List (Pass F))
    (hplain : m.PlainMap (m.calls passes)) (hclock : ClockRuns (m.calls passes))
    (hforgotten : m.NoForgottenSend (m.calls passes)) :
    m.CooldownLaw (m.attempts startedAt passes) := by
  rw [(m.run_sendAll startedAt passes).2, (m.sendAll_gate (m.calls passes)).2]
  unfold CooldownLaw
  rw [List.pairwise_map]
  apply (spaced_passed hplain hclock hforgotten).imp
  intro a b hspaced hpid hseverity hok _
  exact hspaced hpid hseverity hok

/-- A process that is observed at warning, at critical and at warning again, the last
time after a given time. -/
def swingingPasses (again : Nat) : List (Pass Whole) :=
  let worker : Process := { pid := 5, cmdline := "worker" }
  [scorePass [scoreVisit worker 1 0 (.ok ())] 0,
    scorePass [scoreVisit worker 2 (fromSecs 1) (.ok ())] (fromSecs 1),
    scorePass [scoreVisit worker 1 again (.ok ())] again]

/-- The law holds where the last warning comes the cooldown after the first. -/
theorem cooldown_kept_when_waited :
    scoreMonitor.CooldownLaw (scoreMonitor.attempts 0 (swingingPasses (fromSecs 30))) :=
  scoreMonitor.run_keeps_cooldown 0 (swingingPasses (fromSecs 30)) (by decide +kernel)
    ⟨by decide +kernel, by decide +kernel⟩ (by decide +kernel)

/-- It fails where the critical signal makes the monitor forget the first warning. -/
theorem cooldown_fails_when_forgotten :
    scoreMonitor.PlainMap (scoreMonitor.calls (swingingPasses (fromSecs 2))) ∧
      ClockRuns (scoreMonitor.calls (swingingPasses (fromSecs 2))) ∧
      ¬ scoreMonitor.CooldownLaw (scoreMonitor.attempts 0 (swingingPasses (fromSecs 2))) :=
  ⟨by decide +kernel, ⟨by decide +kernel, by decide +kernel⟩, by decide +kernel⟩

end Monitor
end OomHero
