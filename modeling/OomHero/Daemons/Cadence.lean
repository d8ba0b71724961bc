import OomHero.Daemons.SendSignal

/-!
# Daemons - Repeated sends

A process that stays over its limits is signalled again and again.  How long it can be
left alone is bounded by the cooldown and by how often it is observed.

Main results:

- Theorem {lit}`Monitor.attempts_cadence`: while a process is observed over its limits,
  the sends to its pid do not come to rest.
-/

namespace OomHero

variable {F : Type}

namespace Monitor

/-- How long a send holds back the next one of its severity. -/
def interval (m : Monitor F) (a : Attempt F) : Nat :=
  if a.outcome.isOk then m.cooldownInterval else fromSecs 1

/-- A call comes within some time of the one before it.  The clock is read before the
cooldown check and again before the send. -/
structure ComesWithin (spacing : Nat) (c c' : Call F) : Prop where
  ordered : c.checkedAt ≤ c.startedAt
  spaced : c'.startedAt ≤ c.checkedAt + spacing

instance (spacing : Nat) (c c' : Call F) : Decidable (ComesWithin spacing c c') :=
  decidable_of_iff (c.checkedAt ≤ c.startedAt ∧ c'.startedAt ≤ c.checkedAt + spacing)
    ⟨fun h => ⟨h.1, h.2⟩, fun h => ⟨h.ordered, h.spaced⟩⟩

/-- A record that holds a call back is of a recent send of the same severity. -/
structure HeldBy (m : Monitor F) (c : Call F) (a : Attempt F) : Prop where
  severity : a.severity = c.severity
  recent : c.checkedAt < a.when + m.interval a

theorem heldBy_of_held {m : Monitor F} {c c' : Call F}
    (h : m.gate.passes (some (m.gate.record c)) c' = false) : m.HeldBy c' c.attempt := by
  have hheld : m.suppresses c.attempt.record c' = true := by
    simpa [gate] using h
  unfold suppresses at hheld
  rw [Bool.and_eq_true, decide_eq_true_eq, decide_eq_true_eq] at hheld
  have hrecent : elapsed c'.checkedAt c.attempt.when < m.interval c.attempt := hheld.2
  refine ⟨hheld.1, ?_⟩
  unfold elapsed at hrecent
  omega

theorem gate_fresh (m : Monitor F) (c : Call F) : m.gate.passes none c = true :=
  (m.gate_passes none c).mpr nofun

variable [F32 F]

/-- Every call is answered, by its own send or by one that holds it back. -/
theorem exists_attempt_of_call {m : Monitor F} (startedAt : Nat) {passes : List (Pass F)}
    {c : Call F} (hc : c ∈ m.calls passes) :
    ∃ a ∈ m.attempts startedAt passes, a.process.pid = c.process.pid ∧
      (a = c.attempt ∨ m.HeldBy c a) := by
  have hanswered : ∃ passed ∈ m.gate.passed m.maxCapacity (m.calls passes),
      m.gate.key passed = m.gate.key c ∧
        (passed = c ∨ m.gate.passes (some (m.gate.record passed)) c = false) :=
    m.gate.exists_passed_of_mem m.gate_fresh hc
  obtain ⟨passed, hpassed, hpid, hcases⟩ := hanswered
  refine ⟨passed.attempt, ?_, hpid, ?_⟩
  · rw [(m.run_gate startedAt passes).2]
    exact List.mem_map_of_mem hpassed
  · rcases hcases with rfl | hheld
    · exact Or.inl rfl
    · exact Or.inr (heldBy_of_held hheld)

/-- While the observations of a pid over its limits keep coming, each within some time of
the one before, the sends to the pid keep coming too: two in a row are at most that time and
the interval of the first apart, and the last observation is itself sent, or comes within
that interval of the last send.  This holds whatever severities alternate, however the sends
end and whatever the cache evicts. -/
theorem attempts_cadence (m : Monitor F) (startedAt : Nat) (passes : List (Pass F)) (pid : Int32)
    (spacing : Nat)
    (hspaced : ((m.calls passes).filter fun c => c.process.pid = pid).IsChain
      (ComesWithin spacing)) :
    (((m.attempts startedAt passes).filter fun a => a.process.pid = pid).IsChain fun a a' =>
        a'.when ≤ a.when + m.interval a + spacing) ∧
      ∀ c ∈ ((m.calls passes).filter fun c => c.process.pid = pid).getLast?,
        ∃ a ∈ ((m.attempts startedAt passes).filter fun a => a.process.pid = pid).getLast?,
          a = c.attempt ∨ c.checkedAt < a.when + m.interval a := by
  have hattempts : ((m.attempts startedAt passes).filter fun a => a.process.pid = pid) =
      ((m.gate.passed m.maxCapacity (m.calls passes)).filter fun c => c.process.pid = pid).map
        Call.attempt := by
    rw [(m.run_gate startedAt passes).2, List.filter_map]
    rfl
  have hwhen : ∀ c : Call F, c.attempt.when = c.startedAt := fun _ => rfl
  rw [hattempts]
  constructor
  · rw [List.isChain_map]
    apply Gate.passed_chain m.gate_fresh ?_ ?_ hspaced
    · intro c c' h
      have hnext := h.spaced
      have hordered := h.ordered
      rw [hwhen, hwhen]
      omega
    · intro c h c' hheld hnext
      have hrecent := (heldBy_of_held hheld).recent
      have hspaced := hnext.spaced
      rw [hwhen] at hrecent ⊢
      rw [hwhen]
      omega
  · intro c hc
    have hpassed : ∃ last,
        m.gate.lastUnder pid (m.gate.passed m.maxCapacity (m.calls passes)) = some last ∧
        (last = c ∨ m.gate.passes (some (m.gate.record last)) c = false) :=
      m.gate.exists_last_passed m.gate_fresh hc
    obtain ⟨last, hlast, hcases⟩ := hpassed
    refine ⟨last.attempt, ?_, ?_⟩
    · rw [List.getLast?_map]
      exact Option.map_eq_some_iff.mpr ⟨last, hlast, rfl⟩
    · rcases hcases with rfl | hheld
      · exact Or.inl rfl
      · exact Or.inr (heldBy_of_held hheld).recent

/-- A process that is at warning once a second, and one of whose signals fails. -/
def strainedPasses : List (Pass Whole) :=
  (List.range 70).map fun k =>
    let outcome := if k = 30 then .error (.nix "EPERM") else .ok ()
    scorePass [scoreVisit ⟨5, "worker"⟩ 1 (fromSecs k) outcome] (fromSecs k)

/-- It is warned at least every 31 seconds. -/
theorem strained_cadence :
    ((scoreMonitor.attempts 0 strainedPasses).filter fun a => a.process.pid = 5).IsChain
      fun a a' => a'.when ≤ a.when + scoreMonitor.interval a + fromSecs 1 :=
  (scoreMonitor.attempts_cadence 0 strainedPasses 5 (fromSecs 1) (by decide +kernel)).1

end Monitor
end OomHero
