import OomHero.Daemons.Cooldown
import OomHero.Daemons.Identity

/-!
# Daemons - Retries

A failed send is recorded like one that succeeded, and holds back the calls of its
severity for one second instead of the cooldown.

Main results:

- Theorem {lit}`Monitor.firstTo_sendsAfter`: the next send to a pid is its first later
  call that the record of the last one does not hold back.
- Theorem {lit}`Monitor.failure_never_postpones`: if the cooldown is at least one
  second, a failure does not postpone the next send to its pid.
- Theorem {lit}`Monitor.failure_postpones_retry`: it does for a shorter cooldown.
-/

namespace OomHero

variable {F : Type}

/-- The first send to a pid. -/
def firstTo (pid : Int32) (attempts : List (Attempt F)) : Option (Attempt F) :=
  attempts.find? fun a => a.process.pid = pid

/-- A first send comes no later than another: it comes if that one does. -/
def NoLater (first second : Option (Attempt F)) : Prop :=
  ∀ b ∈ second, ∃ a ∈ first, a.when ≤ b.when

instance (first second : Option (Attempt F)) : Decidable (NoLater first second) :=
  inferInstanceAs (Decidable (∀ b ∈ second, ∃ a ∈ first, a.when ≤ b.when))

/-- A list ordered by {lit}`R` has the first element of a larger kind no later. -/
theorem find?_of_imp {α : Type} {R : α → α → Prop} {p q : α → Bool} {xs : List α} {b : α}
    (hordered : xs.Pairwise R) (himp : ∀ x ∈ xs, p x = true → q x = true)
    (hb : xs.find? p = some b) : ∃ a, xs.find? q = some a ∧ (a = b ∨ R a b) := by
  induction xs with
  | nil => simp at hb
  | cons x xs ih =>
      rw [List.pairwise_cons] at hordered
      by_cases hq : q x = true
      · refine ⟨x, by rw [List.find?_cons, hq], ?_⟩
        rw [List.find?_cons] at hb
        split at hb
        · exact Or.inl (Option.some.inj hb)
        · exact Or.inr (hordered.1 b (List.mem_of_find?_eq_some hb))
      · have hp : ¬ p x = true := fun h => hq (himp x (by simp) h)
        rw [List.find?_cons_of_neg hp] at hb
        rw [List.find?_cons_of_neg hq]
        exact ih hordered.2 (fun y hy => himp y (by simp [hy])) hb

/-- The same call, with another end. -/
def Call.withOutcome (c : Call F) (outcome : Except Error Unit) : Call F :=
  { c with outcome }

namespace Monitor

variable [F32 F]

/-- The sends of later observations, if a call ended with the given outcome. -/
def sendsAfter (m : Monitor F) (lastSignals : LastSignals) (c : Call F)
    (outcome : Except Error Unit) (passes : Int) (later : List (Visit F)) : List (Attempt F) :=
  sends (m.scan passes (m.sendSignal lastSignals (c.withOutcome outcome)).1 later).2

/-- What follows a call: the clock runs on, and the cache has room for the pids. -/
structure Follows (m : Monitor F) (pre : List (Call F)) (c : Call F) (later : List (Visit F)) :
    Prop where
  clock : ClockRuns (c :: later.filterMap m.call?)
  plain : m.PlainMap (pre ++ c :: later.filterMap m.call?)

/-- The next send to the pid of a call is its first later call that does not come
shortly after the call. -/
theorem firstTo_sendsAfter (m : Monitor F) {pre : List (Call F)} {c : Call F}
    (hsends : sends (m.sendSignal (m.gate.after m.maxCapacity pre) c).2 ≠ [])
    (outcome : Except Error Unit) (passes : Int) {later : List (Visit F)}
    (hplain : m.PlainMap (pre ++ c :: later.filterMap m.call?)) :
    firstTo c.process.pid (m.sendsAfter (m.gate.after m.maxCapacity pre) c outcome passes later) =
      ((later.filterMap m.call?).find? fun d => d.process.pid = c.process.pid ∧
        ¬ m.Recent (c.withOutcome outcome).attempt d).map Call.attempt := by
  -- whether the call sends does not depend on how it ends
  have hpass : m.gate.passes (m.gate.slot m.maxCapacity pre (c.withOutcome outcome))
      (c.withOutcome outcome) = true := by
    by_contra hheld
    apply hsends
    rw [sends_sendSignal_after]
    exact if_neg hheld
  have hstate : (m.sendSignal (m.gate.after m.maxCapacity pre) (c.withOutcome outcome)).1 =
      m.gate.after m.maxCapacity (pre ++ [c.withOutcome outcome]) := by
    rw [sendSignal_eq, Gate.step_after]
  have hlast : (m.gate.lastUnder c.process.pid
      (m.gate.passed m.maxCapacity (pre ++ [c.withOutcome outcome]))).map m.gate.record =
        some (c.withOutcome outcome).attempt.record := by
    rw [Gate.passed_concat, if_pos hpass, Gate.lastUnder_concat]
    exact congrArg (Option.map m.gate.record) (if_pos rfl)
  have hretains : m.gate.Retains m.maxCapacity
      (pre ++ [c.withOutcome outcome] ++ later.filterMap m.call?) := by
    refine PlainMap.retains ⟨?_, ?_⟩
    · simpa [Call.withOutcome] using hplain.fewPids
    · intro d hd
      rw [List.append_assoc, List.singleton_append, List.mem_append, List.mem_cons] at hd
      rcases hd with hpre | rfl | hlater
      · exact hplain.keeps d (List.mem_append_left _ hpre)
      · exact hplain.keeps c (by simp)
      · exact hplain.keeps d (List.mem_append_right _ (List.mem_cons_of_mem _ hlater))
  have hpasses : ∀ d : Call F, m.gate.passes (some (c.withOutcome outcome).attempt.record) d =
      decide (¬ m.Recent (c.withOutcome outcome).attempt d) := by
    intro d
    rw [Bool.eq_iff_iff, gate_passes, decide_eq_true_eq, ← suppresses_record_iff]
    simp
  unfold sendsAfter firstTo
  rw [hstate, ← (m.scan_gate passes _ later).2, List.find?_map]
  apply congrArg (Option.map Call.attempt)
  simp only [Bool.decide_and, ← hpasses]
  exact Gate.find?_run_after hretains hlast

/-- For a cooldown of at least one second, in every state a run reaches: if a call that
sends fails, the next send to its pid comes no later than if it had succeeded. -/
theorem failure_never_postpones (m : Monitor F) (hcooldown : fromSecs 1 ≤ m.cooldownInterval)
    (startedAt : Nat) (before : List (Pass F)) (c : Call F)
    (hsends : sends (m.sendSignal (m.run startedAt before).1.lastSignals c).2 ≠ [])
    (err : Error) (passes : Int) (later : List (Visit F))
    (hfollows : m.Follows (m.calls before) c later) :
    NoLater
      (firstTo c.process.pid
        (m.sendsAfter (m.run startedAt before).1.lastSignals c (.error err) passes later))
      (firstTo c.process.pid
        (m.sendsAfter (m.run startedAt before).1.lastSignals c (.ok ()) passes later)) := by
  rw [(m.run_gate startedAt before).1] at hsends ⊢
  rw [m.firstTo_sendsAfter hsends _ _ hfollows.plain,
    m.firstTo_sendsAfter hsends _ _ hfollows.plain]
  obtain ⟨hwithin, hbetween⟩ := hfollows.clock
  rw [List.pairwise_cons] at hbetween
  -- a call shortly after a failure is shortly after a success
  have hshort : ∀ d, m.Recent (c.withOutcome (.error err)).attempt d →
      m.Recent (c.withOutcome (.ok ())).attempt d := by
    intro d hrecent
    unfold Recent at hrecent ⊢
    have herr : (c.withOutcome (.error err)).attempt.outcome.isOk = false := rfl
    have hok : (c.withOutcome (.ok ())).attempt.outcome.isOk = true := rfl
    rw [herr, if_neg Bool.false_ne_true] at hrecent
    rw [hok, if_pos rfl]
    exact ⟨hrecent.1, lt_of_lt_of_le hrecent.2 hcooldown⟩
  intro b hb
  obtain ⟨d, hd, rfl⟩ := Option.map_eq_some_iff.mp hb
  obtain ⟨a, ha, hno⟩ := find?_of_imp hbetween.2
    (q := fun d => d.process.pid = c.process.pid ∧
      ¬ m.Recent (c.withOutcome (.error err)).attempt d)
    (fun x _ hx => by
      rw [decide_eq_true_eq] at hx ⊢
      exact ⟨hx.1, fun h => hx.2 (hshort x h)⟩) hd
  refine ⟨a.attempt, by rw [ha]; rfl, ?_⟩
  rcases hno with rfl | hearlier
  · exact le_refl _
  · have hstart := hwithin d (List.mem_cons_of_mem _ (List.mem_of_find?_eq_some hd))
    exact hearlier.trans hstart

/-! ## A pid under observation -/

/-- Observations of one process at Warning, at the given milliseconds. -/
def warnings (times : List Nat) : List (Visit Whole) :=
  times.map fun time => scoreVisit ⟨5, "postgres"⟩ 1 (fromMillis time) (.ok ())

/-- The call of the first of them. -/
def firstWarning : Call Whole :=
  (scoreVisit ⟨5, "postgres"⟩ 1 0 (.ok ())).call .warning
    { (default : CollectedData Whole) with oomScore := 1 }

/-- With the default cooldown a failure is retried after a second, a success after
thirty. -/
theorem failure_retried_early :
    NoLater
      (firstTo 5 (scoreMonitor.sendsAfter (scoreMonitor.run 0 []).1.lastSignals firstWarning
        (.error (.message "refused")) 0 (warnings [500, 1200, 31000])))
      (firstTo 5 (scoreMonitor.sendsAfter (scoreMonitor.run 0 []).1.lastSignals firstWarning
        (.ok ()) 0 (warnings [500, 1200, 31000]))) :=
  scoreMonitor.failure_never_postpones (by decide +kernel) 0 [] firstWarning (by decide +kernel)
    (.message "refused") 0 (warnings [500, 1200, 31000])
    ⟨⟨by decide +kernel, by decide +kernel⟩, by decide +kernel⟩

/-- A monitor with a cooldown of half a second. -/
def hastyMonitor : Monitor Whole :=
  scoreMonitor.withCooldownInterval (fromMillis 500)

/-- With that cooldown the next send comes at 1100 milliseconds after a failure, and at
600 after a success. -/
theorem failure_postpones_retry :
    sends (hastyMonitor.sendSignal (hastyMonitor.run 0 []).1.lastSignals firstWarning).2 ≠ [] ∧
      hastyMonitor.Follows (hastyMonitor.calls []) firstWarning (warnings [600, 1100]) ∧
      (∀ d ∈ (warnings [600, 1100]).filterMap hastyMonitor.call?,
        d.severity = firstWarning.severity) ∧
      ¬ NoLater
        (firstTo 5 (hastyMonitor.sendsAfter (hastyMonitor.run 0 []).1.lastSignals firstWarning
          (.error (.message "refused")) 0 (warnings [600, 1100])))
        (firstTo 5 (hastyMonitor.sendsAfter (hastyMonitor.run 0 []).1.lastSignals firstWarning
          (.ok ()) 0 (warnings [600, 1100]))) :=
  ⟨by decide +kernel, ⟨⟨by decide +kernel, by decide +kernel⟩, by decide +kernel⟩,
    by decide +kernel, by decide +kernel⟩

end Monitor
end OomHero
