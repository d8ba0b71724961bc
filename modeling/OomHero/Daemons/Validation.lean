import OomHero.Daemons.SendSignal

/-!
# Daemons - What startup validation promises

The check at startup parses the expressions.  It does not look at their variables,
so an accepted expression may still fail to evaluate.

Main results:

- Theorem {lit}`Monitor.accepted_evaluates`: which data accepted expressions evaluate
  on, and which matching processes they hand to {lit}`send_signal`.
- Theorem {lit}`Monitor.misspelled_critical_accepted`: a misspelled variable passes the
  check at startup and hides a matching warning.
-/

namespace OomHero

open ThresholdsChecker

/-! ## Acceptance -/

/-- The expressions pass the check at startup and are parsed into a checker. -/
structure Accepted {V : Type} (engine : Fasteval V) (warning critical : String)
    (checker : ThresholdsChecker V) : Prop where
  warningValid : validateExpression engine warning = .ok warning
  criticalValid : validateExpression engine critical = .ok critical
  parsed : newFrom engine warning critical = .ok checker

/-- The check at startup accepts what parses. -/
theorem validateExpression_ok_iff {V : Type} (engine : Fasteval V) (s : String) :
    validateExpression engine s = .ok s ↔ ∃ e, engine.parse s = .ok e := by
  unfold validateExpression
  cases engine.parse s <;> simp

/-- Parsing both expressions is all the check at startup asks for. -/
theorem accepted_iff {V : Type} (engine : Fasteval V) (warning critical : String)
    (checker : ThresholdsChecker V) :
    Accepted engine warning critical checker ↔
      engine.parse warning = .ok checker.warning ∧
        engine.parse critical = .ok checker.critical := by
  constructor
  · intro h
    have hparsed := h.parsed
    unfold newFrom at hparsed
    cases hw : engine.parse warning with
    | error err =>
        rw [hw] at hparsed
        cases hparsed
    | ok e =>
        cases hc : engine.parse critical with
        | error err =>
            rw [hw, hc] at hparsed
            cases hparsed
        | ok e' =>
            rw [hw, hc] at hparsed
            cases hparsed
            exact ⟨rfl, rfl⟩
  · intro h
    constructor
    · exact (validateExpression_ok_iff engine warning).mpr ⟨_, h.1⟩
    · exact (validateExpression_ok_iff engine critical).mpr ⟨_, h.2⟩
    · unfold newFrom
      rw [h.1, h.2]
      rfl

/-! ## Evaluation -/

namespace Monitor

variable {F V : Type} [F32 F] [F64 V] [Widen F V]

/-- A process whose warning expression matches is handed to {lit}`send_signal` exactly
when its critical expression evaluates. -/
theorem call?_of_match {engine : Fasteval V} {checker : ThresholdsChecker V} {m : Monitor F}
    {v : Visit F} {data : CollectedData F} (hthresholds : m.thresholds = checker.against engine)
    (hmonitored : ¬ m.Excluded v.process) (hcollected : v.collected = .ok data)
    (hmatch : Matches engine data checker.warning) :
    (∃ c, m.call? v = some c) ↔ Known engine data checker.critical := by
  constructor
  · rintro ⟨c, hcall⟩
    rcases (m.call?_eq_some_iff v c).mp hcall with
      ⟨-, -, data', severity, hdata, hchecked, -, -⟩
    obtain rfl : data' = data := by
      rw [hdata] at hcollected
      exact Except.ok.inj hcollected
    rw [hthresholds] at hchecked
    exact ((against_ok_iff engine checker data').mp ⟨severity, hchecked⟩).1
  · intro hknown
    rcases hmatch with ⟨w, hw, hge⟩
    have hwarning : Known engine data checker.warning := (known_iff _ _ _).mpr ⟨w, hw⟩
    obtain ⟨severity, hchecked⟩ :=
      (against_ok_iff engine checker data).mpr ⟨hknown, fun _ => hwarning⟩
    have hcrossed := against_ne_none hchecked ⟨w, hw, hge⟩
    have hparts := not_or.mp hmonitored
    refine ⟨_, (m.call?_eq_some_iff v _).mpr
      ⟨hparts.1, hparts.2, data, severity, hcollected, ?_, hcrossed, rfl⟩⟩
    rw [hthresholds]
    exact hchecked

/-- A turn that makes a call is its gauges and that call. -/
theorem visit_of_call {m : Monitor F} {v : Visit F} {data : CollectedData F} {c : Call F}
    (hcollected : v.collected = .ok data) (hcall : m.call? v = some c) (passes : Int)
    (lastSignals : LastSignals) :
    m.visit passes lastSignals v =
      ((m.sendSignal lastSignals c).1,
        turnGauges passes v data ++ (m.sendSignal lastSignals c).2) := by
  have hturn := m.visit_turn passes lastSignals v
  rw [hcall] at hturn
  generalize m.visit passes lastSignals v = r at hturn
  cases hturn with
  | crossed data' severity hmonitored hdata hevaluated hcrossed =>
      rw [hcollected] at hdata
      cases hdata
      rfl

/-- A turn that makes no call sends nothing. -/
theorem visit_of_no_call {m : Monitor F} {v : Visit F} (hcall : m.call? v = none) (passes : Int)
    (lastSignals : LastSignals) : sends (m.visit passes lastSignals v).2 = [] := by
  rw [← (m.visit_gate passes lastSignals v).2, hcall]
  rfl

/-- What accepted expressions promise: a check succeeds exactly when it reaches known
variables only, and then the turn of a matching process is its gauges and a call of
{lit}`send_signal`.  Otherwise the turn sends nothing.  With documented variables every
check succeeds. -/
theorem accepted_evaluates {engine : Fasteval V} {warning critical : String}
    {checker : ThresholdsChecker V} (haccepted : Accepted engine warning critical checker) :
    (engine.parse warning = .ok checker.warning ∧
      engine.parse critical = .ok checker.critical) ∧
    (∀ cd : CollectedData F, (∃ severity, checker.against engine cd = .ok severity) ↔
      Known engine cd checker.critical ∧
        (¬ Matches engine cd checker.critical → Known engine cd checker.warning)) ∧
    (∀ (m : Monitor F) (v : Visit F) (data : CollectedData F),
      m.thresholds = checker.against engine → ¬ m.Excluded v.process →
      v.collected = .ok data → Matches engine data checker.warning →
        ((∃ c, m.call? v = some c) ↔ Known engine data checker.critical) ∧
        ∀ passes lastSignals,
          (Known engine data checker.critical → ∃ c, m.call? v = some c ∧
            m.visit passes lastSignals v = ((m.sendSignal lastSignals c).1,
              turnGauges passes v data ++ (m.sendSignal lastSignals c).2)) ∧
          (¬ Known engine data checker.critical → sends (m.visit passes lastSignals v).2 = [])) ∧
    ((∀ name ∈ checker.warning.idents ++ checker.critical.idents, name ∈ documentedVariables) →
      ∀ cd : CollectedData F,
        Known engine cd checker.critical ∧
          ∃ severity, checker.against engine cd = .ok severity) := by
  refine ⟨(accepted_iff engine warning critical checker).mp haccepted,
    fun cd => against_ok_iff engine checker cd, ?_, ?_⟩
  · intro m v data hthresholds hmonitored hcollected hmatch
    have hiff := call?_of_match hthresholds hmonitored hcollected hmatch
    refine ⟨hiff, fun passes lastSignals => ⟨fun hknown => ?_, fun hunknown => ?_⟩⟩
    · obtain ⟨c, hcall⟩ := hiff.mpr hknown
      exact ⟨c, hcall, visit_of_call hcollected hcall passes lastSignals⟩
    · have hcall : m.call? v = none :=
        Option.eq_none_iff_forall_ne_some.mpr fun c hc => hunknown (hiff.mp ⟨c, hc⟩)
      exact visit_of_no_call hcall passes lastSignals
  · intro hdocumented cd
    have hcritical : Known engine cd checker.critical :=
      known_of_documented engine cd fun name hname =>
        hdocumented name (List.mem_append_right _ hname)
    have hwarning : Known engine cd checker.warning :=
      known_of_documented engine cd fun name hname =>
        hdocumented name (List.mem_append_left _ hname)
    exact ⟨hcritical, (against_ok_iff engine checker cd).mpr ⟨hcritical, fun _ => hwarning⟩⟩

/-- The expressions of the monitor by score evaluate on a score of one. -/
theorem score_expressions_evaluate :
    ∃ severity, ThresholdsChecker.against sampleFasteval
      ⟨moreThan "oom_score" 0, moreThan "oom_score" 1⟩
      { (default : CollectedData Whole) with oomScore := 1 } = .ok severity := by
  have haccepted : Accepted sampleFasteval "oom_score > 0" "oom_score > 1"
      ⟨moreThan "oom_score" 0, moreThan "oom_score" 1⟩ :=
    (accepted_iff _ _ _ _).mpr ⟨rfl, rfl⟩
  exact ((accepted_evaluates haccepted).2.2.2 (by decide +kernel) _).2

/-- A misspelled variable is accepted at startup, and keeps a process whose warning
expression matches from being signalled. -/
theorem misspelled_critical_accepted :
    ∃ (checker : ThresholdsChecker Int) (v : Visit Whole) (data : CollectedData Whole),
      Accepted sampleFasteval "oom_score > 0" "memory_usag > 70" checker ∧
      (¬ ∃ severity, checker.against sampleFasteval data = .ok severity) ∧
      v.process = ⟨5, "worker"⟩ ∧ v.collected = .ok data ∧
      Matches sampleFasteval data checker.warning ∧
      ∀ passes lastSignals,
        sends ((Monitor.new (checker.against sampleFasteval) 99).visit passes lastSignals v).2 =
          [] := by
  let data : CollectedData Whole := { (default : CollectedData Whole) with oomScore := 1 }
  let checker : ThresholdsChecker Int := ⟨moreThan "oom_score" 0, moreThan "memory_usag" 70⟩
  have hfails : checker.against sampleFasteval data =
      .error (.fastEvalError "Undefined(memory_usag)") := by decide +kernel
  refine ⟨checker, scoreVisit ⟨5, "worker"⟩ 1 0 (.ok ()), data, ?_, ?_, rfl, rfl, ?_, ?_⟩
  · exact (accepted_iff _ _ _ _).mpr ⟨rfl, rfl⟩
  · rintro ⟨severity, hchecked⟩
    rw [hfails] at hchecked
    cases hchecked
  · exact ⟨1, by decide +kernel, by decide⟩
  · refine visit_of_no_call (Option.eq_none_iff_forall_ne_some.mpr fun c hcall => ?_)
    rcases (call?_eq_some_iff _ _ c).mp hcall with ⟨-, -, data', severity, hdata, hchecked, -, -⟩
    cases hdata
    exact absurd (hfails.symm.trans hchecked) nofun

end Monitor
end OomHero
