import OomHero.Daemons.History

/-!
# Daemons - Non-interference

The records of all processes share one bounded cache, so a process can lose its
record to another one.  Until more pids were observed over their limits than the
cache holds, what is sent to a pid depends on the observations of that pid only.

Main results:

- Theorem {lit}`Monitor.attempts_only`: until then the sends to a pid are those of the
  run restricted to it.
- Theorem {lit}`Monitor.crowded_run_interferes`: one pid more can cost a process its
  record, however few processes are listed at a time.
-/

namespace OomHero

open Transducer

variable {F : Type}

/-- A pass that lists only the processes with one pid. -/
def Pass.only (pid : Int32) (p : Pass F) : Pass F :=
  { p with listed := p.listed.map fun visits => visits.filter fun v => v.process.pid = pid }

namespace Monitor

/-- The calls of a restricted pass are its calls for the pid. -/
theorem passCalls_only (m : Monitor F) (pid : Int32) (p : Pass F) :
    m.passCalls (p.only pid) = (m.passCalls p).filter fun c => c.process.pid = pid := by
  unfold passCalls Pass.only
  cases p.listed with
  | error err => rfl
  | ok visits =>
      dsimp only [Except.map]
      induction visits with
      | nil => rfl
      | cons v visits ih =>
          rw [List.filterMap_cons, List.filter_cons]
          cases hcall : m.call? v with
          | none => split <;> simp [hcall, ih]
          | some c =>
              have hprocess := call?_process hcall
              dsimp only
              rw [List.filter_cons, hprocess]
              split <;> simp [hcall, ih]

/-- The calls of a restricted run are its calls for the pid. -/
theorem calls_only (m : Monitor F) (pid : Int32) (passes : List (Pass F)) :
    m.calls (passes.map (Pass.only pid)) =
      (m.calls passes).filter fun c => c.process.pid = pid := by
  unfold calls
  rw [List.takeWhile_map, List.flatMap_map, List.filter_flatMap]
  have hstop : ((fun p : Pass F => !p.stop) ∘ Pass.only pid) = fun p => !p.stop := rfl
  rw [hstop]
  simp only [passCalls_only]

variable [F32 F]

/-- While the pids observed over their limits fit the cache, the sends to a pid are those
of the run restricted to it. -/
theorem attempts_only (m : Monitor F) (startedAt : Nat) (passes : List (Pass F))
    (hplain : m.PlainMap (m.calls passes)) (pid : Int32) :
    ((m.attempts startedAt passes).filter fun a => a.process.pid = pid) =
      m.attempts startedAt (passes.map (Pass.only pid)) := by
  have hpassed := Gate.passed_filter_key (g := m.gate) hplain.retains pid
  rw [(m.run_gate startedAt _).2, (m.run_gate startedAt _).2, List.filter_map, calls_only]
  exact congrArg (List.map Call.attempt) hpassed

/-! ## Too many pids -/

/-- A process that stays at warning. -/
def strained (pid : Int32) (time victim : Nat) : Visit Whole :=
  { scoreVisit ⟨pid, "worker"⟩ 1 time (.ok ()) with victim }

/-- The call for it. -/
def strainedCall (pid : Int32) (time victim : Nat) : Call Whole :=
  (strained pid time victim).call .warning { (default : CollectedData Whole) with oomScore := 1 }

theorem call?_strained (pid : Int32) (time victim : Nat) (hpause : pid ≠ 1) (hown : pid ≠ 99) :
    scoreMonitor.call? (strained pid time victim) = some (strainedCall pid time victim) := by
  rw [call?_eq_some_iff]
  exact ⟨hpause, hown, _, .warning, rfl, by decide +kernel, nofun, rfl⟩

/-- A thousand pids. -/
def crowd : List Int32 :=
  (List.range 1000).map fun i => Int32.ofNat (100 + i)

/-- A thousand processes at warning, then another one, then the first again. -/
def crowdedPasses (victim : Nat) : List (Pass Whole) :=
  [scorePass (crowd.map fun pid => strained pid 0 0) 0,
    scorePass [strained 1100 (fromSecs 1) victim] (fromSecs 1),
    scorePass [strained 100 (fromSecs 2) 0] (fromSecs 2)]

/-- The pids of the crowd and of the process after it are distinct. -/
theorem crowd_nodup : (crowd ++ [1100]).Nodup := by
  have hrange : crowd ++ [1100] = (List.range 1001).map fun i => Int32.ofNat (100 + i) := by
    rw [List.range_succ, List.map_append]
    rfl
  rw [hrange]
  apply List.nodup_range.map_on
  intro i hi j hj hsame
  rw [List.mem_range] at hi hj
  have hvalue := congrArg Int32.toNatClampNeg hsame
  rw [Int32.toNatClampNeg_ofNat_of_lt (by omega), Int32.toNatClampNeg_ofNat_of_lt (by omega)]
    at hvalue
  omega

/-- The crowd starts at pid 100. -/
theorem le_of_mem_crowd {pid : Int32} (hpid : pid ∈ crowd) : 100 ≤ pid.toNatClampNeg := by
  obtain ⟨i, hi, rfl⟩ := List.mem_map.mp hpid
  rw [List.mem_range] at hi
  rw [Int32.toNatClampNeg_ofNat_of_lt (by omega)]
  omega

theorem crowd_monitored {pid : Int32} (hpid : pid ∈ crowd) : pid ≠ 1 ∧ pid ≠ 99 := by
  have hlow := le_of_mem_crowd hpid
  constructor
  · intro h
    subst h
    exact absurd hlow (by decide)
  · intro h
    subst h
    exact absurd hlow (by decide)

/-- The calls for the crowd. -/
def crowdCalls : List (Call Whole) :=
  crowd.map fun pid => strainedCall pid 0 0

/-- The calls of the crowded run. -/
theorem calls_crowdedPasses (victim : Nat) :
    scoreMonitor.calls (crowdedPasses victim) =
      crowdCalls ++
        [strainedCall 1100 (fromSecs 1) victim, strainedCall 100 (fromSecs 2) 0] := by
  have hcrowd : (crowd.map fun pid => strained pid 0 0).filterMap scoreMonitor.call? =
      crowdCalls := by
    unfold crowdCalls
    rw [List.filterMap_map, ← List.filterMap_eq_map]
    apply List.filterMap_congr
    intro pid hpid
    obtain ⟨hpause, hown⟩ := crowd_monitored hpid
    exact call?_strained pid 0 0 hpause hown
  have hnew := call?_strained 1100 (fromSecs 1) victim (by decide) (by decide)
  have hagain := call?_strained 100 (fromSecs 2) 0 (by decide) (by decide)
  have hrunning : (crowdedPasses victim).takeWhile (fun p => !p.stop) = crowdedPasses victim :=
    List.takeWhile_eq_self_iff.mpr (by simp [crowdedPasses, scorePass])
  unfold calls
  rw [hrunning]
  unfold crowdedPasses
  simp only [List.flatMap_cons, List.flatMap_nil, passCalls, scorePass]
  rw [hcrowd, List.filterMap_cons_some hnew, List.filterMap_cons_some hagain]
  simp only [List.filterMap_nil, List.append_nil, List.cons_append, List.nil_append]

theorem crowdCalls_length : crowdCalls.length = scoreMonitor.maxCapacity := by
  unfold crowdCalls crowd
  rw [List.length_map, List.length_map, List.length_range]
  rfl

theorem crowdCalls_keep : ∀ c ∈ crowdCalls, scoreMonitor.gate.lost c = [] := by
  intro c hc
  obtain ⟨pid, -, rfl⟩ := List.mem_map.mp hc
  rfl

theorem crowdCalls_nodup (victim : Nat) :
    ((crowdCalls ++ [strainedCall 1100 (fromSecs 1) victim]).map scoreMonitor.gate.key).Nodup := by
  have hkeys : (crowdCalls ++ [strainedCall 1100 (fromSecs 1) victim]).map scoreMonitor.gate.key =
      crowd ++ [1100] := by
    unfold crowdCalls
    rw [List.map_append, List.map_map, List.map_singleton]
    exact congrArg (· ++ [1100]) (List.map_id crowd)
  rw [hkeys]
  exact crowd_nodup

theorem first_mem_crowdCalls : strainedCall 100 0 0 ∈ crowdCalls := by
  apply List.mem_map_of_mem
  apply List.mem_map.mpr
  exact ⟨0, by simp, rfl⟩

/-- The next process can cost the first one its record, so that every call sends. -/
theorem crowded_run_resends :
    ∃ victim, scoreMonitor.gate.passed scoreMonitor.maxCapacity
        (scoreMonitor.calls (crowdedPasses victim)) =
      crowdCalls ++ [strainedCall 1100 (fromSecs 1) victim, strainedCall 100 (fromSecs 2) 0] := by
  have hfresh : ∀ c : Call Whole, scoreMonitor.gate.passes none c = true :=
    fun c => (scoreMonitor.gate_passes none c).mpr nofun
  obtain ⟨victim, hforgotten⟩ := Gate.exists_victim_forgets (crowdCalls_nodup 0)
    (fun c _ => hfresh c) crowdCalls_keep crowdCalls_length first_mem_crowdCalls
  refine ⟨victim, ?_⟩
  have hslot : scoreMonitor.gate.slot scoreMonitor.maxCapacity
      (crowdCalls ++ [strainedCall 1100 (fromSecs 1) victim]) (strainedCall 100 (fromSecs 2) 0) =
        none := by
    have hkeeps : scoreMonitor.gate.lost (strainedCall 1100 (fromSecs 1) victim) = [] := rfl
    rw [gate_slot _ _ rfl, Gate.after_concat, Gate.slot_of_fresh (crowdCalls_nodup victim),
      if_pos (hfresh _), hkeeps, Cache.discard_nil]
    exact hforgotten
  have hsplit : crowdCalls ++
      [strainedCall 1100 (fromSecs 1) victim, strainedCall 100 (fromSecs 2) 0] =
        crowdCalls ++ [strainedCall 1100 (fromSecs 1) victim] ++
          [strainedCall 100 (fromSecs 2) 0] := by
    rw [List.append_assoc, List.singleton_append]
  rw [calls_crowdedPasses, hsplit, Gate.passed_concat, hslot, if_pos (hfresh _),
    Gate.passed_of_fresh (crowdCalls_nodup victim) fun c _ => hfresh c]

/-- No list of the crowded run has more than a thousand processes. -/
theorem crowdedPasses_listed (victim : Nat) :
    ∀ p ∈ crowdedPasses victim, ∀ visits, p.listed = .ok visits → visits.length ≤ 1000 := by
  have hcrowd : crowd.length = 1000 := by
    unfold crowd
    rw [List.length_map, List.length_range]
  intro p hp visits hlisted
  unfold crowdedPasses at hp
  simp only [List.mem_cons, List.not_mem_nil, or_false] at hp
  rcases hp with rfl | rfl | rfl
  · have hvisits : (crowd.map fun pid => strained pid 0 0) = visits := Except.ok.inj hlisted
    rw [← hvisits]
    exact le_of_eq_of_le (List.length_map _) hcrowd.le
  · cases hlisted
    rw [List.length_singleton]
    omega
  · cases hlisted
    rw [List.length_singleton]
    omega

/-- The calls for the first process. -/
theorem crowdCalls_first : (crowdCalls.filter fun c => c.process.pid = 100) =
    [strainedCall 100 0 0] := by
  have hcrowd : (crowd.filter fun pid => pid = 100) = [100] := by decide +kernel
  unfold crowdCalls
  rw [List.filter_map]
  exact congrArg (List.map fun pid => strainedCall pid 0 0) hcrowd

/-- However few processes are listed at a time, a process can be sent other signals
than in the run restricted to it. -/
theorem crowded_run_interferes :
    ∃ victim, (∀ p ∈ crowdedPasses victim, ∀ visits, p.listed = .ok visits →
        visits.length ≤ 1000) ∧
      ((scoreMonitor.attempts 0 (crowdedPasses victim)).filter fun a => a.process.pid = 100) ≠
        scoreMonitor.attempts 0 ((crowdedPasses victim).map (Pass.only 100)) := by
  obtain ⟨victim, hpassed⟩ := crowded_run_resends
  refine ⟨victim, crowdedPasses_listed victim, ?_⟩
  have hfilter : ((crowdCalls ++ [strainedCall 1100 (fromSecs 1) victim,
      strainedCall 100 (fromSecs 2) 0]).filter fun c => c.process.pid = 100) =
        [strainedCall 100 0 0, strainedCall 100 (fromSecs 2) 0] := by
    rw [List.filter_append, crowdCalls_first]
    rfl
  -- alone, the first process is held back the second time
  have halone : (scoreMonitor.gate.passed scoreMonitor.maxCapacity
      [strainedCall 100 0 0, strainedCall 100 (fromSecs 2) 0]).length = 1 := by
    decide +kernel
  intro hsame
  have hlen := congrArg List.length hsame
  rw [(scoreMonitor.run_gate 0 _).2, (scoreMonitor.run_gate 0 _).2, hpassed, calls_only,
    calls_crowdedPasses, hfilter, List.filter_map, List.length_map, List.length_map, halone]
    at hlen
  have htwice := congrArg List.length hfilter
  rw [List.length_cons, List.length_singleton] at htwice
  have hcomp : ((fun a : Attempt Whole => decide (a.process.pid = 100)) ∘ Call.attempt) =
      fun c => decide (c.process.pid = 100) := rfl
  rw [hcomp, htwice] at hlen
  omega

/-- A run of two processes that are both signalled twice. -/
theorem attempts_only_pair :
    let passes := [scorePass [scoreVisit ⟨5, "worker"⟩ 1 0 (.ok ()),
        scoreVisit ⟨6, "server"⟩ 2 0 (.ok ())] 0,
      scorePass [scoreVisit ⟨6, "server"⟩ 1 (fromSecs 1) (.ok ()),
        scoreVisit ⟨5, "worker"⟩ 1 (fromSecs 40) (.ok ())] (fromSecs 40)]
    ((scoreMonitor.attempts 0 passes).filter fun a => a.process.pid = 5) =
      scoreMonitor.attempts 0 (passes.map (Pass.only 5)) :=
  attempts_only scoreMonitor 0 _ (by decide +kernel) 5

end Monitor
end OomHero
