import OomHero.Daemons.SendSignal

/-!
# Daemons - The history of sends

The cache keeps one record per pid.  As long as it loses none, it decides as the
complete history of sends would.

Main results:

- Theorem {lit}`Monitor.sendSignal_refines_history`: a call sends exactly when the
  last send to its pid, in the complete history, allows it; calls that are
  suppressed, observations within limits and other pids change nothing.
-/

namespace OomHero

open Transducer

variable {F : Type}

namespace Monitor

/-- The last send to a pid in a history. -/
def lastSend (pid : Int32) (history : List (Attempt F)) : Option (Attempt F) :=
  (history.filter fun a => a.process.pid = pid).getLast?

/-- The complete history of sends allows a call: there was no send to the pid, the
last one had another severity, or it is old enough for how it ended. -/
def HistoryAllows (m : Monitor F) (history : List (Attempt F)) (c : Call F) : Prop :=
  lastSend c.process.pid history = none ∨
    ∃ a, lastSend c.process.pid history = some a ∧
      (a.severity ≠ c.severity ∨
        (a.outcome.isOk = true ∧ m.cooldownInterval ≤ elapsed c.checkedAt a.when) ∨
        (a.outcome.isOk = false ∧ fromSecs 1 ≤ elapsed c.checkedAt a.when))

/-- The cache is a plain map over some calls: it has room for all their pids and loses no
record. -/
structure PlainMap (m : Monitor F) (calls : List (Call F)) : Prop where
  fewPids : (calls.map fun c => c.process.pid).toFinset.card ≤ m.maxCapacity
  keeps : ∀ c ∈ calls, c.lost = []

instance (m : Monitor F) (calls : List (Call F)) : Decidable (m.PlainMap calls) :=
  decidable_of_iff
    ((calls.map fun c => c.process.pid).toFinset.card ≤ m.maxCapacity ∧ ∀ c ∈ calls, c.lost = [])
    ⟨fun h => ⟨h.1, h.2⟩, fun h => ⟨h.fewPids, h.keeps⟩⟩

/-- Then the gate remembers all it has to. -/
theorem PlainMap.retains {m : Monitor F} {calls : List (Call F)} (h : m.PlainMap calls) :
    m.gate.Retains m.maxCapacity calls where
  fits := by
    refine ⟨_, h.fewPids, fun c hc _ => ?_⟩
    rw [List.mem_toFinset]
    exact List.mem_map_of_mem hc
  keeps := h.keeps

/-- Fewer calls concern fewer pids. -/
theorem PlainMap.of_subset {m : Monitor F} {calls calls' : List (Call F)} (h : m.PlainMap calls)
    (hsub : ∀ c ∈ calls', c ∈ calls) : m.PlainMap calls' where
  fewPids := by
    refine (Finset.card_le_card ?_).trans h.fewPids
    intro pid hpid
    rw [List.mem_toFinset] at hpid ⊢
    rcases List.mem_map.mp hpid with ⟨c, hc, rfl⟩
    exact List.mem_map_of_mem (hsub c hc)
  keeps c hc := h.keeps c (hsub c hc)

/-- The last record passed under a pid is that of the last send to it. -/
theorem lastSend_eq (m : Monitor F) (pid : Int32) (passed : List (Call F)) :
    lastSend pid (passed.map Call.attempt) = (m.gate.lastUnder pid passed).map Call.attempt := by
  unfold lastSend Gate.lastUnder
  rw [List.filter_map, List.getLast?_map]
  rfl

/-- A record allows a call exactly when a history that ends in it does. -/
theorem passes_iff_allows (m : Monitor F) (history : List (Attempt F)) (c : Call F) :
    m.gate.passes ((lastSend c.process.pid history).map Attempt.record) c = true ↔
      m.HistoryAllows history c := by
  rw [gate_passes]
  unfold HistoryAllows suppresses
  cases lastSend c.process.pid history with
  | none => simp
  | some a =>
      simp only [Option.map_some, Option.some.injEq, forall_eq', Attempt.record, reduceCtorEq,
        false_or, exists_eq_left', Bool.and_eq_false_iff, decide_eq_false_iff_not, not_lt]
      cases a.outcome.isOk <;> simp

variable [F32 F]

/-- A run of calls of {lit}`send_signal`. -/
def sendAll (m : Monitor F) (calls : List (Call F)) : LastSignals × List (Action F) :=
  Transducer.run m.sendSignal (Cache.empty m.maxCapacity) calls

/-- A run of calls is a run of the gate. -/
theorem sendAll_gate (m : Monitor F) (calls : List (Call F)) :
    (m.sendAll calls).1 = m.gate.after m.maxCapacity calls ∧
      sends (m.sendAll calls).2 = (m.gate.passed m.maxCapacity calls).map Call.attempt := by
  have hrun := m.run_gate_of_step m.sendSignal id (fun c => [c])
    (fun s c => m.sendSignal_gate s c) (Cache.empty m.maxCapacity) calls
  rw [List.flatMap_singleton'] at hrun
  exact ⟨hrun.1.symm, hrun.2.symm⟩

/-- What a run of the monitor remembers and sends is what its calls do. -/
theorem run_sendAll (m : Monitor F) (startedAt : Nat) (passes : List (Pass F)) :
    (m.run startedAt passes).1.lastSignals = (m.sendAll (m.calls passes)).1 ∧
      m.attempts startedAt passes = sends (m.sendAll (m.calls passes)).2 := by
  have hrun := m.run_gate startedAt passes
  have hcalls := m.sendAll_gate (m.calls passes)
  constructor
  · rw [hrun.1, hcalls.1]
  · rw [hrun.2, hcalls.2]

/-- After a run of the gate a call sends what it is told to, or nothing. -/
theorem sends_sendSignal_after (m : Monitor F) (pre : List (Call F)) (c : Call F) :
    sends (m.sendSignal (m.gate.after m.maxCapacity pre) c).2 =
      if m.gate.passes (m.gate.slot m.maxCapacity pre c) c then [c.attempt] else [] := by
  rw [sends_sendSignal]
  unfold Gate.step Gate.slot
  dsimp only
  split <;> rfl

/-- The sends of a turn, after a run of the gate. -/
theorem sends_visit_after (m : Monitor F) (passes : Int) (pre : List (Call F)) (v : Visit F) :
    sends (m.visit passes (m.gate.after m.maxCapacity pre) v).2 =
      match m.call? v with
      | none => []
      | some c =>
          if m.gate.passes (m.gate.slot m.maxCapacity pre c) c then [c.attempt] else [] := by
  rw [← (m.visit_gate passes (m.gate.after m.maxCapacity pre) v).2]
  cases m.call? v with
  | none => rfl
  | some c =>
      rw [Option.toList_some, run_cons, run_nil, List.append_nil, ← sends_sendSignal,
        sends_sendSignal_after]

/-- Without evictions a call sends exactly when the history allows it. -/
theorem sends_iff_allows {m : Monitor F} {pre : List (Call F)} {c : Call F}
    (hplain : m.PlainMap (pre ++ [c])) :
    sends (m.sendSignal (m.sendAll pre).1 c).2 = [c.attempt] ↔
      m.HistoryAllows (sends (m.sendAll pre).2) c := by
  rw [(m.sendAll_gate pre).1, (m.sendAll_gate pre).2, sends_sendSignal_after,
    ← passes_iff_allows, lastSend_eq, Option.map_map, Gate.slot_eq hplain.retains]
  split <;> rename_i hpass
  · exact ⟨fun _ => hpass, fun _ => rfl⟩
  · constructor
    · intro h
      cases h
    · intro h
      exact absurd h hpass

/-- An observation that makes no send (a suppressed one, one within limits or a
failed one), or that is of another pid. -/
def Inert (m : Monitor F) (passes : Int) (pid : Int32) (lastSignals : LastSignals)
    (v : Visit F) : Prop :=
  sends (m.visit passes lastSignals v).2 = [] ∨ v.process.pid ≠ pid

omit [F32 F] in
/-- The call of a turn is for the process of the turn. -/
theorem call?_process {m : Monitor F} {v : Visit F} {c : Call F} (h : m.call? v = some c) :
    c.process = v.process := by
  rcases (m.call?_eq_some_iff v c).mp h with ⟨-, -, data, severity, -, -, -, rfl⟩
  rfl

/-- Dropping an inert observation drops an inert call of the gate, or none. -/
theorem thins_of_inert {m : Monitor F} {passes : Int} {pid : Int32} {pre : List (Visit F)}
    {x : Visit F} (post : List (Visit F))
    (hinert : m.Inert passes pid (m.gate.after m.maxCapacity (pre.filterMap m.call?)) x) :
    Gate.Thins m.gate m.maxCapacity pid ((pre ++ x :: post).filterMap m.call?)
      ((pre ++ post).filterMap m.call?) := by
  rw [List.filterMap_append, List.filterMap_append, List.filterMap_cons]
  cases hx : m.call? x with
  | none => exact Gate.Thins.refl _ _ _
  | some c =>
      have hheld : m.gate.key c ≠ pid ∨
          m.gate.passes (m.gate.slot m.maxCapacity (pre.filterMap m.call?) c) c = false := by
        rcases hinert with hnone | hpid
        · right
          rw [sends_visit_after, hx] at hnone
          dsimp only at hnone
          by_contra hpass
          rw [Bool.not_eq_false] at hpass
          rw [hpass] at hnone
          cases hnone
        · left
          rw [gate_key, call?_process hx]
          exact hpid
      have hdrop := (Gate.Thins.drop c (Gate.Thins.refl m.gate pid _) hheld).append
        (post.filterMap m.call?)
      rw [List.append_assoc] at hdrop
      exact hdrop

/-- Dropping an inert observation changes no later decision for the pid. -/
theorem visit_of_inert {m : Monitor F} {passes : Int} {pre post : List (Visit F)}
    {x v : Visit F} (hplain : m.PlainMap ((pre ++ x :: post ++ [v]).filterMap m.call?))
    (hinert : m.Inert passes v.process.pid (m.scan passes (Cache.empty m.maxCapacity) pre).1 x) :
    sends (m.visit passes (m.scan passes (Cache.empty m.maxCapacity) (pre ++ x :: post)).1 v).2 =
      sends (m.visit passes (m.scan passes (Cache.empty m.maxCapacity) (pre ++ post)).1 v).2 := by
  have hscan : ∀ visits : List (Visit F), (m.scan passes (Cache.empty m.maxCapacity) visits).1 =
      m.gate.after m.maxCapacity (visits.filterMap m.call?) :=
    fun visits => (m.scan_gate passes (Cache.empty m.maxCapacity) visits).1.symm
  rw [hscan] at hinert
  rw [hscan, hscan, sends_visit_after, sends_visit_after]
  cases hcall : m.call? v with
  | none => rfl
  | some c =>
      have hthin := thins_of_inert post hinert
      rw [← call?_process hcall, ← gate_key] at hthin
      rw [List.filterMap_append, List.filterMap_cons_some hcall, List.filterMap_nil] at hplain
      have hfewer : m.PlainMap ((pre ++ post).filterMap m.call? ++ [c]) := by
        apply hplain.of_subset
        intro c' hc'
        simp only [List.filterMap_append, List.mem_append] at hc' ⊢
        rw [show (x :: post) = [x] ++ post from rfl, List.filterMap_append, List.mem_append]
        tauto
      dsimp only
      rw [Gate.thins_slot hthin hplain.retains hfewer.retains]

/-- The cache refines the complete history of sends: one by one, the calls of a run send
exactly when the history before them allows it, and what makes no send to a pid changes no
later decision for it. -/
theorem sendSignal_refines_history (m : Monitor F) :
    (∀ (startedAt : Nat) (passes : List (Pass F)),
      m.attempts startedAt passes = sends (m.sendAll (m.calls passes)).2) ∧
    (∀ calls : List (Call F), m.PlainMap calls → ∀ pre c, pre ++ [c] <+: calls →
      sends (m.sendAll (pre ++ [c])).2 =
        sends (m.sendAll pre).2 ++ sends (m.sendSignal (m.sendAll pre).1 c).2 ∧
      (sends (m.sendSignal (m.sendAll pre).1 c).2 = [c.attempt] ↔
        m.HistoryAllows (sends (m.sendAll pre).2) c) ∧
      (sends (m.sendSignal (m.sendAll pre).1 c).2 = [] ↔
        ¬ m.HistoryAllows (sends (m.sendAll pre).2) c)) ∧
    (∀ (passes : Int) (visits : List (Visit F)), m.PlainMap (visits.filterMap m.call?) →
      ∀ pre x post v, pre ++ x :: post ++ [v] <+: visits →
        m.Inert passes v.process.pid (m.scan passes (Cache.empty m.maxCapacity) pre).1 x →
        sends (m.visit passes (m.scan passes (Cache.empty m.maxCapacity) (pre ++ x :: post)).1
            v).2 =
          sends (m.visit passes (m.scan passes (Cache.empty m.maxCapacity) (pre ++ post)).1
            v).2) := by
  refine ⟨fun startedAt passes => (m.run_sendAll startedAt passes).2, ?_, ?_⟩
  · intro calls hplain pre c hprefix
    have hiff := sends_iff_allows (hplain.of_subset hprefix.subset)
    refine ⟨?_, hiff, ?_⟩
    · unfold sendAll
      rw [run_concat, sends_append]
    · rw [← hiff, (m.sendAll_gate pre).1, sends_sendSignal_after]
      split <;> simp
  · intro passes visits hplain pre x post v hprefix hinert
    refine visit_of_inert (hplain.of_subset ?_) hinert
    intro c hc
    rcases List.mem_filterMap.mp hc with ⟨w, hw, hcall⟩
    exact List.mem_filterMap.mpr ⟨w, hprefix.subset hw, hcall⟩

end Monitor
end OomHero
