import OomHero.EventLogger

/-!
# The event logger - Which processes reach the log

The entries of the logger are kept by pid and outlive the processes.  A process that
takes over a pid is compared with the last event logged for its predecessor.

Main results:

- Theorem {lit}`EventLogger.startEventLogger_covers`: every pid reaches the log, and
  so does every process that is the first with its pid, whatever the cache loses and
  whatever counts as a deviation.
- Theorem {lit}`EventLogger.takeover_unlogged`: a process that takes over a pid may
  never be logged.
-/

namespace OomHero
namespace EventLogger

open Transducer

variable {F : Type}

/-- The process an event is about. -/
def processOf (e : Event F) : Process where
  pid := e.pid
  cmdline := e.cmdline

/-- All earlier events of the pid of an event were about its process. -/
def KeptPid (pre : List (Arrival F)) (a : Arrival F) : Prop :=
  ∀ b ∈ pre, b.event.pid = a.event.pid → processOf b.event = processOf a.event

variable [F32 F]

/-- The logger skips an event. -/
def Skipped (capacity : Nat) (pre : List (Arrival F)) (a : Arrival F) : Prop :=
  logged capacity (pre ++ [a]) = logged capacity pre

instance [DecidableEq F] (capacity : Nat) (pre : List (Arrival F)) (a : Arrival F) :
    Decidable (Skipped capacity pre a) :=
  inferInstanceAs (Decidable (_ = _))

section Identity

variable {κ : Type} [DecidableEq κ]

/-- Every identity of an event is that of a logged one. -/
def ReachesLog (capacity : Nat) (identity : Event F → κ) (arrivals : List (Arrival F)) : Prop :=
  ∀ a ∈ arrivals, ∃ e ∈ logged capacity arrivals, identity e = identity a.event

instance (capacity : Nat) (identity : Event F → κ) (arrivals : List (Arrival F)) :
    Decidable (ReachesLog capacity identity arrivals) :=
  List.decidableBAll _ _

/-- A skipped event has the identity of the last one logged for its pid. -/
def SkippedBehind (capacity : Nat) (identity : Event F → κ) (pre : List (Arrival F))
    (a : Arrival F) : Prop :=
  Skipped capacity pre a →
    (lastLogged capacity a.event.pid pre).map identity = some (identity a.event)

instance [DecidableEq F] (capacity : Nat) (identity : Event F → κ) (pre : List (Arrival F))
    (a : Arrival F) : Decidable (SkippedBehind capacity identity pre a) :=
  inferInstanceAs (Decidable (_ → _))

end Identity

variable {capacity : Nat}

/-- An event is skipped exactly when it is held back. -/
theorem skipped_iff (pre : List (Arrival F)) (a : Arrival F) :
    Skipped capacity pre a ↔ gate.passes (gate.slot capacity pre a) a = false := by
  unfold Skipped
  rw [logged_concat]
  split <;> rename_i hpass <;> simp [hpass]

/-- An event that is held back has low priority. -/
theorem low_of_held {slot : Option (Event F)} {a : Arrival F} (h : gate.passes slot a = false) :
    a.event.priority = .low := by
  cases hpriority : a.event.priority with
  | low => rfl
  | high => simp [gate, hpriority] at h

/-- The last event logged for a pid is logged, has that pid, and is one received before. -/
theorem lastLogged_some {pid : Int32} {pre : List (Arrival F)} {e : Event F}
    (h : lastLogged capacity pid pre = some e) :
    e ∈ logged capacity pre ∧ e.pid = pid ∧ ∃ b ∈ pre, b.event = e := by
  have hmem := List.mem_of_getLast? h
  rw [List.mem_filter] at hmem
  obtain ⟨hlogged, hpid⟩ := hmem
  have hreceived := (logged_sublist pre).subset hlogged
  rw [List.mem_map] at hreceived
  exact ⟨hlogged, by simpa using hpid, hreceived⟩

/-- What is logged stays logged. -/
theorem logged_of_prefix {pre arrivals : List (Arrival F)} {e : Event F} (hpre : pre <+: arrivals)
    (h : e ∈ logged capacity pre) : e ∈ logged capacity arrivals := by
  rw [logged_eq, List.mem_map] at h ⊢
  obtain ⟨b, hb, rfl⟩ := h
  exact ⟨b, (gate.passed_prefix hpre).subset hb, rfl⟩

/-- An event, or one logged earlier for its pid and received before it, is logged. -/
theorem logged_or_behind {arrivals pre : List (Arrival F)} {a : Arrival F}
    (hpre : pre ++ [a] <+: arrivals) :
    a.event ∈ logged capacity arrivals ∨
      ∃ b ∈ pre, b.event.pid = a.event.pid ∧ b.event ∈ logged capacity arrivals := by
  by_cases hskipped : Skipped capacity pre a
  · right
    rw [skipped_iff] at hskipped
    obtain ⟨last, hlast, -⟩ := held_by_last hskipped
    obtain ⟨hlogged, hpid, b, hb, rfl⟩ := lastLogged_some hlast
    exact ⟨b, hb, hpid, logged_of_prefix ((List.prefix_append _ _).trans hpre) hlogged⟩
  · left
    rw [skipped_iff, Bool.not_eq_false] at hskipped
    apply logged_of_prefix hpre
    rw [logged_concat, if_pos hskipped]
    simp

/-- Whatever the test for deviations does, however few entries the cache holds and
whatever it loses, every pid that occurs in an event occurs in the log, and so does every
process that no other preceded under its pid.  A skipped event has low priority and comes
after one logged for its pid; the last of these is about the same process if no earlier
event of the pid was about another. -/
theorem startEventLogger_covers (capacity : Nat) (arrivals : List (Arrival F)) :
    ReachesLog capacity Event.pid arrivals ∧
    AtEach (fun pre a => KeptPid pre a →
      ∃ e ∈ logged capacity arrivals, processOf e = processOf a.event) arrivals ∧
    AtEach (fun pre a => Skipped capacity pre a → a.event.priority = .low ∧
      ∃ last, lastLogged capacity a.event.pid pre = some last ∧
        (KeptPid pre a → processOf last = processOf a.event)) arrivals := by
  refine ⟨?_, ?_, ?_⟩
  · intro a ha
    obtain ⟨pre, post, rfl⟩ := List.append_of_mem ha
    have hpre : pre ++ [a] <+: pre ++ a :: post := ⟨post, by simp⟩
    rcases logged_or_behind hpre with hlogged | ⟨b, -, hpid, hlogged⟩
    · exact ⟨a.event, hlogged, rfl⟩
    · exact ⟨b.event, hlogged, hpid⟩
  · intro pre a hpre hkept
    rcases logged_or_behind hpre with hlogged | ⟨b, hb, hpid, hlogged⟩
    · exact ⟨a.event, hlogged, rfl⟩
    · exact ⟨b.event, hlogged, hkept b hb hpid⟩
  · intro pre a _ hskipped
    rw [skipped_iff] at hskipped
    obtain ⟨last, hlast, -⟩ := held_by_last hskipped
    obtain ⟨-, hpid, b, hb, rfl⟩ := lastLogged_some hlast
    exact ⟨low_of_held hskipped, b.event, hlast, fun hkept => hkept b hb hpid⟩

/-- An observation of a process within its limits. -/
def withinLimits (process : Process) : Arrival ℚ where
  event := (Event.lowPrio.withProcess process).withMessage "process usage within limits"
  lost := []
  victim := 0

/-- A pid that a second process takes over, with the readings of the first. -/
def takeoverArrivals : List (Arrival ℚ) :=
  [withinLimits ⟨5, "first"⟩, withinLimits ⟨5, "second"⟩]

/-- The second process is never logged, and skipped behind an event of the first. -/
theorem takeover_unlogged :
    ¬ ReachesLog 1000 processOf takeoverArrivals ∧
      ¬ AtEach (SkippedBehind 1000 processOf) takeoverArrivals :=
  ⟨by decide +kernel, by decide +kernel⟩

end EventLogger
end OomHero
