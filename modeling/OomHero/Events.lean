import Mathlib.Tactic
import OomHero.Processes.Model

/-!
# Events

The events the daemon reports, and the test whether an event differs enough from
another to be worth logging.

Main results:

- Theorem {lit}`Event.deviatesSignificantly_eq_false_iff`: without rounding, an event
  deviates from another unless it tells the same up to ten in each reading.
-/

namespace OomHero

/-- How relevant an event is. -/
inductive Priority where
  | low
  | high
deriving DecidableEq, Repr

instance : Inhabited Priority := ⟨.low⟩

/-- An event on the system, usually related to a process. -/
structure Event (F : Type) where
  pid : Int32
  message : String
  priority : Priority
  cmdline : String
  memoryUsage : F
  memoryPressure : F
  ioPressure : F
  cpuPressure : F
deriving DecidableEq, Repr

namespace Event

variable {F : Type}

instance [Zero F] : Inhabited (Event F) :=
  ⟨{ pid := 0, message := "", priority := default, cmdline := "", memoryUsage := 0,
     memoryPressure := 0, ioPressure := 0, cpuPressure := 0 }⟩

/-! ## Building events -/

def lowPrio [Zero F] : Event F := { (default : Event F) with priority := .low }

def highPrio [Zero F] : Event F := { (default : Event F) with priority := .high }

def withMessage (e : Event F) (message : String) : Event F := { e with message }

/-- Add all collected data to an event. -/
def withCollectedData [F32 F] (e : Event F) (cd : CollectedData F) : Event F :=
  { e with
    memoryUsage := cd.memoryUsage
    memoryPressure := cd.pressure.memory.full.avg10
    ioPressure := cd.pressure.io.full.avg10
    cpuPressure := cd.pressure.cpu.full.avg10 }

/-- Add the process to an event. -/
def withProcess (e : Event F) (process : Process) : Event F :=
  { e with pid := process.pid, cmdline := process.cmdline }

/-- Add the process and its data to an event. -/
def withProcessCollectedData [F32 F] (e : Event F) (process : Process)
    (cd : CollectedData F) : Event F :=
  (e.withProcess process).withCollectedData cd

/-! ## Comparing events -/

/-- Two readings are more than ten apart. -/
def readingDeviates [F32 F] (x y : F) : Bool :=
  F32.gt (F32.abs (x - y)) F32.ten

/-- An event differs enough from another to be acted upon. -/
def deviatesSignificantly [F32 F] (e other : Event F) : Bool :=
  if readingDeviates e.memoryUsage other.memoryUsage
      || readingDeviates e.memoryPressure other.memoryPressure
      || readingDeviates e.ioPressure other.ioPressure
      || readingDeviates e.cpuPressure other.cpuPressure then
    true
  else e.message ≠ other.message

end Event

/-! ## Readings without rounding -/

/-- Rationals in place of {lit}`f32`. -/
instance : F32 ℚ where
  ofU64 n := n.toNat
  ten := 10
  hundred := 100
  abs x := |x|
  gt x y := y < x
  parse s := (Decimal.parseU64 s).toOption.map fun n => (n.toNat : ℚ)

namespace Event

/-- Two events that tell the same up to ten in each reading. -/
structure Close (e other : Event ℚ) : Prop where
  message : e.message = other.message
  memoryUsage : |e.memoryUsage - other.memoryUsage| ≤ 10
  memoryPressure : |e.memoryPressure - other.memoryPressure| ≤ 10
  ioPressure : |e.ioPressure - other.ioPressure| ≤ 10
  cpuPressure : |e.cpuPressure - other.cpuPressure| ≤ 10

theorem readingDeviates_eq_false_iff (x y : ℚ) :
    readingDeviates x y = false ↔ |x - y| ≤ 10 :=
  decide_eq_false_iff_not.trans not_lt

/-- An event deviates exactly when it is not close. -/
theorem deviatesSignificantly_eq_false_iff (e other : Event ℚ) :
    e.deviatesSignificantly other = false ↔ e.Close other := by
  unfold deviatesSignificantly
  constructor
  · intro h
    split at h <;> rename_i hreadings
    · cases h
    · simp only [Bool.or_eq_true, not_or, Bool.not_eq_true, readingDeviates_eq_false_iff]
        at hreadings
      rcases hreadings with ⟨⟨⟨husage, hmemory⟩, hio⟩, hcpu⟩
      exact ⟨by simpa using h, husage, hmemory, hio, hcpu⟩
  · intro h
    have hreadings := And.intro h.memoryUsage <| And.intro h.memoryPressure <|
      And.intro h.ioPressure h.cpuPressure
    rw [if_neg]
    · simpa using h.message
    · simp only [Bool.or_eq_true, not_or, Bool.not_eq_true, readingDeviates_eq_false_iff]
      tauto

/-- Every event is close to itself. -/
theorem Close.refl (e : Event ℚ) : e.Close e := by
  constructor <;> simp

end Event
end OomHero
