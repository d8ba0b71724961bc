import OomHero.Errors
import Mathlib.Algebra.Group.Defs

/-!
# Processes - Collected data

The data collected for one process, and the name lookups threshold expressions
make in it.  The model is generic in the types of 32-bit and 64-bit floats; the
program uses only the operations the classes below list.
-/

namespace OomHero

/-- The {lit}`f32` operations of the program. -/
class F32 (F : Type) extends Zero F, Sub F, Mul F, Div F where
  ofU64 : UInt64 → F
  ten : F
  hundred : F
  abs : F → F
  gt : F → F → Bool
  /-- {lit}`f32::from_str`, as a partial function. -/
  parse : String → Option F

/-- Whole numbers in place of floats, for runs on fixed inputs.  Differences are those
modulo the word size. -/
def Whole : Type := UInt64
deriving DecidableEq

instance (n : Nat) : OfNat Whole n :=
  inferInstanceAs (OfNat UInt64 n)

instance : F32 Whole where
  zero := (0 : UInt64)
  sub := UInt64.sub
  mul := UInt64.mul
  div := UInt64.div
  ofU64 := id
  ten := (10 : UInt64)
  hundred := (100 : UInt64)
  abs := fun x : UInt64 => (min x (0 - x) : UInt64)
  gt := fun x y : UInt64 => y < x
  parse s := (Decimal.parseU64 s).toOption

/-- The {lit}`f64` operations of the program. -/
class F64 (V : Type) where
  ofU64 : UInt64 → V
  ofI32 : Int32 → V
  one : V
  ge : V → V → Bool

/-- The exact conversion from {lit}`f32` to {lit}`f64`. -/
class Widen (F V : Type) where
  widen : F → V

/-- The averages and the total of one severity. -/
structure PressureAverages (F : Type) where
  avg10 : F
  avg60 : F
  avg300 : F
  total : UInt64
deriving DecidableEq, Repr

/-- The pressure on one resource. -/
structure PressureData (F : Type) where
  some : PressureAverages F
  full : PressureAverages F
deriving DecidableEq, Repr

/-- The pressure on memory, io and cpu. -/
structure Pressure (F : Type) where
  memory : PressureData F
  io : PressureData F
  cpu : PressureData F
deriving DecidableEq, Repr

/-- The collected data of a process. -/
structure CollectedData (F : Type) where
  memoryMax : UInt64
  memoryCurrent : UInt64
  oomScore : Int32
  oomScoreAdj : Int32
  pressure : Pressure F
deriving DecidableEq, Repr

/-- A process running on the system. -/
structure Process where
  pid : Int32
  cmdline : String
deriving DecidableEq, Repr

variable {F V : Type}

instance [Zero F] : Inhabited (PressureAverages F) := ⟨⟨0, 0, 0, 0⟩⟩

instance [Zero F] : Inhabited (PressureData F) := ⟨⟨default, default⟩⟩

instance [Zero F] : Inhabited (Pressure F) := ⟨⟨default, default, default⟩⟩

instance [Zero F] : Inhabited (CollectedData F) := ⟨⟨0, 0, 0, 0, default⟩⟩

/-- The memory in use as a percentage of the limit. -/
def CollectedData.memoryUsage [F32 F] (cd : CollectedData F) : F :=
  if 0 < cd.memoryMax then
    F32.ofU64 cd.memoryCurrent / F32.ofU64 cd.memoryMax * F32.hundred
  else 0

/-- Without a limit there is no percentage. -/
theorem CollectedData.memoryUsage_eq [F32 F] (cd : CollectedData F) :
    cd.memoryUsage =
      if cd.memoryMax = 0 then 0
      else F32.ofU64 cd.memoryCurrent / F32.ofU64 cd.memoryMax * F32.hundred := by
  unfold memoryUsage
  by_cases hmax : cd.memoryMax = 0
  · rw [if_pos hmax, if_neg (by simp [hmax])]
  · rw [if_neg hmax, if_pos (UInt64.pos_iff_ne_zero.mpr hmax)]

/-! ## Lookups -/

section Lookup

variable [F64 V] [Widen F V]

/-- The window a name spells. -/
def PressureAverages.lookup (a : PressureAverages F) (name : String) : Option V :=
  match name with
  | "avg10" => .some (Widen.widen a.avg10)
  | "avg60" => .some (Widen.widen a.avg60)
  | "avg300" => .some (Widen.widen a.avg300)
  | "total" => .some (F64.ofU64 a.total)
  | _ => none

/-- The severity and window a name spells. -/
def PressureData.lookup (d : PressureData F) (name : String) : Option V :=
  match Text.splitOn '_' name with
  | [severity, window] =>
      match severity with
      | "some" => d.some.lookup window
      | "full" => d.full.lookup window
      | _ => none
  | _ => none

/-- The resource, severity and window a name spells. -/
def Pressure.lookup (p : Pressure F) (name : String) : Option V :=
  match Text.splitOn '_' name with
  | [resource, kind, severity, window] =>
      if kind ≠ "pressure" then none
      else
        let suffix := s!"{severity}_{window}"
        match resource with
        | "memory" => p.memory.lookup suffix
        | "io" => p.io.lookup suffix
        | "cpu" => p.cpu.lookup suffix
        | _ => none
  | _ => none

/-- The variable a name stands for in a threshold expression. -/
def CollectedData.lookup [F32 F] (cd : CollectedData F) (name : String) : Option V :=
  match name with
  | "memory_usage" => .some (Widen.widen cd.memoryUsage)
  | "memory_current" => .some (F64.ofU64 cd.memoryCurrent)
  | "memory_max" => .some (F64.ofU64 cd.memoryMax)
  | "oom_score" => .some (F64.ofI32 cd.oomScore)
  | "oom_score_adj" => .some (F64.ofI32 cd.oomScoreAdj)
  | _ => cd.pressure.lookup name

end Lookup

end OomHero
