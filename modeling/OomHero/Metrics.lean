import OomHero.Foundations.Rounding
import OomHero.Processes.Grammar

/-!
# Metrics

The gauges the daemon exports for a process, one series for each metric and label
set, next to the variables of threshold expressions.

Main results:

- Theorem {lit}`Gauge.series_same_iff`: no two gauges and no two processes share a
  series.
- Theorem {lit}`Server.metricsLaw_iff_values`: the gauges are written once each, so
  they agree with the variables as far as their values do.
- Theorem {lit}`Server.reportCollectedData_law_iff`: the gauges agree with the
  variables exactly when a short and a long significand round every count alike.
-/

namespace OomHero

/-- The conversion of an {lit}`i32` to {lit}`f32`. -/
class F32OfI32 (F : Type) where
  ofI32 : Int32 → F

/-- A time series of the exporter. -/
structure Series where
  name : String
  labels : List (String × String)
deriving DecidableEq, Repr

/-- Two descriptions of one series: the order of the labels does not matter. -/
def Series.Same (s s' : Series) : Prop :=
  s.name = s'.name ∧ ∀ label, label ∈ s.labels ↔ label ∈ s'.labels

/-- A value written to a series. -/
structure Write (V : Type) where
  series : Series
  value : V

namespace Server

variable {F V : Type} [F32 F] [F32OfI32 F] [Widen F V]

/-- Set a gauge.  The exporter keeps {lit}`f64` values. -/
def gauge (name : String) (labels : List (String × String)) (value : F) : Write V where
  series := { name, labels }
  value := Widen.widen value

/-! ## The reports -/

/-- Update the gauge of the memory usage of a process. -/
def reportUsage (p : Process) (cd : CollectedData F) : List (Write V) :=
  let labels := [("pid", toString p.pid), ("cmdline", p.cmdline)]
  [gauge "memory_usage" labels cd.memoryUsage]

/-- Update the gauge of the score of a process. -/
def reportOomScore (p : Process) (cd : CollectedData F) : List (Write V) :=
  let labels := [("pid", toString p.pid), ("cmdline", p.cmdline)]
  [gauge "oom_score" labels (F32OfI32.ofI32 cd.oomScore : F)]

/-- Update the averages and the total of a severity. -/
def reportPressureAverages (mtr : String) (p : Process) (sev : String)
    (d : PressureAverages F) : List (Write V) :=
  let severityWindows := [
    ("avg10", d.avg10),
    ("avg60", d.avg60),
    ("avg300", d.avg300),
    ("total", F32.ofU64 d.total)]
  severityWindows.map fun (window, value) =>
    let labels := [
      ("pid", toString p.pid),
      ("cmdline", p.cmdline),
      ("severity_level", sev),
      ("severity_window", window)]
    gauge mtr labels value

/-- Update the gauges of the pressure on one resource. -/
def reportPressureData (mtr : String) (p : Process) (d : PressureData F) : List (Write V) :=
  reportPressureAverages mtr p "some" d.some ++ reportPressureAverages mtr p "full" d.full

/-- Update the gauges of the pressure on memory, io and cpu. -/
def reportPressure (p : Process) (d : CollectedData F) : List (Write V) :=
  reportPressureData "memory_pressure" p d.pressure.memory ++
    reportPressureData "io_pressure" p d.pressure.io ++
    reportPressureData "cpu_pressure" p d.pressure.cpu

/-- Write all gauges of a process. -/
def reportCollectedData (p : Process) (d : CollectedData F) : List (Write V) :=
  reportUsage p d ++ reportOomScore p d ++ reportPressure p d

end Server

/-! ## The documented gauges -/

/-- The gauges the documentation lists. -/
inductive Gauge where
  | memoryUsage
  | oomScore
  | pressure (resource : Resource) (severity : PressureSeverity) (window : PressureKey)
deriving DecidableEq, Repr

/-- The metric of a resource. -/
def Resource.metric : Resource → String
  | memory => "memory_pressure"
  | io => "io_pressure"
  | cpu => "cpu_pressure"

theorem Resource.metric_injective : Function.Injective Resource.metric := by
  intro resource resource' h
  cases resource <;> cases resource' <;> first | rfl | simp [metric] at h

/-- The metrics of the resources are none of the other two. -/
theorem Resource.metric_ne (resource : Resource) :
    resource.metric ≠ "memory_usage" ∧ resource.metric ≠ "oom_score" := by
  cases resource <;> simp [metric]

namespace Gauge

/-- The variable a gauge shows. -/
def asVariable : Gauge → Variable
  | memoryUsage => .memoryUsage
  | oomScore => .oomScore
  | pressure resource severity window => .pressure resource severity window

/-- The metric of a gauge. -/
def metric : Gauge → String
  | memoryUsage => "memory_usage"
  | oomScore => "oom_score"
  | pressure resource _ _ => resource.metric

/-- The labels of a gauge beside those of the process. -/
def severityLabels : Gauge → List (String × String)
  | memoryUsage | oomScore => []
  | pressure _ severity window =>
      [("severity_level", severity.name), ("severity_window", window.name)]

/-- The series of a gauge for a process. -/
def series (p : Process) (g : Gauge) : Series where
  name := g.metric
  labels := ("pid", toString p.pid) :: ("cmdline", p.cmdline) :: g.severityLabels

/-- All gauges, in the order of the report. -/
def all : List Gauge :=
  memoryUsage :: oomScore :: [Resource.memory, .io, .cpu].flatMap fun resource =>
    [PressureSeverity.some, .full].flatMap fun severity =>
      [PressureKey.avg10, .avg60, .avg300, .total].map (pressure resource severity)

theorem mem_all (g : Gauge) : g ∈ all := by
  cases g with
  | memoryUsage => decide
  | oomScore => decide
  | pressure resource severity window =>
      cases resource <;> cases severity <;> cases window <;> decide

/-! ## Series are not shared -/

/-- The labels of a process tell it apart. -/
theorem process_of_labels {p p' : Process} (g g' : Gauge)
    (h : ∀ label ∈ (g.series p).labels, label ∈ (g'.series p').labels) : p = p' := by
  have hkeys : ∀ label ∈ g'.severityLabels, label.1 ≠ "pid" ∧ label.1 ≠ "cmdline" := by
    cases g' <;> simp [severityLabels]
  have hpid : toString p.pid.toInt = toString p'.pid.toInt := by
    have hmem := h ("pid", toString p.pid) (by simp [series])
    simp only [series, List.mem_cons, Prod.mk.injEq, true_and] at hmem
    rcases hmem with heq | ⟨hkey, -⟩ | hother
    · exact heq
    · exact absurd hkey (by decide)
    · exact absurd rfl (hkeys _ hother).1
  have hcmdline : p.cmdline = p'.cmdline := by
    have hmem := h ("cmdline", p.cmdline) (by simp [series])
    simp only [series, List.mem_cons, Prod.mk.injEq, true_and] at hmem
    rcases hmem with ⟨hkey, -⟩ | heq | hother
    · exact absurd hkey (by decide)
    · exact heq
    · exact absurd rfl (hkeys _ hother).2
  have hparse := Decimal.parseI32_toString p.pid
  rw [hpid, Decimal.parseI32_toString] at hparse
  cases p
  cases p'
  simp_all

/-- The metric and the labels of a gauge tell it apart. -/
theorem eq_of_series {p p' : Process} {g g' : Gauge} (hmetric : g.metric = g'.metric)
    (hlabels : ∀ label ∈ (g.series p).labels, label ∈ (g'.series p').labels) : g = g' := by
  cases g with
  | memoryUsage =>
      cases g' with
      | memoryUsage => rfl
      | oomScore => simp [metric] at hmetric
      | pressure resource _ _ => exact absurd hmetric.symm resource.metric_ne.1
  | oomScore =>
      cases g' with
      | memoryUsage => simp [metric] at hmetric
      | oomScore => rfl
      | pressure resource _ _ => exact absurd hmetric.symm resource.metric_ne.2
  | pressure resource severity window =>
      cases g' with
      | memoryUsage => exact absurd hmetric resource.metric_ne.1
      | oomScore => exact absurd hmetric resource.metric_ne.2
      | pressure resource' severity' window' =>
          have hseverity : severity.name = severity'.name := by
            simpa [series, severityLabels] using
              hlabels ("severity_level", severity.name) (by simp [series, severityLabels])
          have hwindow : window.name = window'.name := by
            simpa [series, severityLabels] using
              hlabels ("severity_window", window.name) (by simp [series, severityLabels])
          rw [Resource.metric_injective hmetric, PressureSeverity.name_injective hseverity,
            PressureKey.name_injective hwindow]

/-- Two series are the same only for the same gauge of the same process. -/
theorem series_same_iff (g g' : Gauge) (p p' : Process) :
    (g.series p).Same (g'.series p') ↔ g = g' ∧ p = p' := by
  constructor
  · rintro ⟨hname, hlabels⟩
    have hlabels' : ∀ label ∈ (g.series p).labels, label ∈ (g'.series p').labels :=
      fun label => (hlabels label).mp
    exact ⟨eq_of_series hname hlabels', process_of_labels g g' hlabels'⟩
  · rintro ⟨rfl, rfl⟩
    exact ⟨rfl, fun _ => Iff.rfl⟩

/-- The value a gauge is set to. -/
def value {F : Type} [F32 F] [F32OfI32 F] (cd : CollectedData F) : Gauge → F
  | memoryUsage => cd.memoryUsage
  | oomScore => F32OfI32.ofI32 cd.oomScore
  | pressure resource severity window =>
      let averages := (cd.pressure.data resource).averages severity
      match window with
      | .avg10 => averages.avg10
      | .avg60 => averages.avg60
      | .avg300 => averages.avg300
      | .total => F32.ofU64 averages.total

end Gauge

/-! ## Gauges and variables -/

namespace Server

section Law

variable {F V : Type} [F32 F] [F32OfI32 F] [F64 V] [Widen F V]

omit [F64 V] in
/-- The report writes every gauge once, in order. -/
theorem reportCollectedData_eq (p : Process) (cd : CollectedData F) :
    (reportCollectedData p cd : List (Write V)) =
      Gauge.all.map fun g => { series := g.series p, value := Widen.widen (g.value cd) } :=
  rfl

variable (V) in
/-- What the gauges of a process promise: each of the 26 series is written once, no
other process writes to it, and it shows what the variable of the gauge is. -/
structure MetricsLaw (p : Process) (cd : CollectedData F) : Prop where
  count : (reportCollectedData p cd : List (Write V)).length = 26
  once : (reportCollectedData p cd : List (Write V)).Pairwise fun w w' => ¬ w.series.Same w'.series
  apart : ∀ (p' : Process) (cd' : CollectedData F), p' ≠ p →
    ∀ w ∈ (reportCollectedData p cd : List (Write V)),
    ∀ w' ∈ (reportCollectedData p' cd' : List (Write V)), ¬ w.series.Same w'.series
  written : ∀ g : Gauge, ∃ w ∈ (reportCollectedData p cd : List (Write V)),
    w.series.Same (g.series p)
  agrees : ∀ g : Gauge, ∀ w ∈ (reportCollectedData p cd : List (Write V)),
    w.series.Same (g.series p) → cd.lookup g.asVariable.name = some w.value

/-- The gauges keep the law as far as their values are those of the variables. -/
theorem metricsLaw_iff_values (p : Process) (cd : CollectedData F) :
    MetricsLaw V p cd ↔ ∀ g : Gauge,
      (Widen.widen (g.value cd) : V) = g.asVariable.convert (g.asVariable.field cd) := by
  have hwrites : ∀ {p : Process} {cd : CollectedData F} {w : Write V},
      w ∈ reportCollectedData p cd → ∃ g : Gauge,
        w.series = g.series p ∧ w.value = Widen.widen (g.value cd) := by
    intro p cd w hw
    rw [reportCollectedData_eq, List.mem_map] at hw
    obtain ⟨g, -, rfl⟩ := hw
    exact ⟨g, rfl, rfl⟩
  have hwritten : ∀ g : Gauge, { series := g.series p, value := Widen.widen (g.value cd) } ∈
      (reportCollectedData p cd : List (Write V)) := by
    intro g
    rw [reportCollectedData_eq, List.mem_map]
    exact ⟨g, g.mem_all, rfl⟩
  constructor
  · intro h g
    have hlookup := h.agrees g _ (hwritten g) ⟨rfl, fun _ => Iff.rfl⟩
    rw [cd.lookup_name, Option.some_inj] at hlookup
    exact hlookup.symm
  · intro h
    refine ⟨rfl, ?_, ?_, ?_, ?_⟩
    · rw [reportCollectedData_eq, List.pairwise_map]
      have hnodup : Gauge.all.Nodup := by decide
      apply hnodup.imp
      intro g g' hne hsame
      exact hne ((Gauge.series_same_iff g g' p p).mp hsame).1
    · intro p' cd' hne w hw w' hw' hsame
      obtain ⟨g, hseries, -⟩ := hwrites hw
      obtain ⟨g', hseries', -⟩ := hwrites hw'
      rw [hseries, hseries', Gauge.series_same_iff] at hsame
      exact hne hsame.2.symm
    · intro g
      exact ⟨_, hwritten g, rfl, fun _ => Iff.rfl⟩
    · intro g w hw hsame
      obtain ⟨g', hseries, hvalue⟩ := hwrites hw
      rw [hseries, Gauge.series_same_iff] at hsame
      obtain ⟨rfl, -⟩ := hsame
      rw [cd.lookup_name, hvalue, h g']

/-! ## Rounding -/

/-- The two conversions of an integer agree: it is near one that fits {lit}`f32`. -/
def RoundsAlike (n : Int) : Prop :=
  Rounding.Near (Rounding.spacing 53 n.natAbs) (Rounding.spacing 24 n.natAbs) n.natAbs

instance (n : Int) : Decidable (RoundsAlike n) :=
  inferInstanceAs (Decidable (Rounding.Near _ _ _))

/-- The score and the totals round alike. -/
structure CountsRoundAlike (cd : CollectedData F) : Prop where
  oomScore : RoundsAlike cd.oomScore.toInt
  total : ∀ resource severity,
    RoundsAlike ((cd.pressure.data resource).averages severity).total.toNat

variable (F V) in
/-- Conversions of integers round to the significand, and {lit}`f64` has one value for
each integer that needs no rounding. -/
structure RoundsIntegers (exact : Int → V) : Prop where
  injOn : Set.InjOn exact {n | Rounding.Representable 53 64 n}
  f32_ofU64 : ∀ n : UInt64,
    Widen.widen (F32.ofU64 n : F) = exact (Rounding.roundSignificand 24 n.toNat)
  f32_ofI32 : ∀ n : Int32,
    Widen.widen (F32OfI32.ofI32 n : F) = exact (Rounding.roundSignificand 24 n.toInt)
  f64_ofU64 : ∀ n : UInt64, F64.ofU64 n = exact (Rounding.roundSignificand 53 n.toNat)
  f64_ofI32 : ∀ n : Int32, F64.ofI32 n = exact (Rounding.roundSignificand 53 n.toInt)

omit [F32 F] [F32OfI32 F] [F64 V] [Widen F V] in
/-- Two conversions of an integer give one value exactly when they round alike. -/
theorem exact_eq_iff {exact : Int → V}
    (h : Set.InjOn exact {n | Rounding.Representable 53 64 n}) {n : Int}
    (hn : n.natAbs.size ≤ 64) :
    exact (Rounding.roundSignificand 24 n) = exact (Rounding.roundSignificand 53 n) ↔
      RoundsAlike n := by
  have hshort : Rounding.Representable 53 64 (Rounding.roundSignificand 24 n) :=
    Rounding.representable_roundSignificand (by omega) (by omega)
  have hlong : Rounding.Representable 53 64 (Rounding.roundSignificand 53 n) :=
    Rounding.representable_roundSignificand (by omega) (by omega)
  rw [h.eq_iff hshort hlong, Rounding.roundSignificand_eq_iff (by omega)]
  rfl

/-- The conversions of a count agree exactly when they round it alike. -/
theorem widen_ofU64_iff {exact : Int → V} (h : RoundsIntegers F V exact) (n : UInt64) :
    (Widen.widen (F32.ofU64 n : F) : V) = F64.ofU64 n ↔ RoundsAlike n.toNat := by
  rw [h.f32_ofU64, h.f64_ofU64]
  apply exact_eq_iff h.injOn
  rw [Int.natAbs_natCast, Nat.size_le]
  exact n.toNat_lt

theorem widen_ofI32_iff {exact : Int → V} (h : RoundsIntegers F V exact) (n : Int32) :
    (Widen.widen (F32OfI32.ofI32 n : F) : V) = F64.ofI32 n ↔ RoundsAlike n.toInt := by
  rw [h.f32_ofI32, h.f64_ofI32]
  apply exact_eq_iff h.injOn
  have hlow := n.le_toInt
  have hhigh := n.toInt_lt
  rw [Nat.size_le]
  omega

/-- The gauges agree with the variables exactly when the score and the totals round
alike in both conversions. -/
theorem reportCollectedData_law_iff {exact : Int → V} (h : RoundsIntegers F V exact)
    (p : Process) (cd : CollectedData F) : MetricsLaw V p cd ↔ CountsRoundAlike cd := by
  rw [metricsLaw_iff_values]
  constructor
  · intro hvalues
    constructor
    · exact (widen_ofI32_iff h _).mp (hvalues .oomScore)
    · intro resource severity
      exact (widen_ofU64_iff h _).mp (hvalues (.pressure resource severity .total))
  · intro hcounts g
    cases g with
    | memoryUsage => exact (Variable.convert_memoryUsage cd).symm
    | oomScore => exact (widen_ofI32_iff h _).mpr hcounts.oomScore
    | pressure resource severity window =>
        cases window with
        | avg10 => rfl
        | avg60 => rfl
        | avg300 => rfl
        | total => exact (widen_ofU64_iff h _).mpr (hcounts.total resource severity)

end Law

/-! ## Floats with exact arithmetic -/

/-- Rationals in place of {lit}`f32`: only the conversions of integers round. -/
def Single : Type := ℚ

/-- Rationals in place of {lit}`f64`: only the conversions of integers round. -/
def Double : Type := ℚ
deriving DecidableEq

instance : F32 Single where
  zero := (0 : ℚ)
  sub := Rat.sub
  mul := Rat.mul
  div := Rat.div
  ofU64 n := (Rounding.roundSignificand 24 n.toNat : ℚ)
  ten := (10 : ℚ)
  hundred := (100 : ℚ)
  abs := fun x : ℚ => (|x| : ℚ)
  gt := fun x y : ℚ => y < x
  parse s := (Decimal.parseU64 s).toOption.map fun n => (n.toNat : ℚ)

instance : F32OfI32 Single where
  ofI32 n := (Rounding.roundSignificand 24 n.toInt : ℚ)

instance : F64 Double where
  ofU64 n := (Rounding.roundSignificand 53 n.toNat : ℚ)
  ofI32 n := (Rounding.roundSignificand 53 n.toInt : ℚ)
  one := (1 : ℚ)
  ge := fun (x y : ℚ) => decide (y ≤ x)

instance : Widen Single Double where
  widen x := x

/-- The rationals round integers as the floats do. -/
theorem roundsIntegers_rationals :
    RoundsIntegers Single Double (fun n => ((n : ℚ) : Double)) where
  injOn := fun _ _ _ _ h => Int.cast_injective (α := ℚ) h
  f32_ofU64 _ := rfl
  f32_ofI32 _ := rfl
  f64_ofU64 _ := rfl
  f64_ofI32 _ := rfl

/-- Data with a given total of memory stall, in microseconds. -/
def stalledData (total : UInt64) : CollectedData Single :=
  { (default : CollectedData Single) with
    pressure := { (default : Pressure Single) with
      memory := { (default : PressureData Single) with
        some := { (default : PressureAverages Single) with total } } } }

/-- A total that fits the significand of {lit}`f32` is shown as it is. -/
theorem gauges_agree_when_short :
    MetricsLaw Double ⟨5, "postgres"⟩ (stalledData 16777218) := by
  refine (reportCollectedData_law_iff roundsIntegers_rationals ⟨5, "postgres"⟩
    (stalledData 16777218)).mpr ⟨by decide +kernel, ?_⟩
  intro resource severity
  cases resource <;> cases severity <;> decide +kernel

/-- A total one beyond that significand is shown one too small. -/
theorem gauge_total_rounded :
    ¬ MetricsLaw Double ⟨5, "postgres"⟩ (stalledData 16777217) := by
  rw [metricsLaw_iff_values]
  intro h
  have htotal := h (.pressure .memory .some .total)
  revert htotal
  decide +kernel

end Server
end OomHero
