import OomHero.Processes.Psi
import OomHero.Processes.Variables

/-!
# Processes - The grammar of variables

The names the lookups accept, each with the part of the collected data it spells.

Main results:

- Theorem {lit}`CollectedData.lookup_eq_some_iff`: a lookup that finds a value finds
  the field the name spells.
- Theorem {lit}`CollectedData.lookup_grammar`: the names with a value are exactly the
  documented variables, and each depends on its own field only.
-/

namespace OomHero

/-- The resources pressure is collected for. -/
inductive Resource where
  | memory
  | io
  | cpu
deriving DecidableEq, Repr

/-- The text of a resource. -/
def Resource.name : Resource → String
  | memory => "memory"
  | io => "io"
  | cpu => "cpu"

/-- What a name in a threshold expression can stand for. -/
inductive Variable where
  | memoryUsage
  | memoryCurrent
  | memoryMax
  | oomScore
  | oomScoreAdj
  | pressure (resource : Resource) (severity : PressureSeverity) (window : PressureKey)
deriving DecidableEq, Repr

namespace Variable

/-- The name that spells a variable. -/
def name : Variable → String
  | memoryUsage => "memory_usage"
  | memoryCurrent => "memory_current"
  | memoryMax => "memory_max"
  | oomScore => "oom_score"
  | oomScoreAdj => "oom_score_adj"
  | pressure resource severity window =>
      pressureVariable resource.name severity.name window.name

/-- The type of what a variable reads. -/
def Field (F : Type) : Variable → Type
  | memoryUsage => UInt64 × UInt64
  | memoryCurrent | memoryMax => UInt64
  | oomScore | oomScoreAdj => Int32
  | pressure _ _ window => window.Value F

end Variable

variable {F V : Type}

/-- The pressure on one resource. -/
def Pressure.data (p : Pressure F) : Resource → PressureData F
  | .memory => p.memory
  | .io => p.io
  | .cpu => p.cpu

/-- The part of the collected data a variable reads. -/
def Variable.field (cd : CollectedData F) : (v : Variable) → v.Field F
  | memoryUsage => (cd.memoryCurrent, cd.memoryMax)
  | memoryCurrent => cd.memoryCurrent
  | memoryMax => cd.memoryMax
  | oomScore => cd.oomScore
  | oomScoreAdj => cd.oomScoreAdj
  | pressure resource severity window =>
      ((cd.pressure.data resource).averages severity).field window

/-! ## The documented names -/

theorem Resource.name_mem (resource : Resource) : resource.name ∈ resourceNames := by
  cases resource <;> simp [Resource.name, resourceNames]

theorem PressureSeverity.name_mem (severity : PressureSeverity) :
    severity.name ∈ severityNames := by
  cases severity <;> simp [PressureSeverity.name, severityNames]

theorem PressureKey.name_mem (window : PressureKey) : window.name ∈ windowNames := by
  cases window <;> simp [PressureKey.name, windowNames]

theorem Resource.name_injective : Function.Injective Resource.name := by
  intro r r' h
  cases r <;> cases r' <;> first | rfl | simp [Resource.name] at h

theorem PressureSeverity.name_injective : Function.Injective PressureSeverity.name := by
  intro s s' h
  exact Option.some.inj (((ofName?_eq_some_iff _ s).mpr rfl).symm.trans
    ((ofName?_eq_some_iff _ s').mpr h))

theorem PressureKey.name_injective : Function.Injective PressureKey.name := by
  intro k k' h
  exact Option.some.inj (((ofName?_eq_some_iff _ k).mpr rfl).symm.trans
    ((ofName?_eq_some_iff _ k').mpr h))

/-- No pressure variable is a scalar. -/
theorem pressureVariable_notMem {resource severity window : String}
    (hresource : resource ∈ resourceNames) (hseverity : severity ∈ severityNames)
    (hwindow : window ∈ windowNames) :
    pressureVariable resource severity window ∉ scalarVariables := by
  have hlength : ∀ name ∈ scalarVariables, (Text.splitOn '_' name).length ≠ 4 := by
    decide
  intro h
  apply hlength _ h
  rw [splitOn_pressureVariable hresource hseverity hwindow]
  rfl

namespace Variable

/-- The name of every variable is documented. -/
theorem name_documented (v : Variable) : v.name ∈ documentedVariables := by
  unfold documentedVariables
  rw [List.mem_append]
  cases v with
  | pressure resource severity window =>
      right
      simp only [List.mem_flatMap, List.mem_map]
      exact ⟨_, resource.name_mem, _, severity.name_mem, _, window.name_mem, rfl⟩
  | _ =>
      left
      simp [name, scalarVariables]

/-- Different variables have different names. -/
theorem name_injective : Function.Injective name := by
  intro v v' h
  have hpressure : ∀ resource severity window,
      (pressure resource severity window).name ∉ scalarVariables :=
    fun resource severity window =>
      pressureVariable_notMem resource.name_mem severity.name_mem window.name_mem
  cases v with
  | pressure resource severity window =>
      cases v' with
      | pressure resource' severity' window' =>
          -- the pieces of the common name are the texts of both
          have hsplit := congrArg (Text.splitOn '_') h
          rw [name, name,
            splitOn_pressureVariable resource.name_mem severity.name_mem window.name_mem,
            splitOn_pressureVariable resource'.name_mem severity'.name_mem window'.name_mem]
            at hsplit
          simp only [List.cons.injEq] at hsplit
          obtain ⟨hresource, -, hseverity, hwindow, -⟩ := hsplit
          rw [Resource.name_injective hresource, PressureSeverity.name_injective hseverity,
            PressureKey.name_injective hwindow]
      | _ =>
          have hnot := hpressure resource severity window
          rw [h] at hnot
          simp [name, scalarVariables] at hnot
  | _ =>
      cases v' with
      | pressure resource severity window =>
          have hnot := hpressure resource severity window
          rw [← h] at hnot
          simp [name, scalarVariables] at hnot
      | _ => first | rfl | simp [name] at h

end Variable

section Convert

variable [F64 V] [Widen F V]

/-- The conversion of the values of a window. -/
def PressureKey.convert : (key : PressureKey) → key.Value F → V
  | avg10 | avg60 | avg300 => (Widen.widen : F → V)
  | total => F64.ofU64

/-- The conversion of what a variable reads. -/
def Variable.convert [F32 F] : (v : Variable) → v.Field F → V
  | memoryUsage => fun (current, max) =>
      let usage : F :=
        if max = 0 then 0 else F32.ofU64 current / F32.ofU64 max * F32.hundred
      Widen.widen usage
  | memoryCurrent | memoryMax => F64.ofU64
  | oomScore | oomScoreAdj => F64.ofI32
  | pressure _ _ window => window.convert

/-! ## The lookups level by level -/

/-- A name finds a window exactly when it is its text. -/
theorem PressureAverages.lookup_eq_some_iff (a : PressureAverages F) (name : String) (x : V) :
    a.lookup name = some x ↔
      ∃ window : PressureKey, window.name = name ∧ window.convert (a.field window) = x := by
  constructor
  · intro h
    unfold PressureAverages.lookup at h
    split at h
    · exact ⟨.avg10, rfl, Option.some.inj h⟩
    · exact ⟨.avg60, rfl, Option.some.inj h⟩
    · exact ⟨.avg300, rfl, Option.some.inj h⟩
    · exact ⟨.total, rfl, Option.some.inj h⟩
    · cases h
  · rintro ⟨window, rfl, rfl⟩
    cases window <;> rfl

/-- Two pieces find a severity and a window exactly when they are their texts. -/
theorem PressureData.lookup_eq_some_iff (d : PressureData F) {third fourth : String}
    (hthird : '_' ∉ third.toList) (hfourth : '_' ∉ fourth.toList) (x : V) :
    d.lookup s!"{third}_{fourth}" = .some x ↔
      ∃ (severity : PressureSeverity) (window : PressureKey), severity.name = third ∧
        window.name = fourth ∧ window.convert ((d.averages severity).field window) = x := by
  have hsplit : Text.splitOn '_' s!"{third}_{fourth}" = [third, fourth] := by
    rw [Text.splitOn_eq_pair_iff]
    exact ⟨rfl, hthird, hfourth⟩
  unfold PressureData.lookup
  rw [hsplit]
  dsimp only
  constructor
  · intro h
    split at h
    · obtain ⟨window, hname, hvalue⟩ := (d.some.lookup_eq_some_iff fourth x).mp h
      exact ⟨.some, window, rfl, hname, hvalue⟩
    · obtain ⟨window, hname, hvalue⟩ := (d.full.lookup_eq_some_iff fourth x).mp h
      exact ⟨.full, window, rfl, hname, hvalue⟩
    · cases h
  · rintro ⟨severity, window, rfl, rfl, rfl⟩
    cases severity with
    | some => exact (d.some.lookup_eq_some_iff _ _).mpr ⟨window, rfl, rfl⟩
    | full => exact (d.full.lookup_eq_some_iff _ _).mpr ⟨window, rfl, rfl⟩

/-- A name finds a pressure exactly when it spells it. -/
theorem Pressure.lookup_eq_some_iff (p : Pressure F) (name : String) (x : V) :
    p.lookup name = some x ↔
      ∃ (resource : Resource) (severity : PressureSeverity) (window : PressureKey),
        pressureVariable resource.name severity.name window.name = name ∧
          window.convert (((p.data resource).averages severity).field window) = x := by
  unfold Pressure.lookup
  constructor
  · intro h
    split at h
    · rename_i first kind third fourth hsplit
      split at h <;> rename_i hkind
      · cases h
      · obtain rfl : kind = "pressure" := not_not.mp hkind
        obtain ⟨hname, -, hthird, hfourth⟩ := (splitOn_eq_pressure_iff _ _ _ _).mp hsplit
        have hresource : ∃ resource : Resource, resource.name = first ∧
            (p.data resource).lookup s!"{third}_{fourth}" = some x := by
          split at h
          · exact ⟨.memory, rfl, h⟩
          · exact ⟨.io, rfl, h⟩
          · exact ⟨.cpu, rfl, h⟩
          · cases h
        obtain ⟨resource, rfl, hlookup⟩ := hresource
        rw [PressureData.lookup_eq_some_iff _ hthird hfourth] at hlookup
        obtain ⟨severity, window, rfl, rfl, hvalue⟩ := hlookup
        exact ⟨resource, severity, window, hname.symm, hvalue⟩
    · cases h
  · rintro ⟨resource, severity, window, rfl, hvalue⟩
    rw [splitOn_pressureVariable resource.name_mem severity.name_mem window.name_mem]
    have hlookup := (PressureData.lookup_eq_some_iff (p.data resource)
      (underscore_notMem (by simp [severity.name_mem]))
      (underscore_notMem (by simp [window.name_mem])) x).mpr
        ⟨severity, window, rfl, rfl, hvalue⟩
    cases resource <;> exact hlookup

/-- The memory usage converts as its variable does. -/
theorem Variable.convert_memoryUsage [F32 F] (cd : CollectedData F) :
    (memoryUsage.convert (memoryUsage.field cd) : V) = Widen.widen cd.memoryUsage :=
  congrArg Widen.widen cd.memoryUsage_eq.symm

/-- A name finds a value exactly when it spells a variable, and then it is what the
variable reads. -/
theorem CollectedData.lookup_eq_some_iff [F32 F] (cd : CollectedData F) (name : String) (x : V) :
    cd.lookup name = some x ↔ ∃ v : Variable, v.name = name ∧ v.convert (v.field cd) = x := by
  constructor
  · intro h
    by_cases hscalar : name ∈ scalarVariables
    · simp only [scalarVariables, List.mem_cons, List.not_mem_nil, or_false] at hscalar
      rcases hscalar with rfl | rfl | rfl | rfl | rfl
      · exact ⟨.memoryUsage, rfl, (Variable.convert_memoryUsage cd).trans (Option.some.inj h)⟩
      · exact ⟨.memoryCurrent, rfl, Option.some.inj h⟩
      · exact ⟨.memoryMax, rfl, Option.some.inj h⟩
      · exact ⟨.oomScore, rfl, Option.some.inj h⟩
      · exact ⟨.oomScoreAdj, rfl, Option.some.inj h⟩
    · rw [cd.lookup_eq_pressure hscalar, Pressure.lookup_eq_some_iff] at h
      obtain ⟨resource, severity, window, hname, hvalue⟩ := h
      exact ⟨.pressure resource severity window, hname, hvalue⟩
  · rintro ⟨v, rfl, rfl⟩
    cases v with
    | memoryUsage => exact congrArg some (Variable.convert_memoryUsage cd).symm
    | memoryCurrent => rfl
    | memoryMax => rfl
    | oomScore => rfl
    | oomScoreAdj => rfl
    | pressure resource severity window =>
        have hpressure : (Variable.pressure resource severity window).name ∉ scalarVariables :=
          pressureVariable_notMem resource.name_mem severity.name_mem window.name_mem
        rw [cd.lookup_eq_pressure hpressure, Pressure.lookup_eq_some_iff]
        exact ⟨resource, severity, window, rfl, rfl⟩

/-- A variable's name finds what the variable reads. -/
theorem CollectedData.lookup_name [F32 F] (cd : CollectedData F) (v : Variable) :
    cd.lookup v.name = some (v.convert (v.field cd) : V) := by
  rw [cd.lookup_eq_some_iff]
  exact ⟨v, rfl, rfl⟩

/-- The variables have a value, under one name each, and it depends on what they read
only. -/
theorem CollectedData.lookup_grammar [F32 F] :
    (∀ (cd : CollectedData F) (name : String),
      (cd.lookup name : Option V).isSome = true ↔ name ∈ documentedVariables) ∧
    (∀ name : String, name ∈ documentedVariables ↔ ∃! v : Variable, v.name = name) ∧
    (∀ (cd : CollectedData F) (v : Variable),
      cd.lookup v.name = some (v.convert (v.field cd) : V)) ∧
    (∀ (cd cd' : CollectedData F) (v : Variable), v.field cd = v.field cd' →
      (cd.lookup v.name : Option V) = cd'.lookup v.name) := by
  have hsome : ∀ (cd : CollectedData F) (name : String),
      (cd.lookup name : Option V).isSome = true → ∃ v : Variable, v.name = name := by
    intro cd name h
    obtain ⟨x, hx⟩ := Option.isSome_iff_exists.mp h
    obtain ⟨v, hname, -⟩ := (cd.lookup_eq_some_iff name x).mp hx
    exact ⟨v, hname⟩
  refine ⟨?_, ?_, CollectedData.lookup_name, ?_⟩
  · intro cd name
    constructor
    · intro h
      obtain ⟨v, rfl⟩ := hsome cd name h
      exact v.name_documented
    · exact cd.lookup_documented
  · intro name
    constructor
    · intro h
      obtain ⟨v, hv⟩ := hsome default name ((default : CollectedData F).lookup_documented h)
      refine ⟨v, hv, fun v' hv' => ?_⟩
      exact Variable.name_injective (hv'.trans hv.symm)
    · rintro ⟨v, rfl, -⟩
      exact v.name_documented
  · intro cd cd' v h
    rw [cd.lookup_name, cd'.lookup_name, h]

end Convert

end OomHero
