import OomHero.Processes.Model

/-!
# Processes - Documented variables

The names the documentation lists for threshold expressions: five scalars and
one pressure variable for each resource, severity and window.

Main results:

- Theorem {lit}`splitOn_pressureVariable`: a pressure variable splits into the
  four pieces it spells.
- Theorem {lit}`CollectedData.lookup_documented`: every documented variable has a
  value in every collected data.
-/

namespace OomHero

/-- The names of the scalars. -/
def scalarVariables : List String :=
  ["memory_usage", "memory_current", "memory_max", "oom_score", "oom_score_adj"]

/-- The names of a resource, a severity and a window. -/
def resourceNames : List String := ["memory", "io", "cpu"]

def severityNames : List String := ["some", "full"]

def windowNames : List String := ["avg10", "avg60", "avg300", "total"]

/-- The variable of a resource, a severity and a window. -/
def pressureVariable (resource severity window : String) : String :=
  s!"{resource}_pressure_{severity}_{window}"

/-- The variables the documentation lists. -/
def documentedVariables : List String :=
  scalarVariables ++ resourceNames.flatMap fun resource =>
    severityNames.flatMap fun severity => windowNames.map (pressureVariable resource severity)

/-- The pieces of a documented variable have no separator in them. -/
theorem underscore_notMem {piece : String}
    (h : piece ∈ "pressure" :: resourceNames ++ severityNames ++ windowNames) :
    '_' ∉ piece.toList := by
  revert piece
  decide

/-- A pressure variable joins four pieces. -/
theorem toList_pressureVariable (resource severity window : String) :
    (pressureVariable resource severity window).toList =
      ['_'].intercalate ([resource, "pressure", severity, window].map String.toList) := by
  simp only [pressureVariable, String.toList_append, List.map_cons, List.map_nil]
  simp
  rfl

/-- A name splits into a resource, the word for pressure, a severity and a window
exactly when it is their pressure variable. -/
theorem splitOn_eq_pressure_iff (name resource severity window : String) :
    Text.splitOn '_' name = [resource, "pressure", severity, window] ↔
      name = pressureVariable resource severity window ∧ '_' ∉ resource.toList ∧
        '_' ∉ severity.toList ∧ '_' ∉ window.toList := by
  rw [Text.splitOn_eq_iff _ _ (by simp), ← toList_pressureVariable, String.toList_inj]
  have hpressure : '_' ∉ "pressure".toList := underscore_notMem (by decide)
  apply and_congr_right
  intro _
  simp only [List.forall_mem_cons, List.not_mem_nil, false_imp_iff, implies_true, and_true]
  tauto

/-- A pressure variable splits into the four pieces it spells. -/
theorem splitOn_pressureVariable {resource severity window : String}
    (hresource : resource ∈ resourceNames) (hseverity : severity ∈ severityNames)
    (hwindow : window ∈ windowNames) :
    Text.splitOn '_' (pressureVariable resource severity window) =
      [resource, "pressure", severity, window] := by
  rw [splitOn_eq_pressure_iff]
  refine ⟨rfl, underscore_notMem ?_, underscore_notMem ?_, underscore_notMem ?_⟩ <;>
    simp [hresource, hseverity, hwindow]

/-- Splitting a suffix undoes joining a severity and a window. -/
theorem splitOn_suffix {severity window : String} (hseverity : severity ∈ severityNames)
    (hwindow : window ∈ windowNames) :
    Text.splitOn '_' s!"{severity}_{window}" = [severity, window] := by
  rw [Text.splitOn_eq_pair_iff]
  refine ⟨rfl, underscore_notMem ?_, underscore_notMem ?_⟩ <;> simp [hseverity, hwindow]

section Lookup

variable {F V : Type} [F64 V] [Widen F V]

/-- Every window of a severity has a value. -/
theorem PressureAverages.lookup_isSome (a : PressureAverages F) {window : String}
    (hwindow : window ∈ windowNames) : (a.lookup window : Option V).isSome = true := by
  simp only [windowNames, List.mem_cons, List.not_mem_nil, or_false] at hwindow
  rcases hwindow with rfl | rfl | rfl | rfl <;> rfl

/-- Every severity and window of a resource has a value. -/
theorem PressureData.lookup_isSome (d : PressureData F) {severity window : String}
    (hseverity : severity ∈ severityNames) (hwindow : window ∈ windowNames) :
    (d.lookup s!"{severity}_{window}" : Option V).isSome = true := by
  unfold PressureData.lookup
  rw [splitOn_suffix hseverity hwindow]
  simp only [severityNames, List.mem_cons, List.not_mem_nil, or_false] at hseverity
  rcases hseverity with rfl | rfl
  · exact d.some.lookup_isSome hwindow
  · exact d.full.lookup_isSome hwindow

/-- Every pressure variable has a value. -/
theorem Pressure.lookup_isSome (p : Pressure F) {resource severity window : String}
    (hresource : resource ∈ resourceNames) (hseverity : severity ∈ severityNames)
    (hwindow : window ∈ windowNames) :
    (p.lookup (pressureVariable resource severity window) : Option V).isSome = true := by
  unfold Pressure.lookup
  rw [splitOn_pressureVariable hresource hseverity hwindow]
  simp only [resourceNames, List.mem_cons, List.not_mem_nil, or_false] at hresource
  rcases hresource with rfl | rfl | rfl
  · exact p.memory.lookup_isSome hseverity hwindow
  · exact p.io.lookup_isSome hseverity hwindow
  · exact p.cpu.lookup_isSome hseverity hwindow

/-- A name that is no scalar is looked up among the pressures. -/
theorem CollectedData.lookup_eq_pressure [F32 F] (cd : CollectedData F) {name : String}
    (h : name ∉ scalarVariables) : (cd.lookup name : Option V) = cd.pressure.lookup name := by
  unfold CollectedData.lookup
  split
  · exact absurd (by decide) h
  · exact absurd (by decide) h
  · exact absurd (by decide) h
  · exact absurd (by decide) h
  · exact absurd (by decide) h
  · rfl

/-- Every documented variable has a value in every collected data. -/
theorem CollectedData.lookup_documented [F32 F] (cd : CollectedData F) {name : String}
    (h : name ∈ documentedVariables) : (cd.lookup name : Option V).isSome = true := by
  by_cases hscalar : name ∈ scalarVariables
  · simp only [scalarVariables, List.mem_cons, List.not_mem_nil, or_false] at hscalar
    rcases hscalar with rfl | rfl | rfl | rfl | rfl <;> rfl
  · rw [cd.lookup_eq_pressure hscalar]
    rcases List.mem_append.mp h with hmem | hpressure
    · exact absurd hmem hscalar
    · simp only [List.mem_flatMap, List.mem_map] at hpressure
      rcases hpressure with ⟨resource, hresource, severity, hseverity, window, hwindow, rfl⟩
      exact cd.pressure.lookup_isSome hresource hseverity hwindow

end Lookup

end OomHero
