import OomHero.Foundations.Expression
import OomHero.Processes.Variables

/-!
# Arguments - Threshold expressions

The check of the expressions given at startup, and their evaluation against
collected data.  The expression library is a parameter: its parser and compiler are
arbitrary, and what they leave of an expression evaluates by the rules of
{lit}`Expr`.

Main results:

- Theorem {lit}`ThresholdsChecker.against_ok_iff`: evaluation succeeds exactly when
  it reaches known variables only.
- Theorem {lit}`ThresholdsChecker.known_of_documented`: expressions over documented
  variables evaluate against all data.
- Theorem {lit}`ThresholdsChecker.against_ne_none`: a warning expression that
  matches is reported whenever the check succeeds.
-/

namespace OomHero

/-! ## The expression library -/

/-- The unary operators of threshold expressions. -/
inductive UnaryOp where
  | not
  | neg
deriving DecidableEq, Repr

/-- The binary operators of threshold expressions that evaluate both operands. -/
inductive BinaryOp where
  | gt
  | lt
  | ge
  | le
  | eq
  | ne
  | add
  | sub
  | mul
  | div
  | mod
  | pow
deriving DecidableEq, Repr

/-- A threshold expression. -/
abbrev Threshold (V : Type) : Type :=
  Expr V String UnaryOp BinaryOp

/-- The expression library. -/
structure Fasteval (V : Type) where
  /-- Parse an expression.  The tree is what compiling leaves of it, with its constant parts
  folded: an operator that constants decide is gone, with the identifiers it would skip. -/
  parse : String → Except Error (Threshold V)
  algebra : Algebra V UnaryOp BinaryOp
  /-- The error for an identifier the namespace does not know. -/
  undefined : String → Error

namespace Fasteval

variable {V : Type}

/-- Evaluate an expression in a namespace. -/
def eval (engine : Fasteval V) (lookup : String → Option V) (e : Threshold V) :
    Except Error V :=
  (e.eval engine.algebra lookup).mapError engine.undefined

/-- Evaluation succeeds exactly when every identifier it reaches is known. -/
theorem eval_ok_iff (engine : Fasteval V) (lookup : String → Option V) (e : Threshold V) :
    (∃ v, engine.eval lookup e = .ok v) ↔
      ∀ name ∈ e.reached engine.algebra lookup, (lookup name).isSome = true := by
  rw [← Expr.eval_ok_iff, eval]
  cases e.eval engine.algebra lookup <;> simp [Except.mapError]

end Fasteval

/-! ## Thresholds -/

/-- The result of checking data against the thresholds. -/
inductive CheckerResult where
  | warning
  | critical
  | none
deriving DecidableEq, Repr

/-- The text of a result. -/
def CheckerResult.display : CheckerResult → String
  | none => "none"
  | warning => "warning"
  | critical => "critical"

/-- The debug text of a result. -/
def CheckerResult.debug : CheckerResult → String
  | none => "None"
  | warning => "Warning"
  | critical => "Critical"

/-- The compiled expressions. -/
structure ThresholdsChecker (V : Type) where
  warning : Threshold V
  critical : Threshold V

namespace ThresholdsChecker

variable {F V : Type} [F32 F] [F64 V] [Widen F V]

/-- Parse both expressions and keep what compiling leaves of them. -/
def newFrom (engine : Fasteval V) (warning critical : String) :
    Except Error (ThresholdsChecker V) := do
  let warning ← engine.parse warning
  let critical ← engine.parse critical
  return { warning, critical }

/-- Check collected data, the critical expression first.  A value of at least one
is a match. -/
def against (engine : Fasteval V) (checker : ThresholdsChecker V) (cd : CollectedData F) :
    Except Error CheckerResult := do
  if F64.ge (← engine.eval cd.lookup checker.critical) F64.one then
    return .critical
  if F64.ge (← engine.eval cd.lookup checker.warning) F64.one then
    return .warning
  return .none

end ThresholdsChecker

/-- The check of an expression given at startup. -/
def validateExpression {V : Type} (engine : Fasteval V) (s : String) : Except String String :=
  match engine.parse s with
  | .ok _ => .ok s
  | .error err => .error s!"invalid expression: {err}"

/-! ## Flags -/

/-- The flags that configure the monitor. -/
structure Flags where
  /-- In nanoseconds. -/
  loopInterval : Nat
  /-- In nanoseconds. -/
  cooldownInterval : Nat
  warning : String
  critical : String
deriving DecidableEq, Repr

instance : Inhabited Flags where
  default :=
    { loopInterval := 100000000
      cooldownInterval := 30000000000
      warning := "memory_usage > 70"
      critical := "memory_usage > 80" }

/-- The checker of the expressions in the flags. -/
def Flags.thresholdsChecker {V : Type} (engine : Fasteval V) (flags : Flags) :
    Except Error (ThresholdsChecker V) :=
  ThresholdsChecker.newFrom engine flags.warning flags.critical

/-! ## Evaluation -/

namespace ThresholdsChecker

variable {F V : Type} [F32 F] [F64 V] [Widen F V]

/-- An expression matches the data. -/
def Matches (engine : Fasteval V) (cd : CollectedData F) (e : Threshold V) : Prop :=
  ∃ v, engine.eval cd.lookup e = .ok v ∧ F64.ge v F64.one = true

/-- Evaluating an expression against data reaches known variables only. -/
def Known (engine : Fasteval V) (cd : CollectedData F) (e : Threshold V) : Prop :=
  ∀ name ∈ e.reached engine.algebra (cd.lookup (V := V)), (cd.lookup name : Option V).isSome = true

/-- An expression evaluates exactly when evaluation reaches known variables only. -/
theorem known_iff (engine : Fasteval V) (cd : CollectedData F) (e : Threshold V) :
    Known engine cd e ↔ ∃ v, engine.eval cd.lookup e = .ok v :=
  (engine.eval_ok_iff cd.lookup e).symm

/-- An expression over documented variables evaluates against all data. -/
theorem known_of_documented (engine : Fasteval V) (cd : CollectedData F) {e : Threshold V}
    (h : ∀ name ∈ e.idents, name ∈ documentedVariables) : Known engine cd e := by
  intro name hname
  apply cd.lookup_documented
  exact h name (e.reached_subset engine.algebra cd.lookup name hname)

/-- A critical expression that does not evaluate fails the check. -/
theorem against_of_critical_error {engine : Fasteval V} {checker : ThresholdsChecker V}
    {cd : CollectedData F} {err : Error}
    (h : engine.eval cd.lookup checker.critical = .error err) :
    checker.against engine cd = .error err := by
  rw [against, h]
  rfl

/-- A critical expression that matches decides the check. -/
theorem against_of_critical {engine : Fasteval V} {checker : ThresholdsChecker V}
    {cd : CollectedData F} (h : Matches engine cd checker.critical) :
    checker.against engine cd = .ok .critical := by
  rcases h with ⟨v, hv, hge⟩
  rw [against, hv]
  simp only [bind, Except.bind, hge, if_true]
  rfl

/-- Otherwise the warning expression decides it. -/
theorem against_of_not_critical {engine : Fasteval V} {checker : ThresholdsChecker V}
    {cd : CollectedData F} (hknown : Known engine cd checker.critical)
    (h : ¬ Matches engine cd checker.critical) :
    checker.against engine cd = (engine.eval cd.lookup checker.warning).map fun v =>
      if F64.ge v F64.one then .warning else .none := by
  rcases (known_iff engine cd checker.critical).mp hknown with ⟨v, hv⟩
  have hless : F64.ge v (F64.one : V) = false := by
    rw [← Bool.not_eq_true]
    exact fun hge => h ⟨v, hv, hge⟩
  rw [against, hv]
  simp only [bind, Except.bind, hless, Bool.false_eq_true, if_false]
  cases engine.eval cd.lookup checker.warning with
  | error err => rfl
  | ok w =>
      simp only [Except.map]
      split <;> rfl

/-- A check succeeds exactly when it reaches known variables only: those of the
critical expression, and those of the warning expression unless the critical one
matches. -/
theorem against_ok_iff (engine : Fasteval V) (checker : ThresholdsChecker V)
    (cd : CollectedData F) :
    (∃ severity, checker.against engine cd = .ok severity) ↔
      Known engine cd checker.critical ∧
        (¬ Matches engine cd checker.critical → Known engine cd checker.warning) := by
  by_cases hknown : Known engine cd checker.critical
  · by_cases hmatch : Matches engine cd checker.critical
    · simp [against_of_critical hmatch, hknown, hmatch]
    · rw [against_of_not_critical hknown hmatch, known_iff engine cd checker.warning]
      cases engine.eval cd.lookup checker.warning <;> simp [Except.map, hknown, hmatch]
  · cases heval : engine.eval cd.lookup checker.critical with
    | ok v => exact absurd ((known_iff engine cd checker.critical).mpr ⟨v, heval⟩) hknown
    | error err => simp [against_of_critical_error heval, hknown]

/-- A check that succeeds reports a warning expression that matches, unless it
reports something worse. -/
theorem against_ne_none {engine : Fasteval V} {checker : ThresholdsChecker V}
    {cd : CollectedData F} {severity : CheckerResult}
    (hcheck : checker.against engine cd = .ok severity)
    (hmatch : Matches engine cd checker.warning) : severity ≠ .none := by
  rintro rfl
  have hknown := ((against_ok_iff engine checker cd).mp ⟨_, hcheck⟩).1
  by_cases hcritical : Matches engine cd checker.critical
  · rw [against_of_critical hcritical] at hcheck
    cases hcheck
  · rcases hmatch with ⟨w, hw, hge⟩
    rw [against_of_not_critical hknown hcritical, hw] at hcheck
    simp [Except.map, hge] at hcheck

/-- Data that have the same variables of the expressions are checked alike. -/
theorem against_congr {engine : Fasteval V} {checker : ThresholdsChecker V}
    {cd cd' : CollectedData F}
    (h : ∀ name ∈ checker.critical.idents ++ checker.warning.idents,
      (cd.lookup name : Option V) = cd'.lookup name) :
    checker.against engine cd = checker.against engine cd' := by
  obtain ⟨hcritical, hwarning⟩ := List.forall_mem_append.mp h
  unfold against Fasteval.eval
  rw [Expr.eval_congr engine.algebra hcritical, Expr.eval_congr engine.algebra hwarning]

/-- A check reports a severity exactly when the expression for it matches, and for a
warning, the critical one does not. -/
theorem against_eq_iff (engine : Fasteval V) (checker : ThresholdsChecker V)
    (cd : CollectedData F) :
    (checker.against engine cd = .ok .critical ↔ Matches engine cd checker.critical) ∧
      (checker.against engine cd = .ok .warning ↔
        Known engine cd checker.critical ∧ ¬ Matches engine cd checker.critical ∧
          Matches engine cd checker.warning) := by
  by_cases hknown : Known engine cd checker.critical
  · by_cases hmatch : Matches engine cd checker.critical
    · simp [against_of_critical hmatch, hmatch]
    · rw [against_of_not_critical hknown hmatch]
      cases heval : engine.eval cd.lookup checker.warning with
      | error err =>
          have hnomatch : ¬ Matches engine cd checker.warning := by
            simp [Matches, heval]
          simp [Except.map, hmatch, hnomatch]
      | ok v =>
          have hwarning : Matches engine cd checker.warning ↔ F64.ge v F64.one = true := by
            simp [Matches, heval]
          simp only [Except.map, hwarning, hknown, hmatch]
          cases F64.ge v (F64.one : V) <;> simp
  · cases heval : engine.eval cd.lookup checker.critical with
    | ok v => exact absurd ((known_iff engine cd checker.critical).mpr ⟨v, heval⟩) hknown
    | error err =>
        have hnomatch : ¬ Matches engine cd checker.critical := by
          simp [Matches, heval]
        simp [against_of_critical_error heval, hnomatch, hknown]

end ThresholdsChecker

/-! ## A few expressions -/

instance : F64 Int where
  ofU64 n := n.toNat
  ofI32 i := i.toInt
  one := 1
  ge x y := y ≤ x

instance : Widen Whole Int where
  widen n := (UInt64.toNat n : Int)

/-- An identifier compared with a number. -/
def moreThan (name : String) (bound : Int) : Threshold Int :=
  .binary .gt (.ident name) (.const bound)

/-- An expression library that knows a few expressions, over integers. -/
def sampleFasteval : Fasteval Int where
  parse s :=
    match s with
    | "oom_score > 0" => .ok (moreThan "oom_score" 0)
    | "oom_score > 1" => .ok (moreThan "oom_score" 1)
    | "memory_usag > 70" => .ok (moreThan "memory_usag" 70)
    | _ => .error (.fastEvalError "unsupported")
  algebra :=
    { unary := fun
        | .not => fun x => if x = 0 then 1 else 0
        | .neg => fun x => -x
      binary := fun
        | .gt => fun x y => if y < x then 1 else 0
        | .lt => fun x y => if x < y then 1 else 0
        | .ge => fun x y => if y ≤ x then 1 else 0
        | .le => fun x y => if x ≤ y then 1 else 0
        | .eq => fun x y => if x = y then 1 else 0
        | .ne => fun x y => if x = y then 0 else 1
        | .add => fun x y => x + y
        | .sub => fun x y => x - y
        | .mul => fun x y => x * y
        | .div => fun x y => x / y
        | .mod => fun x y => x % y
        | .pow => fun x y => x ^ y.toNat
      truthy := fun x => x ≠ 0 }
  undefined name := .fastEvalError s!"Undefined({name})"

end OomHero
