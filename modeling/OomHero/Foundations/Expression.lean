import Mathlib.Tactic

/-!
# Foundations - Expressions with short-circuit operators

Expressions over constants and identifiers, with total unary and binary
operators and two operators that skip their right operand when the left one
decides.  Evaluation looks identifiers up in an environment and fails at the
first unknown one.

Main results:

- Theorem {lit}`Expr.eval_ok_iff`: evaluation succeeds exactly when every
  identifier it reaches is known.
- Theorem {lit}`Expr.reached_subset`: evaluation reaches only identifiers that
  occur in the expression.
-/

namespace OomHero

/-- Expressions over values, identifiers and operator symbols. -/
inductive Expr (ν ι μ β : Type) where
  | const (value : ν)
  | ident (name : ι)
  | unary (op : μ) (operand : Expr ν ι μ β)
  | binary (op : β) (left right : Expr ν ι μ β)
  | and (left right : Expr ν ι μ β)
  | or (left right : Expr ν ι μ β)
deriving Repr

/-- The meaning of the operators. -/
structure Algebra (ν μ β : Type) where
  unary : μ → ν → ν
  binary : β → ν → ν → ν
  /-- Whether a value counts as true. -/
  truthy : ν → Bool

namespace Expr

variable {ν ι μ β : Type}

/-- Evaluate an expression.  The error is the identifier that is unknown. -/
def eval (alg : Algebra ν μ β) (env : ι → Option ν) : Expr ν ι μ β → Except ι ν
  | const value => pure value
  | ident name =>
      match env name with
      | some value => pure value
      | none => throw name
  | unary op operand => return alg.unary op (← operand.eval alg env)
  | binary op left right => do
      let x ← left.eval alg env
      let y ← right.eval alg env
      return alg.binary op x y
  | and left right => do
      let x ← left.eval alg env
      if alg.truthy x then right.eval alg env else return x
  | or left right => do
      let x ← left.eval alg env
      if alg.truthy x then return x else right.eval alg env

/-- The identifiers that occur in an expression. -/
def idents : Expr ν ι μ β → List ι
  | const _ => []
  | ident name => [name]
  | unary _ operand => operand.idents
  | binary _ left right => left.idents ++ right.idents
  | and left right => left.idents ++ right.idents
  | or left right => left.idents ++ right.idents

/-- The identifiers evaluation looks up, in order. -/
def reached (alg : Algebra ν μ β) (env : ι → Option ν) : Expr ν ι μ β → List ι
  | const _ => []
  | ident name => [name]
  | unary _ operand => operand.reached alg env
  | binary _ left right =>
      left.reached alg env ++
        match left.eval alg env with
        | .ok _ => right.reached alg env
        | .error _ => []
  | and left right =>
      left.reached alg env ++
        match left.eval alg env with
        | .ok x => if alg.truthy x then right.reached alg env else []
        | .error _ => []
  | or left right =>
      left.reached alg env ++
        match left.eval alg env with
        | .ok x => if alg.truthy x then [] else right.reached alg env
        | .error _ => []

/-- Environments that agree on what occurs in an expression evaluate it alike. -/
theorem eval_congr (alg : Algebra ν μ β) {env env' : ι → Option ν} {e : Expr ν ι μ β}
    (h : ∀ name ∈ e.idents, env name = env' name) : e.eval alg env = e.eval alg env' := by
  induction e with
  | const value => rfl
  | ident name =>
      rw [eval, eval, h name (List.mem_singleton_self name)]
  | unary op operand ih => rw [eval, eval, ih h]
  | binary op left right ihl ihr =>
      obtain ⟨hleft, hright⟩ := List.forall_mem_append.mp h
      rw [eval, eval, ihl hleft, ihr hright]
  | and left right ihl ihr =>
      obtain ⟨hleft, hright⟩ := List.forall_mem_append.mp h
      rw [eval, eval, ihl hleft, ihr hright]
  | or left right ihl ihr =>
      obtain ⟨hleft, hright⟩ := List.forall_mem_append.mp h
      rw [eval, eval, ihl hleft, ihr hright]

/-- Evaluation reaches only identifiers that occur. -/
theorem reached_subset (alg : Algebra ν μ β) (env : ι → Option ν) (e : Expr ν ι μ β) :
    ∀ name ∈ e.reached alg env, name ∈ e.idents := by
  induction e with
  | const value => simp [reached]
  | ident name => simp [reached, idents]
  | unary op operand ih => exact ih
  | binary op left right ihl ihr =>
      intro name hname
      rcases List.mem_append.mp hname with hleft | hright
      · exact List.mem_append_left _ (ihl name hleft)
      · split at hright
        · exact List.mem_append_right _ (ihr name hright)
        · cases hright
  | and left right ihl ihr =>
      intro name hname
      rcases List.mem_append.mp hname with hleft | hright
      · exact List.mem_append_left _ (ihl name hleft)
      · split at hright
        · split at hright
          · exact List.mem_append_right _ (ihr name hright)
          · cases hright
        · cases hright
  | or left right ihl ihr =>
      intro name hname
      rcases List.mem_append.mp hname with hleft | hright
      · exact List.mem_append_left _ (ihl name hleft)
      · split at hright
        · split at hright
          · cases hright
          · exact List.mem_append_right _ (ihr name hright)
        · cases hright

/-- Evaluation succeeds exactly when every identifier it reaches is known. -/
theorem eval_ok_iff (alg : Algebra ν μ β) (env : ι → Option ν) (e : Expr ν ι μ β) :
    (∃ value, e.eval alg env = .ok value) ↔
      ∀ name ∈ e.reached alg env, (env name).isSome = true := by
  induction e with
  | const value => simp [eval, reached, pure, Except.pure]
  | ident name =>
      simp only [eval, reached, List.mem_singleton, forall_eq]
      cases env name <;> simp [pure, Except.pure, throw, throwThe, MonadExceptOf.throw]
  | unary op operand ih =>
      rw [reached, ← ih, eval]
      cases operand.eval alg env <;> simp [bind, Except.bind, pure, Except.pure]
  | binary op left right ihl ihr =>
      rw [reached, List.forall_mem_append, ← ihl, eval]
      cases left.eval alg env with
      | error name => simp [bind, Except.bind]
      | ok x =>
          simp only [← ihr, Except.ok.injEq, exists_eq', true_and, bind, Except.bind]
          cases right.eval alg env <;> simp [pure, Except.pure]
  | and left right ihl ihr =>
      rw [reached, List.forall_mem_append, ← ihl, eval]
      cases left.eval alg env with
      | error name => simp [bind, Except.bind]
      | ok x =>
          simp only [Except.ok.injEq, exists_eq', true_and, bind, Except.bind]
          split
          · exact ihr
          · simp [pure, Except.pure]
  | or left right ihl ihr =>
      rw [reached, List.forall_mem_append, ← ihl, eval]
      cases left.eval alg env with
      | error name => simp [bind, Except.bind]
      | ok x =>
          simp only [Except.ok.injEq, exists_eq', true_and, bind, Except.bind]
          split
          · simp [pure, Except.pure]
          · exact ihr

end Expr
end OomHero
