import OomHero.Foundations.Text

/-!
# Foundations - Decimal integers

The integer parsers of the standard library of Rust: an optional sign, at least
one decimal digit, and an error of its own kind for an empty text, for a
character that is no digit and for a value out of range.

Main results:

- Theorem {lit}`accumulate_eq_ok_iff`: the digit loop accepts exactly the digit
  strings whose value is within the limit.
- Theorem {lit}`parseU64_eq_ok_iff`: the texts the unsigned parser accepts.
- Theorems {lit}`parseU64_toString` and {lit}`parseI32_toString`: parsing undoes
  decimal rendering.
-/

namespace OomHero
namespace Decimal

/-- Why an integer does not parse. -/
inductive IntErrorKind where
  | empty
  | invalidDigit
  | posOverflow
  | negOverflow
deriving DecidableEq, Repr

/-- The digit loop: a bad digit is reported before an overflow it would cause. -/
def accumulate (limit : Nat) (overflow : IntErrorKind) :
    Nat → List Char → Except IntErrorKind Nat
  | acc, [] => .ok acc
  | acc, c :: cs =>
      if c.isDigit then
        let next := 10 * acc + (c.toNat - '0'.toNat)
        if next ≤ limit then accumulate limit overflow next cs else .error overflow
      else .error .invalidDigit

/-- The digits behind an optional sign, of which there is at least one. -/
def parseDigits (limit : Nat) (overflow : IntErrorKind) :
    List Char → Except IntErrorKind Nat
  | [] => .error .invalidDigit
  | cs => accumulate limit overflow 0 cs

/-- {lit}`u64::from_str`. -/
def parseU64 (s : String) : Except IntErrorKind UInt64 :=
  match s.toList with
  | [] => .error .empty
  | '+' :: cs => (parseDigits (2 ^ 64 - 1) .posOverflow cs).map UInt64.ofNat
  | cs => (parseDigits (2 ^ 64 - 1) .posOverflow cs).map UInt64.ofNat

/-- {lit}`i32::from_str`. -/
def parseI32 (s : String) : Except IntErrorKind Int32 :=
  match s.toList with
  | [] => .error .empty
  | '+' :: cs => (parseDigits (2 ^ 31 - 1) .posOverflow cs).map fun n => Int32.ofInt n
  | '-' :: cs => (parseDigits (2 ^ 31) .negOverflow cs).map fun n => Int32.ofInt (-n)
  | cs => (parseDigits (2 ^ 31 - 1) .posOverflow cs).map fun n => Int32.ofInt n

/-! ## The digit loop -/

/-- Reading more digits never lowers the value. -/
theorem le_ofDigitChars (acc : Nat) (cs : List Char) : acc ≤ Nat.ofDigitChars 10 cs acc := by
  induction cs generalizing acc with
  | nil => simp
  | cons c cs ih =>
      rw [Nat.ofDigitChars_cons]
      have hrest := ih (10 * acc + (c.toNat - '0'.toNat))
      omega

/-- The loop accepts exactly the digit strings whose value is within the limit. -/
theorem accumulate_eq_ok_iff {limit acc : Nat} (overflow : IntErrorKind) (hacc : acc ≤ limit)
    (cs : List Char) (n : Nat) :
    accumulate limit overflow acc cs = .ok n ↔
      (∀ c ∈ cs, c.isDigit = true) ∧ Nat.ofDigitChars 10 cs acc = n ∧ n ≤ limit := by
  induction cs generalizing acc with
  | nil =>
      simp only [accumulate, Except.ok.injEq, List.not_mem_nil, IsEmpty.forall_iff,
        implies_true, Nat.ofDigitChars_nil, true_and]
      omega
  | cons c cs ih =>
      rw [accumulate, Nat.ofDigitChars_cons]
      by_cases hdigit : c.isDigit = true
      · by_cases hnext : 10 * acc + (c.toNat - '0'.toNat) ≤ limit
        · simp only [hdigit, if_true, if_pos hnext, ih hnext, List.mem_cons, forall_eq_or_imp,
            true_and]
        · have hgrow := le_ofDigitChars (10 * acc + (c.toNat - '0'.toNat)) cs
          simp only [hdigit, if_true, if_neg hnext, reduceCtorEq, List.mem_cons,
            forall_eq_or_imp, true_and, false_iff, not_and]
          omega
      · simp [hdigit]

theorem parseDigits_eq_ok_iff {limit : Nat} (overflow : IntErrorKind) (cs : List Char) (n : Nat) :
    parseDigits limit overflow cs = .ok n ↔
      cs ≠ [] ∧ (∀ c ∈ cs, c.isDigit = true) ∧ Nat.ofDigitChars 10 cs 0 = n ∧ n ≤ limit := by
  cases cs with
  | nil => simp [parseDigits]
  | cons c cs =>
      rw [parseDigits, accumulate_eq_ok_iff overflow (Nat.zero_le limit)]
      · simp
      · simp

/-- The decimal digits of a number within the limit parse to the number. -/
theorem parseDigits_toDigits {limit n : Nat} (overflow : IntErrorKind) (hn : n ≤ limit) :
    parseDigits limit overflow (Nat.toDigits 10 n) = .ok n := by
  rw [parseDigits_eq_ok_iff]
  exact ⟨Nat.toDigits_ne_nil,
    fun c hc => Nat.isDigit_of_mem_toDigits (by decide) (by decide) hc,
    Nat.ofDigitChars_ten_toDigits, hn⟩

/-! ## Whole texts -/

/-- Digits parsed into a machine word. -/
theorem parseDigits_toU64_iff (cs : List Char) (v : UInt64) :
    (parseDigits (2 ^ 64 - 1) .posOverflow cs).map UInt64.ofNat = .ok v ↔
      cs ≠ [] ∧ (∀ c ∈ cs, c.isDigit = true) ∧ Nat.ofDigitChars 10 cs 0 = v.toNat := by
  have hlt := v.toNat_lt
  cases hparse : parseDigits (2 ^ 64 - 1) .posOverflow cs with
  | error kind =>
      have hnot := (parseDigits_eq_ok_iff .posOverflow cs v.toNat).not.mp
        (by rw [hparse]; simp)
      simp only [Except.map, reduceCtorEq, false_iff]
      rintro ⟨hne, hdigits, hval⟩
      exact hnot ⟨hne, hdigits, hval, by omega⟩
  | ok n =>
      rcases (parseDigits_eq_ok_iff .posOverflow cs n).mp hparse with ⟨hne, hdigits, hval, hn⟩
      have hsize : n < UInt64.size := by
        change n < 2 ^ 64
        omega
      simp only [Except.map, Except.ok.injEq]
      constructor
      · rintro rfl
        exact ⟨hne, hdigits, by rw [hval, UInt64.toNat_ofNat_of_lt' hsize]⟩
      · rintro ⟨-, -, hval'⟩
        rw [← UInt64.toNat_inj, UInt64.toNat_ofNat_of_lt' hsize, ← hval', hval]

/-- The unsigned parser accepts digit strings in range, with or without a plus sign. -/
theorem parseU64_eq_ok_iff (s : String) (v : UInt64) :
    parseU64 s = .ok v ↔
      ∃ digits, (s.toList = digits ∨ s.toList = '+' :: digits) ∧ digits ≠ [] ∧
        (∀ c ∈ digits, c.isDigit = true) ∧ Nat.ofDigitChars 10 digits 0 = v.toNat := by
  unfold parseU64
  split <;> rename_i hs
  · simp only [reduceCtorEq, hs, false_iff, not_exists, not_and]
    rintro digits (rfl | hcons) hne
    · exact absurd rfl hne
    · exact absurd hcons (by simp)
  · rename_i cs
    rw [parseDigits_toU64_iff]
    constructor
    · intro h
      exact ⟨cs, Or.inr hs, h⟩
    · rintro ⟨digits, hsplit, hne, hdigits, hval⟩
      rcases hsplit with hplain | hplus
      · rw [hs] at hplain
        have hbad := hdigits '+' (by simp [← hplain])
        exact absurd hbad (by decide)
      · obtain rfl : cs = digits := by simpa [hs] using hplus
        exact ⟨hne, hdigits, hval⟩
  · rw [parseDigits_toU64_iff]
    constructor
    · intro h
      exact ⟨s.toList, Or.inl rfl, h⟩
    · rintro ⟨digits, hsplit, hne, hdigits, hval⟩
      rcases hsplit with rfl | hcons
      · exact ⟨hne, hdigits, hval⟩
      · exact absurd hcons (hs digits)

/-- Parsing undoes the decimal rendering of an unsigned number. -/
theorem parseU64_toString (v : UInt64) : parseU64 (toString v.toNat) = .ok v := by
  rw [parseU64_eq_ok_iff]
  refine ⟨Nat.toDigits 10 v.toNat, Or.inl Nat.toList_repr, Nat.toDigits_ne_nil, ?_,
    Nat.ofDigitChars_ten_toDigits⟩
  exact fun c hc => Nat.isDigit_of_mem_toDigits (by decide) (by decide) hc

/-- Parsing undoes the decimal rendering of a signed number. -/
theorem parseI32_toString (i : Int32) : parseI32 (toString i.toInt) = .ok i := by
  have hlow := i.le_toInt
  have hhigh := i.toInt_lt
  have hback := Int32.ofInt_toInt i
  cases hi : i.toInt with
  | ofNat n =>
      rw [hi] at hhigh hback
      have hn : n < 2 ^ 31 := by
        have hcast : ((n : Nat) : Int) < 2 ^ 31 := hhigh
        omega
      have hlist : (toString (Int.ofNat n)).toList = Nat.toDigits 10 n := Nat.toList_repr
      have hdigits : ∀ c ∈ Nat.toDigits 10 n, c.isDigit = true :=
        fun c hc => Nat.isDigit_of_mem_toDigits (by decide) (by decide) hc
      have hvalue : parseDigits (2 ^ 31 - 1) .posOverflow (Nat.toDigits 10 n) = .ok n :=
        parseDigits_toDigits _ (by omega)
      unfold parseI32
      rw [hlist]
      split <;> rename_i hs
      · exact absurd hs Nat.toDigits_ne_nil
      · exact absurd (hdigits '+' (by simp [hs])) (by decide)
      · exact absurd (hdigits '-' (by simp [hs])) (by decide)
      · rw [hvalue]
        exact congrArg Except.ok hback
  | negSucc n =>
      rw [hi] at hlow hback
      have hn : n + 1 ≤ 2 ^ 31 := by
        have hcast : -2 ^ 31 ≤ Int.negSucc n := hlow
        omega
      have hlist : (toString (Int.negSucc n)).toList = '-' :: Nat.toDigits 10 (n + 1) := by
        have hrepr : toString (Int.negSucc n) = "-" ++ (n + 1).repr := rfl
        rw [hrepr, String.toList_append, Nat.toList_repr]
        rfl
      have hvalue : parseDigits (2 ^ 31) .negOverflow (Nat.toDigits 10 (n + 1)) = .ok (n + 1) :=
        parseDigits_toDigits _ hn
      unfold parseI32
      rw [hlist]
      simp only [hvalue]
      exact congrArg Except.ok hback

end Decimal
end OomHero
