import Mathlib.Data.Nat.Digits.Lemmas
import Mathlib.Data.List.TakeWhile
import Mathlib.Data.PNat.Defs
import Mathlib.Data.PNat.Notation
import Mathlib.Tactic.IntervalCases

/-! C strings as the bytes before their terminating NUL, and the few functions of the C
library that the program applies to them. -/

namespace Plotnetcfg

abbrev CStr := List UInt8

def cstr (s : String) : CStr := s.toUTF8.data.toList

abbrev Errno := ℕ+

def ENOENT : Errno := 2
def EINTR : Errno := 4
def EAGAIN : Errno := 11
def ENOMEM : Errno := 12
def EINVAL : Errno := 22
def EPIPE : Errno := 32
def ERANGE : Errno := 34
def ETIME : Errno := 62
def EAFNOSUPPORT : Errno := 97

/-- The C string in a buffer: the bytes up to the first NUL. -/
def untilNul (buf : List UInt8) : CStr := buf.takeWhile (· != 0)

/-- `snprintf` keeps one byte of the buffer for the NUL. -/
def fits (size : Nat) (s : CStr) : CStr := s.take (size - 1)

/-- `%u`. -/
def decimal (n : Nat) : CStr :=
  if n = 0 then [48] else (Nat.digits 10 n).reverse.map fun d => UInt8.ofNat (48 + d)

/-- `%d`. -/
def decimalInt (i : Int) : CStr :=
  if i < 0 then 45 :: decimal i.natAbs else decimal i.natAbs

/-- `%s` of a string or of a null pointer. -/
def printStr (s : Option CStr) : CStr := s.getD (cstr "(null)")

def isDigit (c : UInt8) : Bool := 48 ≤ c && c ≤ 57

def isSpace (c : UInt8) : Bool := c == 32 || (9 ≤ c && c ≤ 13)

def LONG_MAX : Int := 2 ^ 63 - 1
def LONG_MIN : Int := -2 ^ 63

def digitsValue (s : CStr) : Nat := s.foldl (fun a d => 10 * a + (d.toNat - 48)) 0

def signOf : CStr → Bool × CStr
  | 45 :: s => (true, s)
  | 43 :: s => (false, s)
  | s => (false, s)

/-- `strtol(s, &endptr, 10)`: the value and the rest `endptr` points to. -/
def strtol (s : CStr) : Int × CStr :=
  let (neg, t) := signOf (s.dropWhile isSpace)
  let v : Int := digitsValue (t.takeWhile isDigit)
  if t.takeWhile isDigit = [] then (0, s)
  else (if neg then max (-v) LONG_MIN else min v LONG_MAX, t.dropWhile isDigit)

/-- `atoi`, which is `strtol` cut to an `int`. -/
def atoi (s : CStr) : Int := Int.bmod (strtol s).1 (2 ^ 32)

/-- `strrchr(s, c)` followed by writing a NUL there: the part before the last `c`. -/
def beforeLast (c : UInt8) (s : CStr) : Option CStr :=
  if c ∈ s then some ((s.reverse.dropWhile (· != c)).tail.reverse) else none

theorem isDigit_ofNat {d : Nat} (hd : d < 10) : isDigit (UInt8.ofNat (48 + d)) = true := by
  interval_cases d <;> rfl

theorem decimal_isDigit (n : Nat) : ∀ c ∈ decimal n, isDigit c = true := by
  unfold decimal
  split_ifs
  · simp [isDigit]
  · intro c hc
    simp only [List.mem_map, List.mem_reverse] at hc
    obtain ⟨d, hd, rfl⟩ := hc
    exact isDigit_ofNat (Nat.digits_lt_base (by decide) hd)

theorem decimal_ne_nil (n : Nat) : decimal n ≠ [] := by
  unfold decimal
  split_ifs with h
  · simp
  · simpa using Nat.digits_ne_nil_iff_ne_zero.mpr h

theorem length_decimal_le {n k : Nat} (hk : 0 < k) (h : n < 10 ^ k) : (decimal n).length ≤ k := by
  rw [decimal]
  split
  · exact hk
  · rw [List.length_map, List.length_reverse]
    exact (Nat.digits_length_le_iff (by decide) n).mpr h

theorem digitsValue_concat (s : CStr) (c : UInt8) :
    digitsValue (s ++ [c]) = 10 * digitsValue s + (c.toNat - 48) := by
  simp [digitsValue]

theorem digitsValue_reverse_map (ds : List Nat) (hds : ∀ d ∈ ds, d < 10) :
    digitsValue (ds.reverse.map fun d => UInt8.ofNat (48 + d)) = Nat.ofDigits 10 ds := by
  induction ds with
  | nil => rfl
  | cons d ds ih =>
    have hd := hds d (by simp)
    have hb : (UInt8.ofNat (48 + d)).toNat - 48 = d := by
      interval_cases d <;> rfl
    rw [List.reverse_cons, List.map_append, List.map_singleton, digitsValue_concat,
      ih fun x hx => hds x (by simp [hx]), hb, Nat.ofDigits_cons]
    omega

theorem digitsValue_decimal (n : Nat) : digitsValue (decimal n) = n := by
  unfold decimal
  split_ifs with h
  · simp [digitsValue, h]
  · rw [digitsValue_reverse_map _ fun d hd => Nat.digits_lt_base (by decide) hd,
      Nat.ofDigits_digits]

theorem decimal_injective : Function.Injective decimal := fun m n h => by
  rw [← digitsValue_decimal m, h, digitsValue_decimal]

theorem strtol_decimal (n : Nat) (hn : (n : Int) ≤ LONG_MAX) : strtol (decimal n) = ((n : Int), ([] : CStr)) := by
  have hall := decimal_isDigit n
  have hspace : (decimal n).dropWhile isSpace = decimal n := by
    cases hd : decimal n with
    | nil => rfl
    | cons c cs =>
      have hc := hall c (by simp [hd])
      refine List.dropWhile_cons_of_neg ?_
      simp only [isDigit, isSpace, Bool.and_eq_true, decide_eq_true_eq, UInt8.le_iff_toNat_le,
        Bool.or_eq_true, beq_iff_eq, ← UInt8.toNat_inj] at hc ⊢
      simp at hc ⊢
      omega
  have hsign : signOf (decimal n) = (false, decimal n) := by
    cases hd : decimal n with
    | nil => rfl
    | cons c cs =>
      have hc := hall c (by simp [hd])
      unfold signOf
      split <;> simp_all [isDigit]
  have htake : (decimal n).takeWhile isDigit = decimal n := List.takeWhile_eq_self_iff.mpr hall
  have hdrop : (decimal n).dropWhile isDigit = [] := List.dropWhile_eq_nil_iff.mpr hall
  simp only [strtol, hspace, hsign, htake, hdrop, decimal_ne_nil, if_false, digitsValue_decimal,
    Bool.false_eq_true]
  simp [hn]

theorem beforeLast_concat (c : UInt8) (s : CStr) : beforeLast c (s ++ [c]) = some s := by
  simp [beforeLast]

end Plotnetcfg
