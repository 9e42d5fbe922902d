import Mathlib.Logic.Function.Basic
import Mathlib.Tactic.SplitIfs

/-! Symmetric partial matchings: every element has at most one partner, whose partner it is.
An element may be its own partner. -/

namespace Matching

variable {A : Type*}

def Symmetric (p : A → Option A) : Prop := ∀ a b, p a = some b → p b = some a

theorem symmetric_empty : Symmetric (fun _ : A => none) := nofun

section
variable [DecidableEq A]

/-- The partner of `x` once `first` and `second` are separated from their partners and paired
with each other; either may be missing, which leaves the other one alone. -/
def rematch (p : A → Option A) (first second : Option A) (x : A) : Option A :=
  if first = some x then second
  else if second = some x then first
  else match p x with
    | none => none
    | some y => if first = some y ∨ second = some y then none else some y

theorem Symmetric.rematch {p : A → Option A} (hp : Symmetric p) (first second : Option A) :
    Symmetric (rematch p first second) := by
  intro a b hab
  unfold Matching.rematch at hab ⊢
  by_cases hfa : first = some a
  · rw [if_pos hfa] at hab
    by_cases hfb : first = some b
    · rw [if_pos hfb, hab, ← hfb, hfa]
    · rw [if_neg hfb, if_pos hab, hfa]
  · rw [if_neg hfa] at hab
    by_cases hsa : second = some a
    · rw [if_pos hsa] at hab
      rw [if_pos hab, hsa]
    · rw [if_neg hsa] at hab
      cases hpa : p a with
      | none => simp [hpa] at hab
      | some y =>
        simp only [hpa] at hab
        split_ifs at hab with hy
        obtain rfl := Option.some.inj hab
        rw [not_or] at hy
        have hpy := hp a y hpa
        have hno : ¬ (first = some a ∨ second = some a) := by
          rw [not_or]
          exact ⟨hfa, hsa⟩
        simp only [if_neg hy.1, if_neg hy.2, hpy, if_neg hno]

theorem rematch_first (p : A → Option A) (first : A) (second : Option A) :
    Matching.rematch p (some first) second first = second := if_pos rfl

theorem rematch_second {p : A → Option A} {first second : A} (hne : second ≠ first) :
    Matching.rematch p (some first) (some second) second = some first := by
  unfold Matching.rematch
  rw [if_neg fun h => hne (Option.some.inj h).symm, if_pos rfl]

theorem rematch_others {p : A → Option A} {first second a b : A} (ha : a ≠ first)
    (ha' : a ≠ second) (hb : b ≠ first) (hb' : b ≠ second) :
    Matching.rematch p (some first) (some second) a = some b ↔ p a = some b := by
  unfold Matching.rematch
  rw [if_neg fun h => ha (Option.some.inj h).symm, if_neg fun h => ha' (Option.some.inj h).symm]
  cases hp : p a with
  | none => rfl
  | some c =>
    dsimp only
    constructor
    · intro h
      split_ifs at h
      exact h
    · intro h
      obtain rfl := Option.some.inj h
      rw [if_neg]
      rintro (heq | heq)
      · exact hb (Option.some.inj heq).symm
      · exact hb' (Option.some.inj heq).symm

theorem rematch_cases {p : A → Option A} {e a b : A} {target : Option A}
    (h : Matching.rematch p (some e) target a = some b) :
    p a = some b ∨ a = e ∧ target = some b ∨ target = some a ∧ b = e := by
  unfold Matching.rematch at h
  split_ifs at h with hfirst hsecond
  · exact .inr (.inl ⟨(Option.some.inj hfirst).symm, h⟩)
  · exact .inr (.inr ⟨hsecond, (Option.some.inj h).symm⟩)
  · cases hp : p a with
    | none => simp [hp] at h
    | some y =>
      simp only [hp] at h
      split_ifs at h
      exact .inl h

/-- Pairing two that nothing else is paired with takes no partner away. -/
theorem Symmetric.rematch_free {p : A → Option A} (hp : Symmetric p) {e : A} {target : Option A}
    (he : p e = none ∨ p e = target)
    (ht : ∀ x, target = some x → p x = none ∨ p x = some e) (a b : A) :
    Matching.rematch p (some e) target a = some b ↔
      p a = some b ∨ a = e ∧ target = some b ∨ b = e ∧ target = some a := by
  have hab := hp a b
  have hae := hp a e
  have hea := hp e a
  unfold Matching.rematch
  cases htarget : target with
  | none =>
    have hnone : p e = none := by simpa [htarget] using he
    cases h : p a <;> grind
  | some x =>
    have hx := ht x htarget
    have hax := hp a x
    have hxa := hp x a
    rw [htarget] at he
    cases h : p a <;> grind

/-- The pointer writes of one side: the old partner of `a` forgets it, then `a` gets `b`. -/
def write (p : A → Option A) (a : A) (b : Option A) : A → Option A :=
  let q := match p a with
    | some old => Function.update p old none
    | none => p
  Function.update q a b

theorem write_apply (p : A → Option A) (a : A) (b : Option A) (x : A) :
    write p a b x = if x = a then b else if p a = some x then none else p x := by
  unfold write
  cases p a with
  | none => simp [Function.update_apply]
  | some old => simp [Function.update_apply, eq_comm]

theorem rematch_none (p : A → Option A) : Matching.rematch p none none = p := by
  funext x
  unfold Matching.rematch
  cases p x <;> simp

theorem Symmetric.write_none_left {p : A → Option A} (hp : Symmetric p) (f : A) :
    write p f none = Matching.rematch p (some f) none := by
  funext x
  have hx := hp x f
  have hf := hp f x
  rw [write_apply]
  unfold Matching.rematch
  cases h : p x <;> grind

theorem Symmetric.write_none_right {p : A → Option A} (hp : Symmetric p) (s : A) :
    write p s none = Matching.rematch p none (some s) := by
  funext x
  have hx := hp x s
  have hf := hp s x
  rw [write_apply]
  unfold Matching.rematch
  cases h : p x <;> grind

/-- Writing one side after the other pairs the two, also when they are one element or each
other's partner. -/
theorem Symmetric.write_write {p : A → Option A} (hp : Symmetric p) (f s : A) :
    write (write p f (some s)) s (some f) = Matching.rematch p (some f) (some s) := by
  funext x
  have hxf := hp x f
  have hfx := hp f x
  have hxs := hp x s
  have hsx := hp s x
  have hfs := hp f s
  simp only [write_apply]
  unfold Matching.rematch
  cases h : p x <;> grind

end

end Matching
