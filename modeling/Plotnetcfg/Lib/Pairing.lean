import Plotnetcfg.Lib.Matching
import Mathlib.Order.Basic
import Mathlib.Algebra.Order.Ring.Int
import Mathlib.Data.List.Perm.Basic

/-! Elements that are paired in turn, each with the target it names or with its best partner, and
what makes the pairs the same for every order of the turns. -/

namespace Pairing

open Matching (Symmetric)

variable {A : Type*} {p q p₀ : A → Option A}

theorem ext_pairs (h : ∀ a b, p a = some b ↔ q a = some b) : p = q := by
  funext a
  apply Option.ext
  intro b
  exact h a b

/-! ## Named targets -/

/-- To pair `e` with its target takes no partner away. -/
structure Free (p : A → Option A) (target : A → Option A) (e : A) : Prop where
  self : p e = none ∨ p e = target e
  other : ∀ x, target e = some x → p x = none ∨ p x = some e

/-- Who is paired after the turns of `done`, in each of which no partner is taken away. -/
def Named (target : A → Option A) (done : List A) (p : A → Option A) : Prop :=
  ∀ a b, p a = some b ↔ a ∈ done ∧ target a = some b ∨ b ∈ done ∧ target b = some a

section
variable {target : A → Option A} {done : List A} {e : A}

theorem named_nil : Named target [] (fun _ : A => none) := by
  intro a b
  simp

theorem Named.symmetric (h : Named target done p) : Symmetric p := by
  intro a b hab
  rw [h] at hab ⊢
  exact hab.symm

theorem Named.turn [DecidableEq A] (h : Named target done p) (hfree : Free p target e) :
    Named target (done ++ [e]) (Matching.rematch p (some e) (target e)) := by
  intro a b
  rw [h.symmetric.rematch_free hfree.self hfree.other, h]
  simp only [List.mem_append, List.mem_singleton]
  constructor
  · rintro ((⟨ha, hab⟩ | ⟨hb, hba⟩) | ⟨rfl, hab⟩ | ⟨rfl, hba⟩)
    · exact .inl ⟨.inl ha, hab⟩
    · exact .inr ⟨.inl hb, hba⟩
    · exact .inl ⟨.inr rfl, hab⟩
    · exact .inr ⟨.inr rfl, hba⟩
  · rintro (⟨ha | rfl, hab⟩ | ⟨hb | rfl, hba⟩)
    · exact .inl (.inl ⟨ha, hab⟩)
    · exact .inr (.inl ⟨rfl, hab⟩)
    · exact .inl (.inr ⟨hb, hba⟩)
    · exact .inr (.inr ⟨rfl, hba⟩)

theorem Named.skip (h : Named target done p) (he : target e = none) :
    Named target (done ++ [e]) p := by
  have hmem : ∀ a b, a ∈ done ++ [e] ∧ target a = some b ↔ a ∈ done ∧ target a = some b := by
    intro a b
    rw [List.mem_append, List.mem_singleton]
    constructor
    · rintro ⟨ha | rfl, hab⟩
      · exact ⟨ha, hab⟩
      · rw [he] at hab
        cases hab
    · exact fun hab => ⟨.inl hab.1, hab.2⟩
  intro a b
  rw [h, hmem, hmem]

/-- The order of the turns does not matter. -/
theorem Named.unique {target' : A → Option A} {done' : List A} (h : Named target done p)
    (h' : Named target' done' q) (hmem : ∀ e, e ∈ done ↔ e ∈ done')
    (htarget : ∀ e ∈ done', target' e = target e) : p = q := by
  apply ext_pairs
  intro a b
  have hpair : ∀ a b, a ∈ done' ∧ target' a = some b ↔ a ∈ done ∧ target a = some b := by
    intro a b
    rw [hmem]
    exact and_congr_right fun ha => by rw [htarget a ha]
  rw [h, h', hpair, hpair]

end

/-! ## Best partners -/

structure Pairable (s : A → Prop) (weight : A → A → Int) (p : A → Option A) (a b : A) : Prop where
  left : s a
  right : s b
  ne : a ≠ b
  leftFree : p a = none
  rightFree : p b = none
  pos : 0 < weight a b

structure Best (s : A → Prop) (weight : A → A → Int) (p : A → Option A) (a b : A) : Prop where
  pairable : Pairable s weight p a b
  lt : ∀ c, Pairable s weight p a c → c ≠ b → weight a c < weight a b

/-- What is assumed of the weights: pairs are mutual, and weigh 1 or 2; two that may be paired
with one element may be paired with the same elements. -/
structure Weights (weight : A → A → Int) : Prop where
  symm : ∀ a b, weight a b = weight b a
  le_two : ∀ a b, weight a b ≤ 2
  alike : ∀ a b c d, 0 < weight a b → 0 < weight a c → 0 < weight b d → 0 < weight c d

section
variable {s : A → Prop} {weight : A → A → Int} {done : List A}

theorem Pairable.symm (hw : Weights weight) {a b : A} (h : Pairable s weight p a b) :
    Pairable s weight p b a :=
  ⟨h.right, h.left, h.ne.symm, h.rightFree, h.leftFree, hw.symm a b ▸ h.pos⟩

theorem Best.unique {a b c : A} (h : Best s weight p a b) (h' : Best s weight p a c) : b = c := by
  by_contra hne
  exact lt_asymm (h.lt c h'.pairable (Ne.symm hne)) (h'.lt b h.pairable hne)

/-- When `e` is the best of `z`, but not `z` that of `e`, then the best of `e` has no other
partner than `e`. -/
theorem Best.only (hw : Weights weight) {e x z y : A} (hex : Best s weight p e x)
    (hze : Best s weight p z e) (hne : z ≠ x) (hxy : Pairable s weight p x y) : y = e := by
  have hlight : weight z e < 2 := by
    rw [hw.symm z e]
    exact (hex.lt z (hze.pairable.symm hw) hne).trans_le (hw.le_two e x)
  have hze_pos := hze.pairable.pos
  -- any other partner of `z` would weigh less than 1
  have honly : ∀ c, Pairable s weight p z c → c = e := by
    intro c hc
    by_contra hce
    have hlt := hze.lt c hc hce
    have hpos := hc.pos
    omega
  have hez : 0 < weight e z := hw.symm e z ▸ hze_pos
  have hzy : 0 < weight z y := hw.alike e x z y hex.pairable.pos hez hxy.pos
  by_cases hyz : z = y
  · subst hyz
    have hx := honly x (hxy.symm hw)
    exact absurd hx hex.pairable.ne.symm
  · exact honly y ⟨hze.pairable.left, hxy.right, hyz, hze.pairable.leftFree, hxy.rightFree, hzy⟩

/-- The turns of `done` have paired elements with their best partners in `p₀`, where these were
not paired already. -/
structure PairedUpTo (s : A → Prop) (weight : A → A → Int) (p₀ : A → Option A) (done : List A)
    (p : A → Option A) : Prop where
  symmetric : Symmetric p
  kept : ∀ a b, p₀ a = some b → p a = some b
  made : ∀ a b, p a = some b → p₀ a = some b ∨ Best s weight p₀ a b ∨ Best s weight p₀ b a
  turn : ∀ e ∈ done, ∀ x, Best s weight p₀ e x → (p e).isSome

theorem pairedUpTo_nil (h : Symmetric p₀) : PairedUpTo s weight p₀ [] p₀ :=
  ⟨h, fun _ _ => id, fun _ _ => .inl, nofun⟩

theorem PairedUpTo.skip {e : A} (h : PairedUpTo s weight p₀ done p)
    (he : ∀ x, Best s weight p₀ e x → (p e).isSome) : PairedUpTo s weight p₀ (done ++ [e]) p := by
  refine ⟨h.symmetric, h.kept, h.made, fun a ha x hx => ?_⟩
  rcases List.mem_append.mp ha with ha | ha
  · exact h.turn a ha x hx
  · obtain rfl := List.mem_singleton.mp ha
    exact he x hx

theorem PairedUpTo.pair [DecidableEq A] {e x : A} (h : PairedUpTo s weight p₀ done p)
    (he : p e = none) (hx : p x = none) (hbest : Best s weight p₀ e x) :
    PairedUpTo s weight p₀ (done ++ [e]) (Matching.rematch p (some e) (some x)) := by
  have hfree : ∀ y, some x = some y → p y = none ∨ p y = some e := by
    intro y hy
    obtain rfl := Option.some.inj hy
    exact .inl hx
  have hiff := h.symmetric.rematch_free (.inl he) hfree
  have hgrow : ∀ a, (p a).isSome → (Matching.rematch p (some e) (some x) a).isSome := by
    intro a ha
    obtain ⟨b, hb⟩ := Option.isSome_iff_exists.mp ha
    exact Option.isSome_iff_exists.mpr ⟨b, (hiff a b).mpr (.inl hb)⟩
  refine ⟨h.symmetric.rematch _ _, fun a b hab => ?_, fun a b hab => ?_, fun a ha y hy => ?_⟩
  · exact (hiff a b).mpr (.inl (h.kept a b hab))
  · rcases (hiff a b).mp hab with hab | ⟨rfl, hb⟩ | ⟨rfl, ha⟩
    · exact h.made a b hab
    · obtain rfl := Option.some.inj hb
      exact .inr (.inl hbest)
    · obtain rfl := Option.some.inj ha
      exact .inr (.inr hbest)
  · rcases List.mem_append.mp ha with ha | ha
    · exact hgrow a (h.turn a ha y hy)
    · obtain rfl := List.mem_singleton.mp ha
      exact Option.isSome_iff_exists.mpr ⟨x, (hiff a x).mpr (.inr (.inl ⟨rfl, rfl⟩))⟩

theorem PairedUpTo.of_best (hw : Weights weight) (h : PairedUpTo s weight p₀ done p)
    (hall : ∀ a, s a → a ∈ done) {e x : A} (hex : Best s weight p₀ e x) : p e = some x := by
  obtain ⟨z, hz⟩ := Option.isSome_iff_exists.mp (h.turn e (hall e hex.pairable.left) x hex)
  rcases h.made e z hz with hold | hez | hze
  · rw [hex.pairable.leftFree] at hold
    cases hold
  · rwa [hex.unique hez]
  · by_cases hzx : z = x
    · rwa [hzx] at hz
    · -- `x` had its turn too, and no one but `e` for it
      have hxe : Pairable s weight p₀ x e := hex.pairable.symm hw
      have honly : ∀ y, Pairable s weight p₀ x y → y = e := fun y hy => hex.only hw hze hzx hy
      have hbest : Best s weight p₀ x e :=
        ⟨hxe, fun y hy hne => absurd (honly y hy) hne⟩
      have hturn := h.turn x (hall x hex.pairable.right) e hbest
      obtain ⟨y, hy⟩ := Option.isSome_iff_exists.mp hturn
      have hye : y = e := by
        rcases h.made x y hy with hold | hxy | hyx
        · rw [hxe.leftFree] at hold
          cases hold
        · exact honly y hxy.pairable
        · exact honly y (hyx.pairable.symm hw)
      rw [hye] at hy
      exact h.symmetric x e hy

theorem PairedUpTo.iff (hw : Weights weight) (h : PairedUpTo s weight p₀ done p)
    (hall : ∀ a, s a → a ∈ done) (a b : A) :
    p a = some b ↔ p₀ a = some b ∨ Best s weight p₀ a b ∨ Best s weight p₀ b a := by
  constructor
  · exact h.made a b
  · rintro (hab | hab | hba)
    · exact h.kept a b hab
    · exact h.of_best hw hall hab
    · exact h.symmetric b a (h.of_best hw hall hba)

/-- The order of the turns does not matter. -/
theorem PairedUpTo.unique {done' : List A} (hw : Weights weight)
    (h : PairedUpTo s weight p₀ done p) (h' : PairedUpTo s weight p₀ done' q)
    (hall : ∀ a, s a → a ∈ done) (hall' : ∀ a, s a → a ∈ done') : p = q := by
  apply ext_pairs
  intro a b
  rw [h.iff hw hall, h'.iff hw hall']

end

end Pairing
