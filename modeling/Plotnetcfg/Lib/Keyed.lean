import Mathlib.Data.List.Perm.Basic
import Mathlib.Data.List.Nodup
import Mathlib.Tactic.SplitIfs

/-! Elements kept in one list for each of several distinct keys, and taken together. -/

namespace Keyed

variable {A B : Type*} [DecidableEq A] {l : List A} {n : A}

/-- An element appended at one of the keys joins the whole once. -/
theorem flatMap_append_perm (f : A → List B) (hl : l.Nodup) (hn : n ∈ l) (b : B) :
    (l.flatMap fun x => if x = n then f x ++ [b] else f x).Perm (b :: l.flatMap f) := by
  induction l with
  | nil => simp at hn
  | cons a l ih =>
    obtain ⟨ha, hl⟩ := List.nodup_cons.mp hl
    rw [List.flatMap_cons, List.flatMap_cons]
    by_cases han : a = n
    · subst han
      have htail : (l.flatMap fun x => if x = a then f x ++ [b] else f x) = l.flatMap f := by
        refine List.flatMap_congr fun x hx => if_neg ?_
        rintro rfl
        exact ha hx
      rw [if_pos rfl, htail, List.append_assoc]
      exact List.perm_middle
    · rw [if_neg han]
      have hmem : n ∈ l := (List.mem_cons.mp hn).resolve_left (Ne.symm han)
      exact ((ih hl hmem).append_left (f a)).trans List.perm_middle

theorem filter_flatMap {f : A → List B} {key : B → A} (hl : l.Nodup)
    (hkey : ∀ a ∈ l, ∀ b ∈ f a, key b = a) (hn : n ∈ l) :
    ((l.flatMap f).filter fun b => key b = n) = f n := by
  induction l with
  | nil => simp at hn
  | cons a l ih =>
    obtain ⟨ha, hl⟩ := List.nodup_cons.mp hl
    have hrest : ∀ c ∈ l, ∀ b ∈ f c, key b = c := fun c hc => hkey c (List.mem_cons_of_mem a hc)
    rw [List.flatMap_cons, List.filter_append]
    by_cases han : a = n
    · subst han
      have hfirst : ((f a).filter fun b => key b = a) = f a := by
        apply List.filter_eq_self.mpr
        intro b hb
        exact decide_eq_true (hkey a List.mem_cons_self b hb)
      have hothers : ((l.flatMap f).filter fun b => key b = a) = [] := by
        apply List.filter_eq_nil_iff.mpr
        intro b hb
        obtain ⟨c, hc, hbc⟩ := List.mem_flatMap.mp hb
        rw [hrest c hc b hbc, decide_eq_true_eq]
        rintro rfl
        exact ha hc
      rw [hfirst, hothers, List.append_nil]
    · have hfirst : ((f a).filter fun b => key b = n) = [] := by
        apply List.filter_eq_nil_iff.mpr
        intro b hb
        rw [hkey a List.mem_cons_self b hb, decide_eq_true_eq]
        exact han
      rw [hfirst, List.nil_append]
      exact ih hl hrest ((List.mem_cons.mp hn).resolve_left (Ne.symm han))

theorem modify_findIdx {K : Type*} [BEq K] [LawfulBEq K] {key : B → K} {l : List B}
    (hl : (l.map key).Nodup) {k : K} {i : Nat} (hi : l.findIdx? (key · == k) = some i)
    (f : B → B) : l.modify i f = l.map fun b => if key b == k then f b else b := by
  obtain ⟨hlt, hkey, -⟩ := List.findIdx?_eq_some_iff_getElem.mp hi
  have hkey := eq_of_beq hkey
  apply List.ext_getElem
  · rw [List.length_modify, List.length_map]
  · intro j hj hj'
    have hjl : j < l.length := by rwa [List.length_modify] at hj
    rw [List.getElem_modify, List.getElem_map]
    by_cases hij : i = j
    · subst hij
      rw [if_pos rfl, if_pos (beq_iff_eq.mpr hkey)]
    · have hne : ¬ key l[j] == k := by
        intro hjk
        have hjk := (eq_of_beq hjk).trans hkey.symm
        have hjm : j < (l.map key).length := by rwa [List.length_map]
        have him : i < (l.map key).length := by rwa [List.length_map]
        have hget : (l.map key)[j] = (l.map key)[i] := by rwa [List.getElem_map, List.getElem_map]
        exact hij (hl.getElem_inj_iff.mp hget).symm
      rw [if_neg hij, if_neg hne]

theorem find?_perm {p : B → Bool} {l l' : List B} (hperm : l.Perm l')
    (hone : ∀ x ∈ l, ∀ y ∈ l, p x → p y → x = y) : l'.find? p = l.find? p := by
  cases hx : l.find? p with
  | none =>
    rw [List.find?_eq_none] at hx ⊢
    exact fun y hy => hx y (hperm.mem_iff.mpr hy)
  | some x =>
    have hxl := List.mem_of_find?_eq_some hx
    have hpx := List.find?_some hx
    obtain ⟨y, hy⟩ : ∃ y, l'.find? p = some y := by
      apply Option.isSome_iff_exists.mp
      rw [List.find?_isSome]
      exact ⟨x, hperm.mem_iff.mp hxl, hpx⟩
    have hyl := hperm.mem_iff.mpr (List.mem_of_find?_eq_some hy)
    rw [hy, hone x hxl y hyl hpx (List.find?_some hy)]

omit [DecidableEq A] in
theorem split_unique {f : A → List B} {l p q p' q' : List A} {a a' : A} {b : B}
    (hl : (l.flatMap f).Nodup) (hsplit : l = p ++ a :: q) (hsplit' : l = p' ++ a' :: q')
    (hb : b ∈ f a) (hb' : b ∈ f a') : p = p' ∧ a = a' ∧ q = q' := by
  induction p generalizing l p' with
  | nil =>
    subst hsplit
    cases p' with
    | nil =>
      obtain ⟨rfl, rfl⟩ := List.cons.inj hsplit'
      exact ⟨rfl, rfl, rfl⟩
    | cons c p' =>
      obtain ⟨rfl, rfl⟩ := List.cons.inj hsplit'
      rw [List.nil_append, List.flatMap_cons] at hl
      have hmem : b ∈ (p' ++ a' :: q').flatMap f :=
        List.mem_flatMap.mpr ⟨a', List.mem_append_right p' List.mem_cons_self, hb'⟩
      exact absurd rfl ((List.nodup_append.mp hl).2.2 b hb b hmem)
  | cons c p ih =>
    subst hsplit
    rw [List.cons_append, List.flatMap_cons] at hl
    cases p' with
    | nil =>
      obtain ⟨rfl, -⟩ := List.cons.inj hsplit'
      have hmem : b ∈ (p ++ a :: q).flatMap f :=
        List.mem_flatMap.mpr ⟨a, List.mem_append_right p List.mem_cons_self, hb⟩
      exact absurd rfl ((List.nodup_append.mp hl).2.2 b hb' b hmem)
    | cons c' p' =>
      obtain ⟨rfl, hrest⟩ := List.cons.inj hsplit'
      obtain ⟨rfl, ha, hq⟩ := ih (List.nodup_append.mp hl).2.1 rfl hrest
      exact ⟨rfl, ha, hq⟩

end Keyed
