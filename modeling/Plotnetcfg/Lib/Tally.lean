import Mathlib.Data.List.Count
import Mathlib.Data.List.Perm.Subperm
import Mathlib.Algebra.Order.Ring.Int
import Mathlib.Tactic.SplitIfs

/-! One pass over a list that keeps the first of the heaviest elements and counts them. What
weighs nothing is passed over. -/

structure Tally (A : Type*) where
  found : Option A := none
  best : Int := 0
  count : Int := 0

namespace Tally

variable {A : Type*}

def add (weight : A → Int) (t : Tally A) (x : A) : Tally A :=
  if t.best < weight x then ⟨some x, weight x, 1⟩
  else if weight x = t.best then { t with count := t.count + 1 }
  else t

def scan (weight : A → Int) (t : Tally A) (l : List A) : Tally A := l.foldl (add weight) t

def winner (t : Tally A) : Option A := if 0 < t.best then t.found else none

def Tied (t : Tally A) : Prop := 0 < t.best ∧ 1 < t.count

instance (t : Tally A) : Decidable t.Tied := inferInstanceAs (Decidable (_ ∧ _))

def choice (t : Tally A) : Option A := if t.Tied then none else t.winner

variable {weight : A → Int}

theorem scan_append (t : Tally A) (l l' : List A) :
    scan weight t (l ++ l') = scan weight (scan weight t l) l' := List.foldl_append

structure Counts (weight : A → Int) (l : List A) (t : Tally A) : Prop where
  nonneg : 0 ≤ t.best
  le_best : ∀ x ∈ l, weight x ≤ t.best
  found : 0 < t.best → l.find? (weight · = t.best) = t.found
  count : 0 < t.best → (l.countP (weight · = t.best) : Int) = t.count
  isSome : 0 < t.best → t.found.isSome

theorem counts_nil : Counts weight [] {} := ⟨le_refl 0, nofun, nofun, nofun, nofun⟩

theorem Counts.heavier {l : List A} {t : Tally A} (h : Counts weight l t) {x : A}
    (hx : t.best < weight x) : Counts weight (l ++ [x]) ⟨some x, weight x, 1⟩ := by
  have hless : ∀ y ∈ l, weight y < weight x := fun y hy => (h.le_best y hy).trans_lt hx
  have hne : ∀ y ∈ l, ¬ weight y = weight x := fun y hy => (hless y hy).ne
  refine ⟨h.nonneg.trans hx.le, fun y hy => ?_, fun _ => ?_, fun _ => ?_, fun _ => rfl⟩
  · rcases List.mem_append.mp hy with hy | hy
    · exact (hless y hy).le
    · rw [List.mem_singleton.mp hy]
  · rw [List.find?_append, List.find?_eq_none.mpr (by simpa using hne)]
    simp
  · have hzero : l.countP (weight · = weight x) = 0 := List.countP_eq_zero.mpr (by simpa using hne)
    rw [List.countP_append, hzero]
    simp

theorem Counts.equal {l : List A} {t : Tally A} (h : Counts weight l t) {x : A}
    (hx : weight x = t.best) : Counts weight (l ++ [x]) { t with count := t.count + 1 } := by
  refine ⟨h.nonneg, fun y hy => ?_, fun hpos => ?_, fun hpos => ?_, h.isSome⟩
  · rcases List.mem_append.mp hy with hy | hy
    · exact h.le_best y hy
    · rw [List.mem_singleton.mp hy, hx]
  · have hsome := h.isSome hpos
    rw [← h.found hpos] at hsome
    rw [List.find?_append, Option.or_of_isSome hsome]
    exact h.found hpos
  · rw [List.countP_append, Nat.cast_add, h.count hpos]
    simp [hx]

theorem Counts.lighter {l : List A} {t : Tally A} (h : Counts weight l t) {x : A}
    (hx : weight x < t.best) : Counts weight (l ++ [x]) t := by
  refine ⟨h.nonneg, fun y hy => ?_, fun hpos => ?_, fun hpos => ?_, h.isSome⟩
  · rcases List.mem_append.mp hy with hy | hy
    · exact h.le_best y hy
    · rw [List.mem_singleton.mp hy]
      exact hx.le
  · rw [List.find?_append, h.found hpos]
    simp [hx.ne]
  · rw [List.countP_append, Nat.cast_add, h.count hpos]
    simp [hx.ne]

theorem Counts.add {l : List A} {t : Tally A} (h : Counts weight l t) (x : A) :
    Counts weight (l ++ [x]) (t.add weight x) := by
  unfold Tally.add
  split_ifs with hlt heq
  · exact h.heavier hlt
  · exact h.equal heq
  · exact h.lighter (lt_of_le_of_ne (not_lt.mp hlt) heq)

theorem Counts.scan {pre : List A} {t : Tally A} (h : Counts weight pre t) (l : List A) :
    Counts weight (pre ++ l) (Tally.scan weight t l) := by
  induction l generalizing pre t with
  | nil =>
    rw [List.append_nil]
    exact h
  | cons x l ih =>
    rw [List.append_cons]
    exact ih (h.add x)

theorem scanned (weight : A → Int) (l : List A) : Counts weight l (scan weight {} l) :=
  counts_nil.scan l

section
variable {l : List A}

theorem winner_some {x : A} (h : (scan weight {} l).winner = some x) :
    x ∈ l ∧ 0 < weight x ∧ ∀ y ∈ l, weight y ≤ weight x := by
  have hs := scanned weight l
  unfold winner at h
  split_ifs at h with hpos
  rw [← hs.found hpos] at h
  have hx : weight x = (scan weight {} l).best := by simpa using List.find?_some h
  exact ⟨List.mem_of_find?_eq_some h, hx ▸ hpos, fun y hy => hx ▸ hs.le_best y hy⟩

theorem winner_none : (scan weight {} l).winner = none ↔ ∀ x ∈ l, weight x ≤ 0 := by
  have hs := scanned weight l
  unfold winner
  by_cases hpos : 0 < (scan weight {} l).best
  · rw [if_pos hpos]
    obtain ⟨x, hx⟩ := Option.isSome_iff_exists.mp (hs.isSome hpos)
    have hwin : (scan weight {} l).winner = some x := by rw [winner, if_pos hpos, hx]
    obtain ⟨hmem, hxpos, -⟩ := winner_some hwin
    refine iff_of_false (by simp [hx]) fun h => ?_
    exact absurd (h x hmem) (not_le.mpr hxpos)
  · rw [if_neg hpos]
    refine iff_of_true rfl fun x hx => ?_
    exact (hs.le_best x hx).trans (not_lt.mp hpos)

theorem not_tied_of_none (h : ∀ x ∈ l, weight x ≤ 0) : ¬ (scan weight {} l).Tied := by
  rintro ⟨hpos, -⟩
  have hs := scanned weight l
  obtain ⟨x, hx⟩ := Option.isSome_iff_exists.mp (hs.isSome hpos)
  have hwin : (scan weight {} l).winner = some x := by rw [winner, if_pos hpos, hx]
  rw [winner_none.mpr h] at hwin
  cases hwin

theorem best_eq {x : A} (hx : x ∈ l) (hpos : 0 < weight x) (hle : ∀ y ∈ l, weight y ≤ weight x) :
    (scan weight {} l).best = weight x := by
  have hs := scanned weight l
  have hbest : 0 < (scan weight {} l).best := hpos.trans_le (hs.le_best x hx)
  have hfound := hs.found hbest
  obtain ⟨y, hy⟩ := Option.isSome_iff_exists.mp (hs.isSome hbest)
  rw [hy] at hfound
  have hyw : weight y = (scan weight {} l).best := by simpa using List.find?_some hfound
  have hyx := hle y (List.mem_of_find?_eq_some hfound)
  exact le_antisymm (hyw ▸ hyx) (hs.le_best x hx)

/-- With heaviest elements the winner is the first of them. -/
theorem winner_eq_find? {x : A} (hx : x ∈ l) (hpos : 0 < weight x)
    (hle : ∀ y ∈ l, weight y ≤ weight x) :
    (scan weight {} l).winner = l.find? (weight · = weight x) := by
  have hbest := best_eq hx hpos hle
  have hpos' : 0 < (scan weight {} l).best := hbest ▸ hpos
  rw [winner, if_pos hpos', ← (scanned weight l).found hpos', hbest]

theorem tied_iff {x : A} (hx : x ∈ l) (hpos : 0 < weight x)
    (hle : ∀ y ∈ l, weight y ≤ weight x) :
    (scan weight {} l).Tied ↔ 1 < l.countP (weight · = weight x) := by
  have hbest := best_eq hx hpos hle
  have hpos' : 0 < (scan weight {} l).best := hbest ▸ hpos
  unfold Tied
  rw [← (scanned weight l).count hpos', hbest]
  simp [hpos]

theorem winner_unique (hl : l.Nodup) {x : A} (hx : x ∈ l) (hpos : 0 < weight x)
    (hlt : ∀ y ∈ l, y ≠ x → weight y < weight x) :
    (scan weight {} l).winner = some x ∧ ¬ (scan weight {} l).Tied := by
  have hle : ∀ y ∈ l, weight y ≤ weight x := by
    intro y hy
    by_cases hyx : y = x
    · rw [hyx]
    · exact (hlt y hy hyx).le
  have honly : ∀ y ∈ l, weight y = weight x → y = x := by
    intro y hy hyw
    by_contra hne
    exact absurd hyw (hlt y hy hne).ne
  constructor
  · obtain ⟨y, hy⟩ : ∃ y, l.find? (weight · = weight x) = some y := by
      apply Option.isSome_iff_exists.mp
      rw [List.find?_isSome]
      exact ⟨x, hx, by simp⟩
    have hyw : weight y = weight x := by simpa using List.find?_some hy
    rw [winner_eq_find? hx hpos hle, hy, honly y (List.mem_of_find?_eq_some hy) hyw]
  · rw [tied_iff hx hpos hle, not_lt, List.countP_eq_length_filter]
    have hsub : ∀ y ∈ l.filter (weight · = weight x), y ∈ [x] := by
      intro y hy
      obtain ⟨hmem, hyw⟩ := List.mem_filter.mp hy
      exact List.mem_singleton.mpr (honly y hmem (by simpa using hyw))
    exact (List.subperm_of_subset (hl.filter _) hsub).length_le

theorem choice_eq_some (hl : l.Nodup) {x : A} : (scan weight {} l).choice = some x ↔
    x ∈ l ∧ 0 < weight x ∧ ∀ y ∈ l, y ≠ x → weight y < weight x := by
  unfold choice
  constructor
  · intro h
    split_ifs at h with htied
    obtain ⟨hx, hpos, hle⟩ := winner_some h
    refine ⟨hx, hpos, fun y hy hyx => lt_of_le_of_ne (hle y hy) fun hyw => htied ?_⟩
    -- two that weigh the most
    rw [tied_iff hx hpos hle, List.countP_eq_length_filter]
    have hpair : [x, y].Nodup := by simp [Ne.symm hyx]
    have hsub : [x, y] ⊆ l.filter (weight · = weight x) := by
      intro z hz
      rcases List.mem_pair.mp hz with rfl | rfl
      · exact List.mem_filter.mpr ⟨hx, by simp⟩
      · exact List.mem_filter.mpr ⟨hy, by simp [hyw]⟩
    exact (List.subperm_of_subset hpair hsub).length_le
  · rintro ⟨hx, hpos, hlt⟩
    obtain ⟨hwin, htied⟩ := winner_unique hl hx hpos hlt
    rw [if_neg htied, hwin]

end

/-! ## The first of the heaviest elements -/

/-- `x` weighs something; what precedes it is lighter, and nothing behind it is heavier. -/
def FirstBest (weight : A → Int) (l : List A) (x : A) : Prop :=
  0 < weight x ∧ ∃ pre post, l = pre ++ x :: post ∧ (∀ y ∈ pre, weight y < weight x) ∧
    ∀ y ∈ post, weight y ≤ weight x

/-- Two elements, one behind the other, that weigh something and as much as any. -/
def SeveralBest (weight : A → Int) (l : List A) : Prop :=
  ∃ x y, [x, y].Sublist l ∧ 0 < weight x ∧ weight y = weight x ∧ ∀ z ∈ l, weight z ≤ weight x

section
variable {l : List A}

theorem FirstBest.le {x y : A} (h : FirstBest weight l x) (hy : y ∈ l) : weight y ≤ weight x := by
  obtain ⟨-, pre, post, rfl, hpre, hpost⟩ := h
  rcases List.mem_append.mp hy with hy | hy
  · exact (hpre y hy).le
  · rcases List.mem_cons.mp hy with rfl | hy
    · exact le_rfl
    · exact hpost y hy

theorem FirstBest.mem {x : A} (h : FirstBest weight l x) : x ∈ l := by
  obtain ⟨-, pre, post, rfl, -, -⟩ := h
  exact List.mem_append_right pre List.mem_cons_self

theorem FirstBest.find {x : A} (h : FirstBest weight l x) :
    l.find? (weight · = weight x) = some x := by
  obtain ⟨-, pre, post, rfl, hpre, -⟩ := h
  have hne : ∀ y ∈ pre, ¬ weight y = weight x := fun y hy => (hpre y hy).ne
  rw [List.find?_append, List.find?_eq_none.mpr (by simpa using hne)]
  simp

theorem winner_eq_some {x : A} :
    (scan weight {} l).winner = some x ↔ FirstBest weight l x := by
  constructor
  · intro h
    obtain ⟨hmem, hpos, hle⟩ := winner_some h
    rw [winner_eq_find? hmem hpos hle] at h
    obtain ⟨-, pre, post, hsplit, hpre⟩ := List.find?_eq_some_iff_append.mp h
    refine ⟨hpos, pre, post, hsplit, fun y hy => ?_, fun y hy => ?_⟩
    · have hyl : y ∈ l := hsplit ▸ List.mem_append_left _ hy
      exact lt_of_le_of_ne (hle y hyl) (by simpa using hpre y hy)
    · exact hle y (hsplit ▸ List.mem_append_right pre (List.mem_cons_of_mem x hy))
  · intro h
    rw [winner_eq_find? h.mem h.1 fun y hy => h.le hy]
    exact h.find

theorem tied_iff_severalBest : (scan weight {} l).Tied ↔ SeveralBest weight l := by
  constructor
  · intro htied
    obtain ⟨x, hx⟩ : ∃ x, (scan weight {} l).winner = some x := by
      rw [winner, if_pos htied.1]
      exact Option.isSome_iff_exists.mp ((scanned weight l).isSome htied.1)
    obtain ⟨hmem, hpos, hle⟩ := winner_some hx
    rw [tied_iff hmem hpos hle, List.countP_eq_length_filter] at htied
    have hsub : (l.filter (weight · = weight x)).Sublist l := List.filter_sublist
    have hall : ∀ y ∈ l.filter (weight · = weight x), weight y = weight x := by
      intro y hy
      simpa using (List.mem_filter.mp hy).2
    match hf : l.filter (weight · = weight x) with
    | [] => simp [hf] at htied
    | [_] => simp [hf] at htied
    | y :: z :: rest =>
      rw [hf] at hsub hall
      have hpair : [y, z].Sublist (y :: z :: rest) := ((List.nil_sublist rest).cons_cons z).cons_cons y
      have hyw := hall y List.mem_cons_self
      have hzw := hall z (List.mem_cons_of_mem y List.mem_cons_self)
      exact ⟨y, z, hpair.trans hsub, hyw ▸ hpos, hzw.trans hyw.symm, hyw ▸ hle⟩
  · rintro ⟨x, y, hsub, hpos, hyw, hle⟩
    have hmem : x ∈ l := hsub.subset List.mem_cons_self
    rw [tied_iff hmem hpos hle]
    have hcount := hsub.countP_le (p := fun z => decide (weight z = weight x))
    have htwo : [x, y].countP (weight · = weight x) = 2 := by simp [hyw]
    omega

end

/-! ## A pass that a negative weight ends -/

/-- With `leave` the pass also ends at the first element that is heavier than what was found. -/
def pass (leave : Bool) (weight : A → Int) : Tally A → List A → Except Int (Tally A)
  | t, [] => .ok t
  | t, x :: l =>
    if weight x < 0 then .error (-weight x)
    else if leave ∧ t.best < weight x then .ok (t.add weight x)
    else pass leave weight (t.add weight x) l

theorem pass_append (weight : A → Int) (t : Tally A) (l l' : List A) :
    pass false weight t (l ++ l') =
      (pass false weight t l).bind fun t' => pass false weight t' l' := by
  induction l generalizing t with
  | nil => rfl
  | cons x l ih =>
    rw [List.cons_append, pass, pass]
    simp only [Bool.false_eq_true, false_and, if_false]
    split_ifs
    · rfl
    · exact ih _

theorem pass_nonneg {l : List A} (h : ∀ x ∈ l, 0 ≤ weight x) (t : Tally A) :
    pass false weight t l = .ok (scan weight t l) := by
  induction l generalizing t with
  | nil => rfl
  | cons x l ih =>
    rw [pass, if_neg (not_lt.mpr (h x List.mem_cons_self)), if_neg (by simp)]
    exact ih (fun y hy => h y (List.mem_cons_of_mem x hy)) _

theorem pass_negative {pre post : List A} {x : A} (hpre : ∀ y ∈ pre, 0 ≤ weight y)
    (hx : weight x < 0) (t : Tally A) :
    pass false weight t (pre ++ x :: post) = .error (-weight x) := by
  rw [pass_append, pass_nonneg hpre]
  show pass false weight _ (x :: post) = _
  rw [pass, if_pos hx]

/-! ## Passes one after the other, each left at the first heavier element -/

def passes (leave : Bool) (weight : A → Int) (t : Tally A) (ls : List (List A)) :
    Except Int (Tally A) := ls.foldlM (pass leave weight) t

theorem passes_cons {leave : Bool} {t t' : Tally A} {l : List A} {ls : List (List A)}
    (h : pass leave weight t l = .ok t') :
    passes leave weight t (l :: ls) = passes leave weight t' ls := by
  unfold passes
  rw [List.foldlM_cons, h]
  rfl

theorem passes_append {leave : Bool} {t t' : Tally A} {ls ls' : List (List A)}
    (h : passes leave weight t ls = .ok t') :
    passes leave weight t (ls ++ ls') = passes leave weight t' ls' := by
  unfold passes at *
  rw [List.foldlM_append, h]
  rfl

theorem passes_flatten (weight : A → Int) (t : Tally A) (ls : List (List A)) :
    passes false weight t ls = pass false weight t ls.flatten := by
  induction ls generalizing t with
  | nil => rfl
  | cons l ls ih =>
    rw [List.flatten_cons, pass_append]
    unfold passes
    rw [List.foldlM_cons]
    cases hl : pass false weight t l with
    | error e => rfl
    | ok t' => exact ih t'

/-- A later tally: something heavier was found, or more that is as heavy. -/
def Grows (t t' : Tally A) : Prop :=
  t.best < t'.best ∨ t'.found = t.found ∧ t'.best = t.best ∧ t.count ≤ t'.count

theorem Grows.trans {t t' t'' : Tally A} (h : Grows t t') (h' : Grows t' t'') : Grows t t'' := by
  unfold Grows at *
  rcases h with h | ⟨hfound, hbest, hcount⟩
  · left
    rcases h' with h' | ⟨-, hbest', -⟩
    · exact h.trans h'
    · exact hbest' ▸ h
  · rcases h' with h' | ⟨hfound', hbest', hcount'⟩
    · exact .inl (hbest ▸ h')
    · exact .inr ⟨hfound'.trans hfound, hbest'.trans hbest, hcount.trans hcount'⟩

def Held (weight : A → Int) (t : Tally A) : Prop := ∀ x, t.found = some x → weight x = t.best

structure Adds (weight : A → Int) (t : Tally A) (l : List A) (t' : Tally A) : Prop where
  grows : Grows t t'
  held : Held weight t → Held weight t'
  rival : ∀ y ∈ l, t.best ≤ weight y → t.best < t'.best ∨ t.count < t'.count

theorem adds_nil (t : Tally A) : Adds weight t [] t :=
  ⟨.inr ⟨rfl, rfl, le_rfl⟩, id, nofun⟩

theorem Adds.append {t t' t'' : Tally A} {l l' : List A} (h : Adds weight t l t')
    (h' : Adds weight t' l' t'') : Adds weight t (l ++ l') t'' := by
  refine ⟨h.grows.trans h'.grows, h'.held ∘ h.held, fun y hy hle => ?_⟩
  have hgrows := h.grows
  have hgrows' := h'.grows
  have hrival := h.rival y
  have hrival' := h'.rival y
  unfold Grows at hgrows hgrows'
  rcases List.mem_append.mp hy with hy | hy
  · have hone := hrival hy hle
    omega
  · by_cases hle' : t'.best ≤ weight y
    · have hone := hrival' hy hle'
      omega
    · left
      omega

theorem adds_add (t : Tally A) (x : A) : Adds weight t [x] (t.add weight x) := by
  unfold add
  split_ifs with hlt heq
  · refine ⟨.inl hlt, fun _ y hy => ?_, fun y _ _ => .inl hlt⟩
    obtain rfl := Option.some.inj hy
    rfl
  · refine ⟨.inr ⟨rfl, rfl, by simp⟩, id, fun y _ _ => .inr (by simp)⟩
  · refine ⟨.inr ⟨rfl, rfl, le_rfl⟩, id, fun y hy hle => ?_⟩
    obtain rfl := List.mem_singleton.mp hy
    omega

theorem pass_adds {l : List A} (h : ∀ x ∈ l, 0 ≤ weight x) (t : Tally A) :
    ∃ t', pass true weight t l = .ok t' ∧ Adds weight t l t' := by
  induction l generalizing t with
  | nil => exact ⟨t, rfl, adds_nil t⟩
  | cons x l ih =>
    have hx : ¬ weight x < 0 := not_lt.mpr (h x List.mem_cons_self)
    have hadd : Adds weight t [x] (t.add weight x) := adds_add t x
    by_cases hlt : t.best < weight x
    · refine ⟨t.add weight x, by rw [pass, if_neg hx, if_pos ⟨rfl, hlt⟩], hadd.grows, hadd.held, ?_⟩
      intro y _ _
      left
      rw [add, if_pos hlt]
      exact hlt
    · obtain ⟨t', hrun, hadds⟩ := ih (fun y hy => h y (List.mem_cons_of_mem x hy)) (t.add weight x)
      refine ⟨t', ?_, hadd.append hadds⟩
      rw [pass, if_neg hx, if_neg fun hand => hlt hand.2]
      exact hrun

theorem passes_adds {ls : List (List A)} (h : ∀ l ∈ ls, ∀ x ∈ l, 0 ≤ weight x) (t : Tally A) :
    ∃ t', passes true weight t ls = .ok t' ∧ Adds weight t ls.flatten t' := by
  induction ls generalizing t with
  | nil => exact ⟨t, rfl, adds_nil t⟩
  | cons l ls ih =>
    obtain ⟨t₁, hrun, hadds⟩ := pass_adds (h l List.mem_cons_self) t
    obtain ⟨t₂, hrun', hadds'⟩ := ih (fun l' hl' => h l' (List.mem_cons_of_mem l hl')) t₁
    exact ⟨t₂, (passes_cons hrun).trans hrun', hadds.append hadds'⟩

theorem pass_lighter {t : Tally A} {l : List A}
    (h : ∀ x ∈ l, 0 ≤ weight x ∧ weight x < t.best) : pass true weight t l = .ok t := by
  induction l with
  | nil => rfl
  | cons x l ih =>
    obtain ⟨hpos, hlt⟩ := h x List.mem_cons_self
    have hadd : t.add weight x = t := by rw [add, if_neg hlt.not_gt, if_neg hlt.ne]
    rw [pass, if_neg hpos.not_gt, if_neg fun hand => hlt.not_gt hand.2, hadd]
    exact ih fun y hy => h y (List.mem_cons_of_mem x hy)

theorem passes_lighter {t : Tally A} {ls : List (List A)}
    (h : ∀ l ∈ ls, ∀ x ∈ l, 0 ≤ weight x ∧ weight x < t.best) :
    passes true weight t ls = .ok t := by
  induction ls with
  | nil => rfl
  | cons l ls ih =>
    rw [passes_cons (pass_lighter (h l List.mem_cons_self))]
    exact ih fun l' hl' => h l' (List.mem_cons_of_mem l hl')

theorem pass_light {t : Tally A} {l : List A} (h : ∀ x ∈ l, 0 ≤ weight x ∧ weight x ≤ t.best) :
    ∃ count, pass true weight t l = .ok { t with count := count } := by
  induction l generalizing t with
  | nil => exact ⟨t.count, rfl⟩
  | cons x l ih =>
    obtain ⟨hpos, hle⟩ := h x List.mem_cons_self
    have hadd : ∃ count, t.add weight x = { t with count := count } := by
      rw [add, if_neg hle.not_gt]
      split_ifs
      · exact ⟨t.count + 1, rfl⟩
      · exact ⟨t.count, rfl⟩
    obtain ⟨count, hadd⟩ := hadd
    have hrest : ∀ y ∈ l, 0 ≤ weight y ∧ weight y ≤ ({ t with count := count } : Tally A).best :=
      fun y hy => h y (List.mem_cons_of_mem x hy)
    rw [pass, if_neg hpos.not_gt, if_neg fun hand => hle.not_gt hand.2, hadd]
    exact ih hrest

theorem passes_light {t : Tally A} {ls : List (List A)}
    (h : ∀ l ∈ ls, ∀ x ∈ l, 0 ≤ weight x ∧ weight x ≤ t.best) :
    ∃ count, passes true weight t ls = .ok { t with count := count } := by
  induction ls generalizing t with
  | nil => exact ⟨t.count, rfl⟩
  | cons l ls ih =>
    obtain ⟨count, hrun⟩ := pass_light (h l List.mem_cons_self)
    rw [passes_cons hrun]
    exact ih fun l' hl' => h l' (List.mem_cons_of_mem l hl')

theorem passes_weightless {t : Tally A} (ht : t.best = 0) {ls : List (List A)}
    (h : ∀ l ∈ ls, ∀ x ∈ l, weight x = 0) :
    ∃ count, passes true weight t ls = .ok { t with count := count } :=
  passes_light fun l hl x hx => ⟨(h l hl x hx).ge, (h l hl x hx).trans_le ht.ge⟩

theorem pass_first {t : Tally A} (ht : t.best = 0) {pre post : List A} {x : A}
    (hpre : ∀ y ∈ pre, weight y = 0) (hx : 0 < weight x) :
    pass true weight t (pre ++ x :: post) = .ok ⟨some x, weight x, 1⟩ := by
  induction pre generalizing t with
  | nil =>
    rw [List.nil_append, pass, if_neg hx.not_gt, if_pos ⟨rfl, ht ▸ hx⟩, add, if_pos (ht ▸ hx)]
  | cons y pre ih =>
    have hy := hpre y List.mem_cons_self
    have hadd : t.add weight y = { t with count := t.count + 1 } := by
      rw [add, if_neg (by omega), if_pos (hy.trans ht.symm)]
    rw [List.cons_append, pass, if_neg (by omega), if_neg fun hand => by omega, hadd]
    exact ih ht fun z hz => hpre z (List.mem_cons_of_mem y hz)

/-- The first element that weighs something is in `l`, in front of the lists `post`. -/
structure FirstIn (weight : A → Int) (ls : List (List A)) (x : A) (post : List (List A)) :
    Prop where
  pos : 0 < weight x
  split : ∃ pre l, ls = pre ++ l :: post ∧ (∀ l' ∈ pre, ∀ y ∈ l', weight y = 0) ∧
    ∃ before after, l = before ++ x :: after ∧ ∀ y ∈ before, weight y = 0

theorem FirstIn.find {ls post : List (List A)} {x : A} (h : FirstIn weight ls x post) :
    ls.flatten.find? (0 < weight ·) = some x := by
  obtain ⟨hpos, pre, l, rfl, hpre, before, after, rfl, hbefore⟩ := h
  have hzero : ∀ y ∈ pre.flatten ++ before, ¬ 0 < weight y := by
    intro y hy
    rcases List.mem_append.mp hy with hy | hy
    · obtain ⟨l', hl', hy⟩ := List.mem_flatten.mp hy
      exact (hpre l' hl' y hy).not_gt
    · exact (hbefore y hy).not_gt
  rw [List.flatten_append, List.flatten_cons, List.append_assoc, ← List.append_assoc,
    List.find?_append, List.find?_eq_none.mpr (by simpa using hzero)]
  simp [hpos]

theorem FirstIn.nonneg {ls post : List (List A)} {x : A} (h : FirstIn weight ls x post)
    (hls : ∀ l ∈ ls, ∀ y ∈ l, 0 ≤ weight y) : ∀ l ∈ post, ∀ y ∈ l, 0 ≤ weight y := by
  obtain ⟨-, pre, l, rfl, -⟩ := h
  exact fun l' hl' => hls l' (List.mem_append_right pre (List.mem_cons_of_mem l hl'))

theorem FirstIn.passes {ls post : List (List A)} {x : A} (h : FirstIn weight ls x post) :
    passes true weight {} ls = Tally.passes true weight ⟨some x, weight x, 1⟩ post := by
  obtain ⟨hpos, pre, l, rfl, hpre, before, after, rfl, hbefore⟩ := h
  have hbest : ({} : Tally A).best = 0 := rfl
  obtain ⟨count, hrun⟩ := passes_weightless hbest hpre
  have hhere : pass true weight { count := count } (before ++ x :: after) =
      .ok ⟨some x, weight x, 1⟩ := pass_first rfl hbefore hpos
  rw [passes_append hrun, passes_cons hhere]

theorem exists_firstIn {ls : List (List A)} (h : ∀ l ∈ ls, ∀ x ∈ l, 0 ≤ weight x) :
    (∀ l ∈ ls, ∀ x ∈ l, weight x = 0) ∨ ∃ x post, FirstIn weight ls x post := by
  induction ls with
  | nil => exact .inl nofun
  | cons l ls ih =>
    have hl := h l List.mem_cons_self
    cases hfind : l.find? (0 < weight ·) with
    | some x =>
      right
      obtain ⟨hx, before, after, hsplit, hbefore⟩ := List.find?_eq_some_iff_append.mp hfind
      refine ⟨x, ls, by simpa using hx, [], l, rfl, nofun, before, after, hsplit, fun y hy => ?_⟩
      have hnot := hbefore y hy
      have hpos := hl y (hsplit ▸ List.mem_append_left _ hy)
      simp only [Bool.not_eq_true', decide_eq_false_iff_not] at hnot
      omega
    | none =>
      have hzero : ∀ x ∈ l, weight x = 0 := by
        intro x hx
        have hnot := List.find?_eq_none.mp hfind x hx
        have hpos := hl x hx
        simp only [decide_eq_true_eq] at hnot
        omega
      rcases ih fun l' hl' => h l' (List.mem_cons_of_mem l hl') with
        hall | ⟨x, post, hpos, pre, l', hsplit, hpre, hin⟩
      · exact .inl (List.forall_mem_cons.mpr ⟨hzero, hall⟩)
      · right
        refine ⟨x, post, hpos, l :: pre, l', by rw [hsplit]; rfl, ?_, hin⟩
        exact List.forall_mem_cons.mpr ⟨hzero, hpre⟩

/-- Passes over several lists end with the first element that weighs something, and with it only,
exactly when all elements of the lists behind its own are lighter. -/
theorem passes_first {ls : List (List A)} (h : ∀ l ∈ ls, ∀ x ∈ l, 0 ≤ weight x) :
    ∃ t, passes true weight {} ls = .ok t ∧
      (t.winner = ls.flatten.find? (0 < weight ·) ∧ ¬ t.Tied ↔
        ∀ x post, FirstIn weight ls x post → ∀ l ∈ post, ∀ y ∈ l, weight y < weight x) := by
  obtain ⟨t, hrun, -⟩ := passes_adds h {}
  refine ⟨t, hrun, ?_⟩
  constructor
  · rintro ⟨hwin, htied⟩ x post hfirst l hl y hy
    rw [hfirst.find] at hwin
    rw [hfirst.passes] at hrun
    obtain ⟨t', hrest, hadds⟩ := passes_adds (hfirst.nonneg h) ⟨some x, weight x, 1⟩
    obtain rfl : t = t' := Except.ok.inj (hrun.symm.trans hrest)
    have hheld : Held weight t := hadds.held fun z hz => by rw [Option.some.inj hz]
    have hpos := hfirst.pos
    by_contra hheavy
    have hrival := hadds.rival y (List.mem_flatten_of_mem hl hy) (not_lt.mp hheavy)
    have hgrows := hadds.grows
    unfold winner at hwin
    split_ifs at hwin with hbest
    have hx := hheld x hwin
    unfold Grows at hgrows
    unfold Tied at htied
    dsimp only at hrival hgrows
    omega
  · intro hlight
    rcases exists_firstIn h with hzero | ⟨x, post, hfirst⟩
    · have hbest : ({} : Tally A).best = 0 := rfl
      obtain ⟨count, hcounted⟩ := passes_weightless hbest hzero
      obtain rfl := Except.ok.inj (hrun.symm.trans hcounted)
      have hnone : ∀ y ∈ ls.flatten, ¬ 0 < weight y := by
        intro y hy
        obtain ⟨l, hl, hy⟩ := List.mem_flatten.mp hy
        exact (hzero l hl y hy).not_gt
      rw [List.find?_eq_none.mpr (by simpa using hnone)]
      exact ⟨rfl, fun htied => absurd htied.1 (lt_irrefl 0)⟩
    · have hpos := hfirst.pos
      have hkept : passes true weight ⟨some x, weight x, 1⟩ post = .ok ⟨some x, weight x, 1⟩ :=
        passes_lighter fun l hl y hy =>
          ⟨hfirst.nonneg h l hl y hy, hlight x post hfirst l hl y hy⟩
      rw [hfirst.passes, hkept] at hrun
      obtain rfl := Except.ok.inj hrun
      rw [hfirst.find, winner, if_pos hpos]
      exact ⟨rfl, fun htied => absurd htied.2 (lt_irrefl 1)⟩

/-- Where nothing is heavier than 1, the first element that weighs something stays the winner. -/
theorem passes_find {ls : List (List A)} (h : ∀ l ∈ ls, ∀ x ∈ l, 0 ≤ weight x ∧ weight x ≤ 1) :
    ∃ t, passes true weight {} ls = .ok t ∧ t.winner = ls.flatten.find? (0 < weight ·) := by
  have hnonneg : ∀ l ∈ ls, ∀ x ∈ l, 0 ≤ weight x := fun l hl x hx => (h l hl x hx).1
  rcases exists_firstIn hnonneg with hzero | ⟨x, post, hfirst⟩
  · have hbest : ({} : Tally A).best = 0 := rfl
    obtain ⟨count, hcounted⟩ := passes_weightless hbest hzero
    have hnone : ∀ y ∈ ls.flatten, ¬ 0 < weight y := by
      intro y hy
      obtain ⟨l, hl, hy⟩ := List.mem_flatten.mp hy
      exact (hzero l hl y hy).not_gt
    rw [List.find?_eq_none.mpr (by simpa using hnone)]
    exact ⟨_, hcounted, rfl⟩
  · have hpos := hfirst.pos
    have hlight : ∀ l ∈ post, ∀ y ∈ l,
        0 ≤ weight y ∧ weight y ≤ (⟨some x, weight x, 1⟩ : Tally A).best := by
      intro l hl y hy
      obtain ⟨-, pre, l', rfl, -⟩ := hfirst
      have hy := h l (List.mem_append_right pre (List.mem_cons_of_mem l' hl)) y hy
      exact ⟨hy.1, hy.2.trans hpos⟩
    obtain ⟨count, hrest⟩ := passes_light hlight
    refine ⟨_, hfirst.passes.trans hrest, ?_⟩
    rw [hfirst.find, winner, if_pos hpos]

end Tally
