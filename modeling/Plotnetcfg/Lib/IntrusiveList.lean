import Mathlib.Data.List.Chain
import Mathlib.Data.List.Nodup
import Mathlib.Data.List.Perm.Basic
import Mathlib.Logic.Function.Basic

/-! Intrusive doubly linked lists over an arbitrary address type. A list lives
between two sentinel cells, its head and its tail, so insertion and removal have
no corner cases. Every operation is given as the sequence of pointer writes it
performs; `none` stands for the dereference of a null pointer. -/

namespace IntrusiveList

@[ext]
structure Node (A : Type*) where
  next : Option A
  prev : Option A

abbrev Heap (A : Type*) := A → Node A

variable {A : Type*}

/-- The nodes met from `n` along `next`, up to the cell whose own `next` is null. -/
def forward (h : Heap A) : Nat → A → Option (List A)
  | 0, _ => none
  | fuel + 1, n =>
    match (h n).next with
    | none => some []
    | some m => (forward h fuel m).map (n :: ·)

def backward (h : Heap A) : Nat → A → Option (List A)
  | 0, _ => none
  | fuel + 1, n =>
    match (h n).prev with
    | none => some []
    | some m => (backward h fuel m).map (n :: ·)

def Adj (h : Heap A) (a b : A) : Prop := (h a).next = some b ∧ (h b).prev = some a

def cells (hd tl : A) (xs : List A) : List A := hd :: (xs ++ [tl])

structure IsList (h : Heap A) (hd tl : A) (xs : List A) : Prop where
  linked : (cells hd tl xs).IsChain (Adj h)
  nodup : (cells hd tl xs).Nodup
  head_prev : (h hd).prev = none
  tail_next : (h tl).next = none

theorem forward_chain {h : Heap A} {tl : A} (htl : (h tl).next = none) (xs : List A) (n : A)
    (hc : (n :: xs ++ [tl]).IsChain (Adj h)) (fuel : Nat) (hf : xs.length + 1 < fuel) :
    forward h fuel n = some (n :: xs) := by
  induction xs generalizing n fuel with
  | nil =>
    obtain ⟨hn, -⟩ := List.isChain_pair.mp hc
    obtain ⟨k, rfl⟩ : ∃ k, fuel = k + 2 := ⟨fuel - 2, by simp at hf; omega⟩
    simp [forward, hn, htl]
  | cons x xs ih =>
    obtain ⟨k, rfl⟩ : ∃ k, fuel = k + 1 := ⟨fuel - 1, by omega⟩
    simp only [List.cons_append, List.isChain_cons_cons] at hc
    have hx := ih x (by simpa using hc.2) k (by simp at hf; omega)
    simp [forward, hc.1.1, hx]

theorem backward_chain {h : Heap A} {hd : A} (hhd : (h hd).prev = none) (xs : List A) (n : A)
    (hc : (n :: xs ++ [hd]).IsChain fun a b => Adj h b a) (fuel : Nat)
    (hf : xs.length + 1 < fuel) : backward h fuel n = some (n :: xs) := by
  induction xs generalizing n fuel with
  | nil =>
    obtain ⟨-, hn⟩ := List.isChain_pair.mp hc
    obtain ⟨k, rfl⟩ : ∃ k, fuel = k + 2 := ⟨fuel - 2, by simp at hf; omega⟩
    simp [backward, hn, hhd]
  | cons x xs ih =>
    obtain ⟨k, rfl⟩ : ∃ k, fuel = k + 1 := ⟨fuel - 1, by omega⟩
    simp only [List.cons_append, List.isChain_cons_cons] at hc
    have hx := ih x (by simpa using hc.2) k (by simp at hf; omega)
    simp [backward, hc.1.2, hx]

theorem IsList.forward {h : Heap A} {hd tl : A} {xs : List A} (hl : IsList h hd tl xs)
    (fuel : Nat) (hf : xs.length < fuel) :
    ((h hd).next.bind fun n => forward h fuel n) = some xs := by
  have hc := hl.linked
  cases xs with
  | nil =>
    obtain ⟨hn, -⟩ := List.isChain_pair.mp hc
    obtain ⟨k, rfl⟩ : ∃ k, fuel = k + 1 := ⟨fuel - 1, by omega⟩
    simp [hn, IntrusiveList.forward, hl.tail_next]
  | cons x xs =>
    simp only [cells, List.cons_append, List.isChain_cons_cons] at hc
    simpa [hc.1.1] using
      forward_chain hl.tail_next xs x (by simpa using hc.2) fuel (by simpa using hf)

theorem IsList.backward {h : Heap A} {hd tl : A} {xs : List A} (hl : IsList h hd tl xs)
    (fuel : Nat) (hf : xs.length < fuel) :
    ((h tl).prev.bind fun n => backward h fuel n) = some xs.reverse := by
  have hc : (tl :: xs.reverse ++ [hd]).IsChain fun a b => Adj h b a := by
    have := List.isChain_reverse.mpr hl.linked
    simpa [cells] using this
  have hlen : xs.reverse.length < fuel := by simpa using hf
  generalize xs.reverse = ys at hc hlen ⊢
  cases ys with
  | nil =>
    obtain ⟨-, hn⟩ := List.isChain_pair.mp hc
    obtain ⟨k, rfl⟩ : ∃ k, fuel = k + 1 := ⟨fuel - 1, by omega⟩
    simp [hn, IntrusiveList.backward, hl.head_prev]
  | cons y ys =>
    simp only [List.cons_append, List.isChain_cons_cons] at hc
    simpa [hc.1.2] using
      backward_chain hl.head_prev ys y (by simpa using hc.2) fuel (by simpa using hlen)

/-- A chain is untouched by writes that leave the `next` of all but its last cell
and the `prev` of all but its first cell alone. -/
theorem isChain_adj_congr {h h' : Heap A} {a : A} {l : List A} (hl : (a :: l).IsChain (Adj h))
    (hnext : ∀ x ∈ (a :: l).dropLast, (h' x).next = (h x).next)
    (hprev : ∀ x ∈ l, (h' x).prev = (h x).prev) : (a :: l).IsChain (Adj h') := by
  induction l generalizing a with
  | nil => exact .singleton _
  | cons b l ih =>
    rw [List.isChain_cons_cons] at hl ⊢
    refine ⟨⟨?_, ?_⟩, ih hl.2 ?_ ?_⟩
    · rw [hnext a (by simp), hl.1.1]
    · rw [hprev b (by simp), hl.1.2]
    · intro x hx
      exact hnext x (by simpa [List.dropLast] using Or.inr hx)
    · intro x hx
      exact hprev x (by simp [hx])

theorem IsList.frame {h h' : Heap A} {hd tl : A} {xs : List A} (hl : IsList h hd tl xs)
    (heq : ∀ x ∈ cells hd tl xs, h' x = h x) : IsList h' hd tl xs where
  linked := hl.linked.imp_of_mem_imp fun x y hx hy hxy => by
    rw [Adj, heq x hx, heq y hy]
    exact hxy
  nodup := hl.nodup
  head_prev := by rw [heq hd (by simp [cells]), hl.head_prev]
  tail_next := by rw [heq tl (by simp [cells]), hl.tail_next]

/-- Rewriting only `next` of `a`, `prev` of `b` and a node outside the list keeps the
two sides of the joint between `a` and `b` in order. -/
theorem sides_congr {h h' : Heap A} {hd tl a b n : A} {pre p q : List A}
    (hnodup : ((hd :: pre) ++ b :: q).Nodup) (hn : n ∉ (hd :: pre) ++ b :: q)
    (ha : hd :: pre = p ++ [a]) (htl : tl ∈ b :: q)
    (hnext : ∀ x, x ≠ n → x ≠ a → (h' x).next = (h x).next)
    (hprev : ∀ x, x ≠ n → x ≠ b → (h' x).prev = (h x).prev)
    (hleft : (hd :: pre).IsChain (Adj h)) (hright : (b :: q).IsChain (Adj h)) :
    (hd :: pre).IsChain (Adj h') ∧ (b :: q).IsChain (Adj h') ∧
      (h' hd).prev = (h hd).prev ∧ (h' tl).next = (h tl).next := by
  have hne : ∀ x, x ∈ hd :: pre ∨ x ∈ b :: q → x ≠ n := by
    rintro x hx rfl
    exact hn (List.mem_append.mpr hx)
  have hdisj : ∀ x, x ∈ hd :: pre → x ∉ b :: q := fun x hx hx' =>
    (List.disjoint_of_nodup_append hnodup) hx hx'
  have ha_mem : a ∈ hd :: pre := by simp [ha]
  refine ⟨isChain_adj_congr hleft (fun x hx => ?_) (fun x hx => ?_),
    isChain_adj_congr hright (fun x hx => ?_) (fun x hx => ?_), ?_, ?_⟩
  · refine hnext x (hne x (.inl (List.dropLast_subset _ hx))) ?_
    rintro rfl
    have hnd := hnodup.of_append_left
    rw [ha] at hnd
    rw [ha, List.dropLast_concat] at hx
    exact (List.disjoint_of_nodup_append hnd) hx (by simp)
  · refine hprev x (hne x (.inl (List.mem_cons_of_mem _ hx))) ?_
    rintro rfl
    exact hdisj x (List.mem_cons_of_mem _ hx) (by simp)
  · have hxq := List.dropLast_subset _ hx
    refine hnext x (hne x (.inr hxq)) ?_
    rintro rfl
    exact hdisj x ha_mem hxq
  · refine hprev x (hne x (.inr (List.mem_cons_of_mem _ hx))) ?_
    rintro rfl
    exact (List.nodup_cons.mp hnodup.of_append_right).1 hx
  · refine hprev hd (hne hd (.inl (by simp))) ?_
    rintro rfl
    exact hdisj hd (by simp) (by simp)
  · refine hnext tl (hne tl (.inr htl)) ?_
    rintro rfl
    exact hdisj tl ha_mem htl

theorem exists_joint (hd tl : A) (pre post : List A) :
    ∃ p a b q, hd :: pre = p ++ [a] ∧ post ++ [tl] = b :: q := by
  obtain ⟨p, a, hpa⟩ := List.eq_nil_or_concat' (hd :: pre) |>.resolve_left (by simp)
  cases post with
  | nil => exact ⟨p, a, tl, [], hpa, rfl⟩
  | cons x post => exact ⟨p, a, x, post ++ [tl], hpa, rfl⟩

theorem IsList.adj {h : Heap A} {hd tl a b : A} {pre post p q : List A}
    (hl : IsList h hd tl (pre ++ post)) (ha : hd :: pre = p ++ [a])
    (hb : post ++ [tl] = b :: q) : Adj h a b := by
  have hcells : cells hd tl (pre ++ post) = (hd :: pre) ++ b :: q := by
    simp [cells, hb]
  have hchain := hl.linked
  rw [hcells, ha, List.append_assoc, List.singleton_append,
    List.isChain_append_cons_cons] at hchain
  exact hchain.2.1

/-! ## A family of disjoint lists -/

variable {ι : Type*} [DecidableEq ι]

/-- The lists with sentinels `hd i` and `tl i` hold the sequences `seq i` and share
no cell. -/
structure Represents (h : Heap A) (hd tl : ι → A) (seq : ι → List A) : Prop where
  isList : ∀ i, IsList h (hd i) (tl i) (seq i)
  disjoint : ∀ i j, i ≠ j → (cells (hd i) (tl i) (seq i)).Disjoint (cells (hd j) (tl j) (seq j))

variable {h : Heap A} {hd tl : ι → A} {seq : ι → List A}

/-- One list of the family may be replaced by another over the same cells and at most
one new one, all else being untouched. -/
theorem Represents.update {h' : Heap A} {n : A} {xs : List A} (hR : Represents h hd tl seq)
    (i : ι) (hl : IsList h' (hd i) (tl i) xs)
    (hcells : ∀ x ∈ cells (hd i) (tl i) xs, x = n ∨ x ∈ cells (hd i) (tl i) (seq i))
    (hn : ∀ j, j ≠ i → n ∉ cells (hd j) (tl j) (seq j))
    (hframe : ∀ x, x ≠ n → x ∉ cells (hd i) (tl i) (seq i) → h' x = h x) :
    Represents h' hd tl (Function.update seq i xs) := by
  have houtside : ∀ j, j ≠ i → ∀ x ∈ cells (hd j) (tl j) (seq j),
      x ≠ n ∧ x ∉ cells (hd i) (tl i) (seq i) := by
    intro j hj x hx
    refine ⟨?_, fun hx' => hR.disjoint j i hj hx hx'⟩
    rintro rfl
    exact hn j hj hx
  refine ⟨fun j => ?_, fun j k hjk => ?_⟩
  · by_cases hj : j = i
    · subst hj
      simpa using hl
    · simp only [Function.update_of_ne hj]
      exact (hR.isList j).frame fun x hx => hframe x (houtside j hj x hx).1 (houtside j hj x hx).2
  · have hmain : ∀ m, m ≠ i → List.Disjoint (cells (hd m) (tl m) (seq m)) (cells (hd i) (tl i) xs) := by
      intro m hm x hx hx'
      rcases hcells x hx' with rfl | hx'
      · exact hn m hm hx
      · exact hR.disjoint m i hm hx hx'
    by_cases hj : j = i
    · subst hj
      have hk : k ≠ j := fun hk => hjk hk.symm
      simp only [Function.update_self, Function.update_of_ne hk]
      exact fun x hx hx' => hmain k hk hx' hx
    · by_cases hk : k = i
      · subst hk
        simpa [Function.update_of_ne hj] using hmain j hj
      · simpa [Function.update_of_ne hj, Function.update_of_ne hk] using hR.disjoint j k hjk

/-! ## Operations -/

variable [DecidableEq A]

def setNext (h : Heap A) (a : A) (v : Option A) : Heap A :=
  Function.update h a { h a with next := v }

def setPrev (h : Heap A) (a : A) (v : Option A) : Heap A :=
  Function.update h a { h a with prev := v }

def listInit (h : Heap A) (hd tl : A) : Heap A :=
  setNext (setPrev (setPrev (setNext h hd (some tl)) tl (some hd)) hd none) tl none

def insertAfter (h : Heap A) (after n : A) : Option (Heap A) := do
  let z ← (h after).next
  let h := setNext h after (some n)
  let h := setPrev h n (some after)
  let h := setNext h n (some z)
  pure (setPrev h z (some n))

def insertBefore (h : Heap A) (before n : A) : Option (Heap A) := do
  let a ← (h before).prev
  let h := setPrev h before (some n)
  let h := setNext h n (some before)
  let h := setPrev h n (some a)
  pure (setNext h a (some n))

def nodeRemove (h : Heap A) (n : A) : Option (Heap A) := do
  let z ← (h n).prev
  let a ← (h n).next
  let h := setNext h z (some a)
  let h := setPrev h a (some z)
  let h := setNext h n none
  pure (setPrev h n none)

@[simp] theorem setNext_next (h : Heap A) (a x : A) (v : Option A) :
    (setNext h a v x).next = if x = a then v else (h x).next := by
  unfold setNext
  by_cases hx : x = a
  · subst hx; simp
  · simp [hx]

@[simp] theorem setNext_prev (h : Heap A) (a x : A) (v : Option A) :
    (setNext h a v x).prev = (h x).prev := by
  unfold setNext
  by_cases hx : x = a
  · subst hx; simp
  · simp [hx]

@[simp] theorem setPrev_prev (h : Heap A) (a x : A) (v : Option A) :
    (setPrev h a v x).prev = if x = a then v else (h x).prev := by
  unfold setPrev
  by_cases hx : x = a
  · subst hx; simp
  · simp [hx]

@[simp] theorem setPrev_next (h : Heap A) (a x : A) (v : Option A) :
    (setPrev h a v x).next = (h x).next := by
  unfold setPrev
  by_cases hx : x = a
  · subst hx; simp
  · simp [hx]

theorem isList_listInit (h : Heap A) {hd tl : A} (hne : hd ≠ tl) :
    IsList (listInit h hd tl) hd tl [] where
  linked := by
    refine List.isChain_pair.mpr ⟨?_, ?_⟩ <;> simp [listInit, hne, hne.symm]
  nodup := by simp [cells, hne]
  head_prev := by simp [listInit]
  tail_next := by simp [listInit]

/-! ## Splicing

Both insertions have the effect of `Spliced` on the cells next to each other, and
removal has the effect of `Unspliced`; the list rules are proved of these. -/

structure Spliced (h h' : Heap A) (a n b : A) : Prop where
  node_next : (h' n).next = some b
  node_prev : (h' n).prev = some a
  next : ∀ x, x ≠ n → (h' x).next = if x = a then some n else (h x).next
  prev : ∀ x, x ≠ n → (h' x).prev = if x = b then some n else (h x).prev

structure Unspliced (h h' : Heap A) (a n b : A) : Prop where
  node_next : (h' n).next = none
  node_prev : (h' n).prev = none
  next : ∀ x, x ≠ n → (h' x).next = if x = a then some b else (h x).next
  prev : ∀ x, x ≠ n → (h' x).prev = if x = b then some a else (h x).prev

theorem insertBefore_spliced {h : Heap A} {a b n : A} (hb : (h b).prev = some a)
    (hna : n ≠ a) : ∃ h', insertBefore h b n = some h' ∧ Spliced h h' a n b := by
  refine ⟨_, by simp [insertBefore, hb]; rfl, ?_, ?_, ?_, ?_⟩
  · simp [hna]
  · simp
  · intro x hx
    simp [hx]
  · intro x hx
    simp [hx]

theorem insertAfter_spliced {h : Heap A} {a b n : A} (ha : (h a).next = some b)
    (hnb : n ≠ b) : ∃ h', insertAfter h a n = some h' ∧ Spliced h h' a n b := by
  refine ⟨_, by simp [insertAfter, ha]; rfl, ?_, ?_, ?_, ?_⟩
  · simp
  · simp [hnb]
  · intro x hx
    simp [hx]
  · intro x hx
    simp [hx]

theorem nodeRemove_unspliced {h : Heap A} {a b n : A} (hn : h n = ⟨some b, some a⟩) :
    ∃ h', nodeRemove h n = some h' ∧ Unspliced h h' a n b := by
  refine ⟨_, by simp [nodeRemove, hn]; rfl, ?_, ?_, ?_, ?_⟩
  · simp
  · simp
  · intro x hx
    simp [hx]
  · intro x hx
    simp [hx]

theorem IsList.splice {h h' : Heap A} {hd tl a b n : A} {pre post p q : List A}
    (hl : IsList h hd tl (pre ++ post)) (hn : n ∉ cells hd tl (pre ++ post))
    (ha : hd :: pre = p ++ [a]) (hb : post ++ [tl] = b :: q) (hs : Spliced h h' a n b) :
    IsList h' hd tl (pre ++ n :: post) := by
  have hcells : cells hd tl (pre ++ post) = (hd :: pre) ++ b :: q := by
    simp [cells, hb]
  have hcells' : cells hd tl (pre ++ n :: post) = (hd :: pre) ++ n :: b :: q := by
    simp [cells, hb]
  have hchain := hl.linked
  have hnodup := hl.nodup
  rw [hcells] at hchain hnodup hn
  rw [ha, List.append_assoc, List.singleton_append, List.isChain_append_cons_cons, ← ha] at hchain
  obtain ⟨hleft, -, hright⟩ := hchain
  have htl_mem : tl ∈ b :: q := by simp [← hb]
  obtain ⟨hleft', hright', hhd, htl⟩ := sides_congr hnodup hn ha htl_mem
    (fun x hx hxa => by rw [hs.next x hx, if_neg hxa])
    (fun x hx hxb => by rw [hs.prev x hx, if_neg hxb]) hleft hright
  have han : a ≠ n := by
    rintro rfl
    exact hn (by simp [ha])
  have hbn : b ≠ n := by
    rintro rfl
    exact hn (by simp)
  refine ⟨?_, ?_, hhd.trans hl.head_prev, htl.trans hl.tail_next⟩
  · rw [hcells', ha, List.append_assoc, List.singleton_append, List.isChain_append_cons_cons,
      List.isChain_cons_cons, ← ha]
    refine ⟨hleft', ⟨?_, hs.node_prev⟩, ⟨hs.node_next, ?_⟩, hright'⟩
    · simp [hs.next a han]
    · simp [hs.prev b hbn]
  · rw [hcells', List.nodup_middle, List.nodup_cons]
    exact ⟨hn, hnodup⟩

theorem IsList.unsplice {h h' : Heap A} {hd tl a b n : A} {pre post p q : List A}
    (hl : IsList h hd tl (pre ++ n :: post))
    (ha : hd :: pre = p ++ [a]) (hb : post ++ [tl] = b :: q) (hs : Unspliced h h' a n b) :
    IsList h' hd tl (pre ++ post) := by
  have hcells : cells hd tl (pre ++ n :: post) = (hd :: pre) ++ n :: b :: q := by
    simp [cells, hb]
  have hcells' : cells hd tl (pre ++ post) = (hd :: pre) ++ b :: q := by
    simp [cells, hb]
  have hchain := hl.linked
  have hnodup := hl.nodup
  rw [hcells] at hchain hnodup
  rw [List.nodup_middle, List.nodup_cons] at hnodup
  obtain ⟨hn, hnodup⟩ := hnodup
  rw [ha, List.append_assoc, List.singleton_append, List.isChain_append_cons_cons,
    List.isChain_cons_cons, ← ha] at hchain
  obtain ⟨hleft, -, -, hright⟩ := hchain
  have htl_mem : tl ∈ b :: q := by simp [← hb]
  obtain ⟨hleft', hright', hhd, htl⟩ := sides_congr hnodup hn ha htl_mem
    (fun x hx hxa => by rw [hs.next x hx, if_neg hxa])
    (fun x hx hxb => by rw [hs.prev x hx, if_neg hxb]) hleft hright
  have han : a ≠ n := by
    rintro rfl
    exact hn (by simp [ha])
  have hbn : b ≠ n := by
    rintro rfl
    exact hn (by simp)
  refine ⟨?_, ?_, hhd.trans hl.head_prev, htl.trans hl.tail_next⟩
  · rw [hcells', ha, List.append_assoc, List.singleton_append, List.isChain_append_cons_cons,
      ← ha]
    refine ⟨hleft', ⟨?_, ?_⟩, hright'⟩
    · simp [hs.next a han]
    · simp [hs.prev b hbn]
  · rw [hcells']
    exact hnodup

theorem Spliced.frame {h h' : Heap A} {a n b x : A} (hs : Spliced h h' a n b)
    (hxn : x ≠ n) (hxa : x ≠ a) (hxb : x ≠ b) : h' x = h x :=
  Node.ext (by rw [hs.next x hxn, if_neg hxa]) (by rw [hs.prev x hxn, if_neg hxb])

theorem Unspliced.frame {h h' : Heap A} {a n b x : A} (hs : Unspliced h h' a n b)
    (hxn : x ≠ n) (hxa : x ≠ a) (hxb : x ≠ b) : h' x = h x :=
  Node.ext (by rw [hs.next x hxn, if_neg hxa]) (by rw [hs.prev x hxn, if_neg hxb])

theorem Represents.splice {h' : Heap A} {n a b : A} {pre post p q : List A}
    (hR : Represents h hd tl seq) (i : ι) (hseq : seq i = pre ++ post)
    (hn : ∀ j, n ∉ cells (hd j) (tl j) (seq j))
    (ha : hd i :: pre = p ++ [a]) (hb : post ++ [tl i] = b :: q) (hs : Spliced h h' a n b) :
    Represents h' hd tl (Function.update seq i (pre ++ n :: post)) := by
  have hl := hR.isList i
  have hni := hn i
  have ha_mem : a ∈ cells (hd i) (tl i) (seq i) := by
    have : a ∈ hd i :: pre := by simp [ha]
    rw [hseq]
    simp only [cells, List.mem_cons, List.mem_append] at this ⊢
    tauto
  have hb_mem : b ∈ cells (hd i) (tl i) (seq i) := by
    have : b ∈ post ++ [tl i] := by simp [hb]
    rw [hseq]
    simp only [cells, List.mem_cons, List.mem_append] at this ⊢
    tauto
  rw [hseq] at hl hni
  refine hR.update i (hl.splice hni ha hb hs) (fun x hx => ?_) (fun j _ => hn j)
    (fun x hxn hx => hs.frame hxn ?_ ?_)
  · rw [hseq]
    simp only [cells, List.mem_cons, List.mem_append] at hx ⊢
    tauto
  · rintro rfl
    exact hx ha_mem
  · rintro rfl
    exact hx hb_mem

theorem Represents.insertBefore {n b : A} {pre post q : List A} (hR : Represents h hd tl seq)
    (i : ι) (hseq : seq i = pre ++ post) (hn : ∀ j, n ∉ cells (hd j) (tl j) (seq j))
    (hb : post ++ [tl i] = b :: q) :
    ∃ h', insertBefore h b n = some h' ∧
      Represents h' hd tl (Function.update seq i (pre ++ n :: post)) := by
  obtain ⟨p, a, b', q', ha, hb'⟩ := exists_joint (hd i) (tl i) pre post
  obtain ⟨rfl, rfl⟩ := List.cons.inj (hb.symm.trans hb')
  have hl := hR.isList i
  rw [hseq] at hl
  have hna : n ≠ a := by
    rintro rfl
    have : n ∈ hd i :: pre := by simp [ha]
    refine hn i ?_
    rw [hseq]
    simp only [cells, List.mem_cons, List.mem_append] at this ⊢
    tauto
  obtain ⟨h', hrun, hs⟩ := insertBefore_spliced (hl.adj ha hb).2 hna
  exact ⟨h', hrun, hR.splice i hseq hn ha hb hs⟩

theorem Represents.insertAfter {n a : A} {pre post p : List A} (hR : Represents h hd tl seq)
    (i : ι) (hseq : seq i = pre ++ post) (hn : ∀ j, n ∉ cells (hd j) (tl j) (seq j))
    (ha : hd i :: pre = p ++ [a]) :
    ∃ h', insertAfter h a n = some h' ∧
      Represents h' hd tl (Function.update seq i (pre ++ n :: post)) := by
  obtain ⟨p', a', b, q, ha', hb⟩ := exists_joint (hd i) (tl i) pre post
  obtain ⟨rfl, ha''⟩ := List.append_inj' (ha.symm.trans ha') rfl
  obtain rfl := List.singleton_inj.mp ha''
  have hl := hR.isList i
  rw [hseq] at hl
  have hnb : n ≠ b := by
    rintro rfl
    have : n ∈ post ++ [tl i] := by simp [hb]
    refine hn i ?_
    rw [hseq]
    simp only [cells, List.mem_cons, List.mem_append] at this ⊢
    tauto
  obtain ⟨h', hrun, hs⟩ := insertAfter_spliced (hl.adj ha hb).1 hnb
  exact ⟨h', hrun, hR.splice i hseq hn ha hb hs⟩

theorem Represents.append {n : A} (hR : Represents h hd tl seq) (i : ι)
    (hn : ∀ j, n ∉ cells (hd j) (tl j) (seq j)) :
    ∃ h', IntrusiveList.insertBefore h (tl i) n = some h' ∧
      Represents h' hd tl (Function.update seq i (seq i ++ [n])) :=
  hR.insertBefore i (List.append_nil _).symm hn rfl

theorem Represents.remove {n : A} {pre post : List A} (hR : Represents h hd tl seq) (i : ι)
    (hseq : seq i = pre ++ n :: post) :
    ∃ h', nodeRemove h n = some h' ∧ h' n = ⟨none, none⟩ ∧
      Represents h' hd tl (Function.update seq i (pre ++ post)) ∧
      ∀ j, n ∉ cells (hd j) (tl j) (Function.update seq i (pre ++ post) j) := by
  obtain ⟨p, a, b, q, ha, hb⟩ := exists_joint (hd i) (tl i) pre post
  have hl := hR.isList i
  rw [hseq] at hl
  have hprev : Adj h a n := hl.adj ha (List.cons_append ..)
  have hnext : Adj h n b := by
    have hl' : IsList h (hd i) (tl i) ((pre ++ [n]) ++ post) := by simpa using hl
    exact hl'.adj (List.cons_append ..).symm hb
  have hnode : h n = ⟨some b, some a⟩ := Node.ext hnext.1 hprev.2
  obtain ⟨h', hrun, hs⟩ := nodeRemove_unspliced hnode
  have hmem : ∀ x, x ∈ hd i :: pre ∨ x ∈ post ++ [tl i] → x ∈ cells (hd i) (tl i) (seq i) := by
    intro x hx
    rw [hseq]
    simp only [cells, List.mem_cons, List.mem_append] at hx ⊢
    tauto
  have hn_mem : n ∈ cells (hd i) (tl i) (seq i) := by simp [hseq, cells]
  have hfree : n ∉ cells (hd i) (tl i) (pre ++ post) := by
    have hnd := hl.nodup
    rw [show cells (hd i) (tl i) (pre ++ n :: post) = (hd i :: pre) ++ n :: (post ++ [tl i]) by
      simp [cells], List.nodup_middle, List.nodup_cons] at hnd
    simpa [cells] using hnd.1
  have hothers : ∀ j, j ≠ i → n ∉ cells (hd j) (tl j) (seq j) := fun j hj hx =>
    hR.disjoint j i hj hx hn_mem
  refine ⟨h', hrun, Node.ext hs.node_next hs.node_prev,
    hR.update i (hl.unsplice ha hb hs) (fun x hx => .inr (hmem x ?_)) hothers
      (fun x hxn hx => hs.frame hxn ?_ ?_), fun j => ?_⟩
  · simp only [cells, List.mem_cons, List.mem_append] at hx ⊢
    tauto
  · rintro rfl
    exact hx (hmem _ (.inl (by simp [ha])))
  · rintro rfl
    exact hx (hmem _ (.inr (by simp [hb])))
  · by_cases hj : j = i
    · subst hj
      simpa using hfree
    · simpa [Function.update_of_ne hj] using hothers j hj

end IntrusiveList
