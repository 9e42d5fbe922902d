import Plotnetcfg.Lib.IntrusiveList
import Mathlib.Data.Set.Insert

/-! The lists of `list.h` as their users see them. Any number of lists is initialised, and nodes
are inserted and removed in any order; the memory then holds the sequences that the calls
describe. -/

namespace Plotnetcfg.ListCalls
open IntrusiveList

/-- The addresses of the two nodes of each `struct list`. -/
structure Layout (L A : Type) where
  head : L → A
  tail : L → A
  ne : ∀ l, head l ≠ tail l

variable {L A : Type} [DecidableEq L] [DecidableEq A] (m : Layout L A)

def listInitializer (h : Heap A) (l : L) : Heap A :=
  Function.update (Function.update h (m.head l) ⟨some (m.tail l), none⟩) (m.tail l)
    ⟨none, some (m.head l)⟩

def listEmpty (h : Heap A) (l : L) : Option Bool := do
  let n ← (h (m.head l)).next
  pure (h n).next.isNone

def listAppend (h : Heap A) (l : L) (n : A) : Option (Heap A) := insertBefore h (m.tail l) n

def listPrepend (h : Heap A) (l : L) (n : A) : Option (Heap A) := insertAfter h (m.head l) n

/-- The node is `none` if the list is empty. -/
def listPop (h : Heap A) (l : L) : Option (Option A × Heap A) := do
  if ← listEmpty m h l then pure (none, h)
  else do
    let n ← (h (m.tail l)).prev
    let h ← nodeRemove h n
    pure (some n, h)

def listForEach (h : Heap A) (l : L) (fuel : Nat) : Option (List A) :=
  (h (m.head l)).next.bind fun n => forward h fuel n

section
-- `NODE_CONTAINER`, and the address of the node in the container
variable {B : Type} (container : A → B) (member : B → A)

def forwardMember (h : Heap A) : Nat → B → Option (List B)
  | 0, _ => none
  | fuel + 1, n =>
    match (h (member n)).next with
    | none => some []
    | some z => (forwardMember h fuel (container z)).map (n :: ·)

def listForEachMember (h : Heap A) (l : L) (fuel : Nat) : Option (List B) :=
  (h (m.head l)).next.bind fun n => forwardMember container member h fuel (container n)

variable {container member}

omit [DecidableEq A] in
theorem forwardMember_eq (hmember : ∀ n, member (container n) = n) (h : Heap A) (fuel : Nat)
    (n : A) : forwardMember container member h fuel (container n) =
      (forward h fuel n).map (List.map container) := by
  induction fuel generalizing n with
  | zero => rfl
  | succ fuel ih =>
    rw [forwardMember, forward, hmember]
    cases (h n).next with
    | none => rfl
    | some z =>
      dsimp only
      rw [ih z, Option.map_map, Option.map_map]
      rfl

omit [DecidableEq L] [DecidableEq A] in
theorem listForEachMember_eq (hmember : ∀ n, member (container n) = n) (h : Heap A) (l : L)
    (fuel : Nat) : listForEachMember m container member h l fuel =
      (listForEach m h l fuel).map (List.map container) := by
  unfold listForEachMember listForEach
  cases (h (m.head l)).next with
  | none => rfl
  | some n => exact forwardMember_eq hmember h fuel n

end

def listBackward (h : Heap A) (l : L) (fuel : Nat) : Option (List A) :=
  (h (m.tail l)).prev.bind fun n => backward h fuel n

/-- The nodes that are visited; `release` is what `destruct` and `free` do to the memory. -/
def listFree (release : A → Heap A → Heap A) (l : L) : Nat → Heap A → Option (List A × Heap A)
  | 0, _ => none
  | fuel + 1, h => do
    let (n, h) ← listPop m h l
    match n with
    | none => pure ([], h)
    | some n => do
      let (visited, h) ← listFree release l fuel (release n h)
      pure (n :: visited, h)

/-! ## Calls -/

inductive Call (L A : Type) where
  | init (l : L)
  | initializer (l : L)
  | append (l : L) (n : A)
  | prepend (l : L) (n : A)
  | insertAfter (after n : A)
  | insertBefore (before n : A)
  | remove (n : A)
  | pop (l : L)

def Call.run (h : Heap A) : Call L A → Option (Option A × Heap A)
  | .init l => some (none, listInit h (m.head l) (m.tail l))
  | .initializer l => some (none, listInitializer m h l)
  | .append l n => (listAppend m h l n).map fun h => (none, h)
  | .prepend l n => (listPrepend m h l n).map fun h => (none, h)
  | .insertAfter after n => (IntrusiveList.insertAfter h after n).map fun h => (none, h)
  | .insertBefore before n => (IntrusiveList.insertBefore h before n).map fun h => (none, h)
  | .remove n => (nodeRemove h n).map fun h => (some n, h)
  | .pop l => listPop m h l

def runCalls : List (Call L A) → Heap A → Option (List (Option A) × Heap A)
  | [], h => some ([], h)
  | c :: calls, h => do
    let (n, h) ← c.run m h
    let (ns, h) ← runCalls calls h
    pure (n :: ns, h)

/-! ## What the calls mean -/

structure Lists (L A : Type) where
  live : Set L
  seq : L → List A

def Lists.none : Lists L A := ⟨∅, fun _ => []⟩

def Lists.Off (a : Lists L A) (n : A) : Prop :=
  ∀ l ∈ a.live, n ∉ cells (m.head l) (m.tail l) (a.seq l)

def Lists.On (a : Lists L A) (n : A) : Prop := ∃ l ∈ a.live, n ∈ a.seq l

/-- The callers' side: inserted nodes are on no list, reference and removed nodes are on one. -/
def Call.Allowed (a : Lists L A) : Call L A → Prop
  | .init l => l ∉ a.live ∧ a.Off m (m.head l) ∧ a.Off m (m.tail l)
  | .initializer l => l ∉ a.live ∧ a.Off m (m.head l) ∧ a.Off m (m.tail l)
  | .append l n => l ∈ a.live ∧ a.Off m n
  | .prepend l n => l ∈ a.live ∧ a.Off m n
  | .insertAfter after n => a.On after ∧ a.Off m n
  | .insertBefore before n => a.On before ∧ a.Off m n
  | .remove n => a.On n
  | .pop l => l ∈ a.live

def Lists.start (a : Lists L A) (l : L) : Lists L A :=
  ⟨insert l a.live, Function.update a.seq l []⟩

def Lists.set (a : Lists L A) (l : L) (xs : List A) : Lists L A :=
  { a with seq := Function.update a.seq l xs }

def Lists.expand (a : Lists L A) (x : A) (xs : List A) : Lists L A :=
  { a with seq := fun l => (a.seq l).flatMap fun y => if y = x then xs else [y] }

def Call.apply (a : Lists L A) : Call L A → Option A × Lists L A
  | .init l => (none, a.start l)
  | .initializer l => (none, a.start l)
  | .append l n => (none, a.set l (a.seq l ++ [n]))
  | .prepend l n => (none, a.set l (n :: a.seq l))
  | .insertAfter after n => (none, a.expand after [after, n])
  | .insertBefore before n => (none, a.expand before [n, before])
  | .remove n => (some n, a.expand n [])
  | .pop l => ((a.seq l).getLast?, a.set l (a.seq l).dropLast)

def AllowedAll : Lists L A → List (Call L A) → Prop
  | _, [] => True
  | a, c :: calls => c.Allowed m a ∧ AllowedAll (c.apply a).2 calls

def applyAll : Lists L A → List (Call L A) → List (Option A) × Lists L A
  | a, [] => ([], a)
  | a, c :: calls => ((c.apply a).1 :: (applyAll (c.apply a).2 calls).1,
      (applyAll (c.apply a).2 calls).2)

/-! ## The memory holds the lists -/

/-- The memory holds the sequences of the initialised lists, and these share no node. -/
def Holds (h : Heap A) (a : Lists L A) : Prop :=
  Represents h (fun l : a.live => m.head l) (fun l => m.tail l) fun l => a.seq l

section
variable {m} {h h' : Heap A} {a : Lists L A} {l : L} {n x : A} {xs pre post : List A}

omit [DecidableEq L] [DecidableEq A] in
theorem Holds.isList (hh : Holds m h a) (hl : l ∈ a.live) :
    IsList h (m.head l) (m.tail l) (a.seq l) := Represents.isList hh ⟨l, hl⟩

omit [DecidableEq L] [DecidableEq A] in
theorem Holds.disjoint (hh : Holds m h a) (hl : l ∈ a.live) {l' : L} (hl' : l' ∈ a.live)
    (hne : l ≠ l') :
    (cells (m.head l) (m.tail l) (a.seq l)).Disjoint (cells (m.head l') (m.tail l') (a.seq l')) :=
  Represents.disjoint hh ⟨l, hl⟩ ⟨l', hl'⟩ fun heq => hne (Subtype.mk.inj heq)

omit [DecidableEq L] [DecidableEq A] in
theorem mem_cells : x ∈ cells (m.head l) (m.tail l) xs ↔ x = m.head l ∨ x ∈ xs ∨ x = m.tail l := by
  simp [cells]

omit [DecidableEq L] [DecidableEq A] in
theorem Holds.seq_disjoint (hh : Holds m h a) (hl : l ∈ a.live) {l' : L} (hl' : l' ∈ a.live)
    (hne : l ≠ l') : (a.seq l).Disjoint (a.seq l') := fun _ hx hx' =>
  hh.disjoint hl hl' hne (mem_cells.mpr (.inr (.inl hx))) (mem_cells.mpr (.inr (.inl hx')))

omit [DecidableEq L] [DecidableEq A] in
theorem Holds.seq_nodup (hh : Holds m h a) (hl : l ∈ a.live) : (a.seq l).Nodup := by
  have hnodup := (hh.isList hl).nodup
  unfold cells at hnodup
  rw [List.nodup_cons] at hnodup
  exact (List.nodup_append.mp hnodup.2).1

omit [DecidableEq A] in
theorem Holds.ofUpdate (hl : l ∈ a.live) {f : L → List A}
    (hh : Represents h' (fun l : a.live => m.head l) (fun l => m.tail l)
      (Function.update (fun l : a.live => a.seq l) ⟨l, hl⟩ xs))
    (hself : f l = xs) (hothers : ∀ l' ∈ a.live, l' ≠ l → f l' = a.seq l') :
    Holds m h' { a with seq := f } := by
  have heq : (fun l : a.live => f l) = Function.update (fun l : a.live => a.seq l) ⟨l, hl⟩ xs := by
    funext l'
    by_cases hne : l' = ⟨l, hl⟩
    · subst hne
      rw [Function.update_self]
      exact hself
    · rw [Function.update_of_ne hne]
      exact hothers l'.1 l'.2 fun h => hne (Subtype.ext h)
  unfold Holds
  rw [← heq] at hh
  exact hh

omit [DecidableEq A] in
theorem Holds.ofSet (hl : l ∈ a.live)
    (hh : Represents h' (fun l : a.live => m.head l) (fun l => m.tail l)
      (Function.update (fun l : a.live => a.seq l) ⟨l, hl⟩ xs)) : Holds m h' (a.set l xs) :=
  .ofUpdate hl hh (Function.update_self ..) fun _ _ hne => Function.update_of_ne hne ..

theorem flatMap_of_notMem (hx : x ∉ xs) (ys : List A) :
    (xs.flatMap fun y => if y = x then ys else [y]) = xs := by
  induction xs with
  | nil => rfl
  | cons y xs ih =>
    have hne : y ≠ x := fun heq => hx (heq ▸ List.mem_cons_self)
    rw [List.flatMap_cons, ih fun hmem => hx (List.mem_cons_of_mem y hmem), if_neg hne]
    rfl

/-- The list of `x` is the only one in which it is replaced. -/
theorem Holds.ofExpand (hh : Holds m h a) (hl : l ∈ a.live) (hseq : a.seq l = pre ++ x :: post)
    {ys : List A} (hR : Represents h' (fun l : a.live => m.head l) (fun l => m.tail l)
      (Function.update (fun l : a.live => a.seq l) ⟨l, hl⟩ (pre ++ (ys ++ post)))) :
    Holds m h' (a.expand x ys) := by
  apply Holds.ofUpdate hl hR
  · have hnodup := hh.seq_nodup hl
    rw [hseq, List.nodup_middle, List.nodup_cons, List.mem_append, not_or] at hnodup
    rw [hseq, List.flatMap_append, List.flatMap_cons, flatMap_of_notMem hnodup.1.1,
      flatMap_of_notMem hnodup.1.2, if_pos rfl]
  · intro l' hl' hne
    apply flatMap_of_notMem
    intro hmem
    have hx : x ∈ a.seq l := by
      rw [hseq]
      exact List.mem_append_right _ List.mem_cons_self
    exact hh.seq_disjoint hl hl' hne.symm hx hmem

/-! ## Each call -/

omit [DecidableEq L] [DecidableEq A] in
theorem holds_none (h : Heap A) : Holds m h (Lists.none : Lists L A) :=
  ⟨fun l => absurd l.2 (Set.notMem_empty _), fun l => absurd l.2 (Set.notMem_empty _)⟩

omit [DecidableEq A] in
theorem Holds.start (hh : Holds m h a) (hl : l ∉ a.live) (hhead : a.Off m (m.head l))
    (htail : a.Off m (m.tail l)) (hnew : IsList h' (m.head l) (m.tail l) [])
    (hframe : ∀ x, x ≠ m.head l → x ≠ m.tail l → h' x = h x) : Holds m h' (a.start l) := by
  have hkept : ∀ l' ∈ a.live, ∀ x ∈ cells (m.head l') (m.tail l') (a.seq l'),
      x ≠ m.head l ∧ x ≠ m.tail l := by
    intro l' hl' x hx
    constructor
    · rintro rfl
      exact hhead l' hl' hx
    · rintro rfl
      exact htail l' hl' hx
  have hself : (a.start l).seq l = [] := Function.update_self ..
  have hother : ∀ l' ∈ a.live, (a.start l).seq l' = a.seq l' := by
    intro l' hl'
    apply Function.update_of_ne
    rintro rfl
    exact hl hl'
  have hapart : ∀ l' ∈ a.live, (cells (m.head l') (m.tail l') (a.seq l')).Disjoint
      (cells (m.head l) (m.tail l) []) := by
    intro l' hl' x hx hx'
    rcases mem_cells.mp hx' with rfl | hmem | rfl
    · exact (hkept l' hl' _ hx).1 rfl
    · cases hmem
    · exact (hkept l' hl' _ hx).2 rfl
  constructor
  · rintro ⟨l', hl'⟩
    dsimp only
    rcases Set.mem_insert_iff.mp hl' with rfl | hl'
    · rw [hself]
      exact hnew
    · rw [hother l' hl']
      exact (hh.isList hl').frame fun x hx => hframe x (hkept l' hl' x hx).1 (hkept l' hl' x hx).2
  · rintro ⟨l₁, hl₁⟩ ⟨l₂, hl₂⟩ hne
    dsimp only
    rcases Set.mem_insert_iff.mp hl₁ with rfl | hold₁
    · rcases Set.mem_insert_iff.mp hl₂ with rfl | hold₂
      · exact absurd rfl hne
      · rw [hself, hother l₂ hold₂]
        exact fun x hx hx' => hapart l₂ hold₂ hx' hx
    · rcases Set.mem_insert_iff.mp hl₂ with rfl | hold₂
      · rw [hself, hother l₁ hold₁]
        exact hapart l₁ hold₁
      · rw [hother l₁ hold₁, hother l₂ hold₂]
        exact hh.disjoint hold₁ hold₂ fun heq => hne (Subtype.ext heq)

omit [DecidableEq L] in
theorem isList_listInitializer (h : Heap A) (l : L) :
    IsList (listInitializer m h l) (m.head l) (m.tail l) [] where
  linked := by
    apply List.isChain_pair.mpr
    unfold Adj listInitializer
    rw [Function.update_of_ne (m.ne l), Function.update_self, Function.update_self]
    exact ⟨rfl, rfl⟩
  nodup := by simp [cells, m.ne l]
  head_prev := by
    unfold listInitializer
    rw [Function.update_of_ne (m.ne l), Function.update_self]
  tail_next := by
    unfold listInitializer
    rw [Function.update_self]

omit [DecidableEq L] [DecidableEq A] in
theorem Lists.Off.live (hn : a.Off m n) (i : a.live) :
    n ∉ cells (m.head i) (m.tail i) (a.seq i) := hn i.1 i.2

theorem Holds.append (hh : Holds m h a) (hl : l ∈ a.live) (hn : a.Off m n) :
    ∃ h', listAppend m h l n = some h' ∧ Holds m h' (a.set l (a.seq l ++ [n])) := by
  obtain ⟨h', hrun, hR⟩ := Represents.append hh ⟨l, hl⟩ hn.live
  exact ⟨h', hrun, .ofSet hl hR⟩

theorem Holds.prepend (hh : Holds m h a) (hl : l ∈ a.live) (hn : a.Off m n) :
    ∃ h', listPrepend m h l n = some h' ∧ Holds m h' (a.set l (n :: a.seq l)) := by
  have hsplit : a.seq l = [] ++ a.seq l := rfl
  obtain ⟨h', hrun, hR⟩ := Represents.insertAfter (p := []) hh ⟨l, hl⟩ hsplit hn.live rfl
  exact ⟨h', hrun, .ofSet hl hR⟩

theorem Holds.insertAfter {after : A} (hh : Holds m h a) (hafter : a.On after) (hn : a.Off m n) :
    ∃ h', IntrusiveList.insertAfter h after n = some h' ∧
      Holds m h' (a.expand after [after, n]) := by
  obtain ⟨l, hl, hmem⟩ := hafter
  obtain ⟨pre, post, hseq⟩ := List.append_of_mem hmem
  have hsplit : a.seq l = (pre ++ [after]) ++ post := by
    rw [hseq]
    simp
  obtain ⟨h', hrun, hR⟩ :=
    Represents.insertAfter hh ⟨l, hl⟩ hsplit hn.live (List.cons_append ..).symm
  refine ⟨h', hrun, hh.ofExpand hl hseq ?_⟩
  rw [List.append_assoc] at hR
  exact hR

theorem Holds.insertBefore {before : A} (hh : Holds m h a) (hbefore : a.On before)
    (hn : a.Off m n) : ∃ h', IntrusiveList.insertBefore h before n = some h' ∧
      Holds m h' (a.expand before [n, before]) := by
  obtain ⟨l, hl, hmem⟩ := hbefore
  obtain ⟨pre, post, hseq⟩ := List.append_of_mem hmem
  obtain ⟨h', hrun, hR⟩ := Represents.insertBefore hh ⟨l, hl⟩ hseq hn.live (List.cons_append ..)
  exact ⟨h', hrun, hh.ofExpand hl hseq hR⟩

theorem Holds.remove (hh : Holds m h a) (hn : a.On n) :
    ∃ h', nodeRemove h n = some h' ∧ Holds m h' (a.expand n []) := by
  obtain ⟨l, hl, hmem⟩ := hn
  obtain ⟨pre, post, hseq⟩ := List.append_of_mem hmem
  obtain ⟨h', hrun, -, hR, -⟩ := Represents.remove hh ⟨l, hl⟩ hseq
  exact ⟨h', hrun, hh.ofExpand hl hseq hR⟩

omit [DecidableEq L] [DecidableEq A] in
theorem listEmpty_eq (hl : IsList h (m.head l) (m.tail l) xs) :
    listEmpty m h l = some xs.isEmpty := by
  have hc := hl.linked
  unfold listEmpty
  cases xs with
  | nil =>
    obtain ⟨hnext, -⟩ := List.isChain_pair.mp hc
    simp [hnext, hl.tail_next]
  | cons x xs =>
    rw [cells, List.cons_append, List.isChain_cons_cons] at hc
    have hx : (h x).next.isSome := by
      cases xs with
      | nil =>
        obtain ⟨hnext, -⟩ := List.isChain_pair.mp hc.2
        rw [hnext]
        rfl
      | cons y xs =>
        rw [List.cons_append, List.isChain_cons_cons] at hc
        rw [hc.2.1.1]
        rfl
    obtain ⟨y, hy⟩ := Option.isSome_iff_exists.mp hx
    simp [hc.1.1, hy]

theorem Holds.pop (hh : Holds m h a) (hl : l ∈ a.live) :
    ∃ h', listPop m h l = some ((a.seq l).getLast?, h') ∧
      Holds m h' (a.set l (a.seq l).dropLast) := by
  have hlist := hh.isList hl
  have hempty := listEmpty_eq hlist
  rcases List.eq_nil_or_concat' (a.seq l) with hnil | ⟨xs, n, hlast⟩
  · rw [hnil] at hempty
    refine ⟨h, ?_, ?_⟩
    · unfold listPop
      rw [hempty, hnil]
      rfl
    · have hsame : a.set l (a.seq l).dropLast = a := by
        rw [hnil, List.dropLast_nil, ← hnil]
        unfold Lists.set
        rw [Function.update_eq_self]
      rw [hsame]
      exact hh
  · have hfalse : (a.seq l).isEmpty = false := by simp [hlast]
    have hsplit : a.seq l = (xs ++ [n]) ++ [] := by rw [hlast, List.append_nil]
    have htail : (h (m.tail l)).prev = some n := by
      rw [hsplit] at hlist
      exact (hlist.adj (List.cons_append ..).symm (List.nil_append _)).2
    obtain ⟨h', hrun, -, hR, -⟩ := Represents.remove hh ⟨l, hl⟩ hlast
    rw [List.append_nil] at hR
    refine ⟨h', ?_, ?_⟩
    · unfold listPop
      rw [hempty, hfalse, hlast, List.getLast?_concat]
      simp [htail, hrun]
    · rw [hlast, List.dropLast_concat]
      exact .ofSet hl hR

/-! ## The whole list is freed -/

omit [DecidableEq L] [DecidableEq A] in
theorem holds_single (hl : IsList h (m.head l) (m.tail l) xs) :
    Holds m h ⟨{l}, fun _ => xs⟩ := by
  constructor
  · rintro ⟨l', rfl⟩
    exact hl
  · rintro ⟨l₁, rfl⟩ ⟨l₂, rfl⟩ hne
    exact absurd rfl hne

/-- Each turn takes the last node, so that the loop ends when there is none left. The destructor
may write what it likes but the other cells of the list. -/
theorem listFree_visits (release : A → Heap A → Heap A)
    (hl : IsList h (m.head l) (m.tail l) xs)
    (hrelease : ∀ n ∈ xs, ∀ h, ∀ x ∈ cells (m.head l) (m.tail l) xs, x ≠ n → release n h x = h x)
    (fuel : Nat) (hf : xs.length < fuel) :
    ∃ h', listFree m release l fuel h = some (xs.reverse, h') ∧
      IsList h' (m.head l) (m.tail l) [] := by
  induction xs using List.reverseRecOn generalizing h fuel with
  | nil =>
    obtain ⟨k, rfl⟩ : ∃ k, fuel = k + 1 := ⟨fuel - 1, by omega⟩
    refine ⟨h, ?_, hl⟩
    have hpop : listPop m h l = some (none, h) := by
      unfold listPop
      rw [listEmpty_eq hl]
      rfl
    rw [listFree, hpop]
    rfl
  | append_singleton xs n ih =>
    rw [List.length_append, List.length_singleton] at hf
    obtain ⟨k, rfl⟩ : ∃ k, fuel = k + 1 := ⟨fuel - 1, by omega⟩
    obtain ⟨h₁, hpop, hh₁⟩ := (holds_single hl).pop (Set.mem_singleton l)
    have hl₁ := hh₁.isList (Set.mem_singleton l)
    unfold Lists.set at hl₁
    dsimp only at hpop hl₁
    rw [Function.update_self, List.dropLast_concat] at hl₁
    rw [List.getLast?_concat] at hpop
    have hsub : ∀ x ∈ cells (m.head l) (m.tail l) xs,
        x ∈ cells (m.head l) (m.tail l) (xs ++ [n]) ∧ x ≠ n := by
      intro x hx
      have hnodup := hl.nodup
      have hperm : (cells (m.head l) (m.tail l) (xs ++ [n])).Perm
          (n :: cells (m.head l) (m.tail l) xs) := by
        unfold cells
        rw [List.append_assoc]
        exact (List.perm_middle.cons _).trans (List.Perm.swap ..)
      refine ⟨hperm.mem_iff.mpr (List.mem_cons_of_mem n hx), ?_⟩
      rintro rfl
      exact (List.nodup_cons.mp (hperm.nodup_iff.mp hnodup)).1 hx
    have hl₂ : IsList (release n h₁) (m.head l) (m.tail l) xs := by
      apply hl₁.frame
      intro x hx
      exact hrelease n (List.mem_append_right _ (List.mem_singleton_self n)) h₁ x (hsub x hx).1
        (hsub x hx).2
    obtain ⟨h', hrun, hend⟩ := ih hl₂ (fun n' hn' h x hx hne => hrelease n'
      (List.mem_append_left _ hn') h x (hsub x hx).1 hne) k (by omega)
    refine ⟨h', ?_, hend⟩
    rw [listFree, hpop]
    simp [hrun]

/-! ## All calls -/

theorem Call.run_holds (c : Call L A) (hh : Holds m h a) (hc : c.Allowed m a) :
    ∃ h', c.run m h = some ((c.apply a).1, h') ∧ Holds m h' (c.apply a).2 := by
  cases c with
  | init l =>
    obtain ⟨hl, hhead, htail⟩ := hc
    refine ⟨_, rfl, hh.start hl hhead htail (isList_listInit h (m.ne l)) fun x hx hx' => ?_⟩
    apply Node.ext
    · simp [listInit, hx, hx']
    · simp [listInit, hx, hx']
  | initializer l =>
    obtain ⟨hl, hhead, htail⟩ := hc
    refine ⟨_, rfl, hh.start hl hhead htail (isList_listInitializer h l) fun x hx hx' => ?_⟩
    unfold listInitializer
    rw [Function.update_of_ne hx', Function.update_of_ne hx]
  | append l n =>
    obtain ⟨h', hrun, hh'⟩ := hh.append hc.1 hc.2
    exact ⟨h', by simp [Call.run, Call.apply, hrun], hh'⟩
  | prepend l n =>
    obtain ⟨h', hrun, hh'⟩ := hh.prepend hc.1 hc.2
    exact ⟨h', by simp [Call.run, Call.apply, hrun], hh'⟩
  | insertAfter after n =>
    obtain ⟨h', hrun, hh'⟩ := hh.insertAfter hc.1 hc.2
    exact ⟨h', by simp [Call.run, Call.apply, hrun], hh'⟩
  | insertBefore before n =>
    obtain ⟨h', hrun, hh'⟩ := hh.insertBefore hc.1 hc.2
    exact ⟨h', by simp [Call.run, Call.apply, hrun], hh'⟩
  | remove n =>
    obtain ⟨h', hrun, hh'⟩ := hh.remove hc
    exact ⟨h', by simp [Call.run, Call.apply, hrun], hh'⟩
  | pop l => exact hh.pop hc

theorem runCalls_holds (calls : List (Call L A)) (hh : Holds m h a)
    (hcalls : AllowedAll m a calls) :
    ∃ h', runCalls m calls h = some ((applyAll a calls).1, h') ∧ Holds m h' (applyAll a calls).2 := by
  induction calls generalizing h a with
  | nil => exact ⟨h, rfl, hh⟩
  | cons c calls ih =>
    obtain ⟨h₁, hrun₁, hh₁⟩ := c.run_holds hh hcalls.1
    obtain ⟨h', hrun', hh'⟩ := ih hh₁ hcalls.2
    refine ⟨h', ?_, hh'⟩
    rw [runCalls, hrun₁]
    simp [hrun', applyAll]

end

structure Shows (h : Heap A) (a : Lists L A) (l : L) : Prop where
  forward : ∀ fuel, (a.seq l).length < fuel → listForEach m h l fuel = some (a.seq l)
  backward : ∀ fuel, (a.seq l).length < fuel → listBackward m h l fuel = some (a.seq l).reverse
  empty : listEmpty m h l = some (a.seq l).isEmpty
  nodup : (a.seq l).Nodup
  disjoint : ∀ l' ∈ a.live, l ≠ l' → (a.seq l).Disjoint (a.seq l')
  free : ∀ release, (∀ n ∈ a.seq l, ∀ h, ∀ x ∈ cells (m.head l) (m.tail l) (a.seq l), x ≠ n →
      release n h x = h x) →
    ∀ fuel, (a.seq l).length < fuel →
      ∃ h', listFree m release l fuel h = some ((a.seq l).reverse, h') ∧
        listEmpty m h' l = some true

/-- Whatever the memory was before, after any calls every list shows the sequence that the calls
describe, and the calls have returned what they describe. -/
theorem runCalls_shows (h : Heap A) {calls : List (Call L A)}
    (hcalls : AllowedAll m .none calls) :
    ∃ h', runCalls m calls h = some ((applyAll .none calls).1, h') ∧
      ∀ l ∈ (applyAll .none calls).2.live, Shows m h' (applyAll .none calls).2 l := by
  obtain ⟨h', hrun, hh⟩ := runCalls_holds calls (holds_none h) hcalls
  refine ⟨h', hrun, fun l hl => ?_⟩
  have hlist := hh.isList hl
  refine ⟨hlist.forward, hlist.backward, listEmpty_eq hlist, hh.seq_nodup hl,
    fun l' hl' hne => hh.seq_disjoint hl hl' hne, fun release hrelease fuel hf => ?_⟩
  obtain ⟨h'', hfree, hend⟩ := listFree_visits release hlist hrelease fuel hf
  exact ⟨h'', hfree, listEmpty_eq hend⟩

def pairLayout : Layout Nat Nat where
  head l := 2 * l
  tail l := 2 * l + 1
  ne l := (Nat.lt_succ_self (2 * l)).ne

def movingCalls : List (Call Nat Nat) :=
  [.init 0, .initializer 1, .append 0 10, .prepend 0 11, .insertAfter 11 12, .pop 0, .remove 11,
    .append 1 11, .insertBefore 11 10]

theorem runCalls_shows_moving : ∃ h', runCalls pairLayout movingCalls (fun _ => ⟨none, none⟩) =
    some ([none, none, none, none, none, some 10, some 11, none, none], h') ∧
      listForEach pairLayout h' 0 2 = some [12] ∧ listForEach pairLayout h' 1 3 = some [10, 11] := by
  have hallowed : AllowedAll pairLayout .none movingCalls := by
    simp [AllowedAll, movingCalls, Call.Allowed, Call.apply, Lists.start, Lists.set, Lists.expand,
      Lists.Off, Lists.On, Lists.none, pairLayout, cells]
  obtain ⟨h', hrun, hshows⟩ := runCalls_shows pairLayout (fun _ => ⟨none, none⟩) hallowed
  have hlive : ∀ l ∈ [0, 1], l ∈ (applyAll .none movingCalls).2.live := by
    simp [movingCalls, applyAll, Call.apply, Lists.start, Lists.set, Lists.expand, Lists.none]
  exact ⟨h', hrun, (hshows 0 (hlive 0 (by decide))).forward 2 (by decide),
    (hshows 1 (hlive 1 (by decide))).forward 3 (by decide)⟩

end Plotnetcfg.ListCalls
