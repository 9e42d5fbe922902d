import Plotnetcfg.Lib.IntrusiveList
import Mathlib.Tactic.Tauto
import Mathlib.Data.List.Count

/-! The reverse relation of `master` and of `link`: `master_set` and `link_set` on the
intrusive lists `rev_master` and `rev_link`, down to the pointer writes of `list.h`. -/

namespace Plotnetcfg.RevLists
open IntrusiveList

/-- The two relations an interface keeps forward and in reverse: `master` with
`rev_master`, and `link` with `rev_link`. -/
inductive Rel where
  | master
  | link
deriving DecidableEq

/-- The list cells embedded in `struct if_entry`. -/
inductive Cell (I : Type*) where
  | node (r : Rel) (e : I)
  | head (r : Rel) (m : I)
  | tail (r : Rel) (m : I)
deriving DecidableEq

variable {I : Type*} [DecidableEq I]

structure IfHeap (I : Type*) where
  up : Rel → I → Option I
  cell : Heap (Cell I)

/-- Every entry as `if_create` leaves it: zeroed, and both its reverse lists initialised. -/
def fresh : IfHeap I where
  up := fun _ _ => none
  cell
    | .node _ _ => ⟨none, none⟩
    | .head r m => ⟨some (.tail r m), none⟩
    | .tail r m => ⟨none, some (.head r m)⟩

def unlink (r : Rel) (e : I) (s : IfHeap I) : Option (Heap (Cell I)) :=
  if (s.up r e).isSome then nodeRemove s.cell (.node r e) else some s.cell

def enlist (r : Rel) (target : Option I) (e : I) (cell : Heap (Cell I)) :
    Option (Heap (Cell I)) :=
  match target with
  | some m => insertBefore cell (.tail r m) (.node r e)
  | none => some cell

/-- The common body of `master_set` and `link_set`. -/
def relSet (r : Rel) (target : Option I) (e : I) (s : IfHeap I) : Option (IfHeap I) := do
  let cell ← unlink r e s
  let cell ← enlist r target e cell
  pure ⟨Function.update s.up r (Function.update (s.up r) e target), cell⟩

def masterSet (master : Option I) (masterOf : I) (s : IfHeap I) : Option (IfHeap I) :=
  relSet .master master masterOf s

def linkSet (link entry : Option I) (s : IfHeap I) : Option (IfHeap I) :=
  match entry with
  | none => some s
  | some e => relSet .link link e s

inductive Call (I : Type*) where
  | masterSet (master : Option I) (masterOf : I)
  | linkSet (link entry : Option I)

def Call.run : Call I → IfHeap I → Option (IfHeap I)
  | .masterSet master masterOf => RevLists.masterSet master masterOf
  | .linkSet link entry => RevLists.linkSet link entry

def runCalls : List (Call I) → IfHeap I → Option (IfHeap I)
  | [], s => some s
  | c :: cs, s => (c.run s).bind (runCalls cs)

/-- `list_for_each_member` over the reverse list of `m`. -/
def walkForward (s : IfHeap I) (r : Rel) (m : I) (fuel : Nat) : Option (List (Cell I)) :=
  (s.cell (.head r m)).next.bind (forward s.cell fuel)

def walkBackward (s : IfHeap I) (r : Rel) (m : I) (fuel : Nat) : Option (List (Cell I)) :=
  (s.cell (.tail r m)).prev.bind (backward s.cell fuel)

/-! ## The abstract relation -/

/-- What the cells stand for: the forward pointers, and for each interface the
sequence of the interfaces pointing at it. -/
structure RevState (I : Type*) where
  up : Rel → I → Option I
  rev : Rel → I → List I

def RevState.empty : RevState I := ⟨fun _ _ => none, fun _ _ => []⟩

def RevState.detach (r : Rel) (e : I) (a : RevState I) : Rel → I → List I :=
  match a.up r e with
  | none => a.rev
  | some old => Function.update a.rev r (Function.update (a.rev r) old ((a.rev r old).erase e))

def RevState.attach (r : Rel) (target : Option I) (e : I) (rev : Rel → I → List I) :
    Rel → I → List I :=
  match target with
  | none => rev
  | some m => Function.update rev r (Function.update (rev r) m (rev r m ++ [e]))

def RevState.set (r : Rel) (target : Option I) (e : I) (a : RevState I) : RevState I where
  up := Function.update a.up r (Function.update (a.up r) e target)
  rev := RevState.attach r target e (a.detach r e)

/-- Each interface is listed exactly once by its target, and by no other interface. -/
def RevState.Mirror (a : RevState I) : Prop :=
  ∀ r m e, (a.rev r m).count e = if a.up r e = some m then 1 else 0

theorem mirror_empty : (RevState.empty : RevState I).Mirror := by
  intro r m e
  simp [RevState.empty]

theorem RevState.detach_count {a : RevState I} (ha : a.Mirror) (r : Rel) (e : I) (r' : Rel)
    (m x : I) : (a.detach r e r' m).count x =
      if r' = r ∧ x = e then 0 else (a.rev r' m).count x := by
  have hm := ha r' m x
  unfold RevState.detach
  cases hup : a.up r e with
  | none =>
    split_ifs with h
    · obtain ⟨rfl, rfl⟩ := h
      simpa [hup] using hm
    · rfl
  | some old =>
    by_cases hr : r' = r
    · subst hr
      by_cases ho : m = old
      · subst ho
        by_cases hx : x = e
        · subst hx
          simp [hm, hup]
        · simp [hx, List.count_erase_of_ne hx]
      · by_cases hx : x = e
        · subst hx
          have : ¬ a.up r' x = some m := by simpa [hup] using Ne.symm ho
          simpa [Function.update_of_ne ho, this] using hm
        · simp [Function.update_of_ne ho, hx]
    · simp [hr]

theorem RevState.attach_count (r : Rel) (target : Option I) (e : I) (rev : Rel → I → List I)
    (r' : Rel) (m x : I) : (RevState.attach r target e rev r' m).count x =
      (rev r' m).count x + if r' = r ∧ x = e ∧ target = some m then 1 else 0 := by
  unfold RevState.attach
  cases target with
  | none => simp
  | some t =>
    by_cases hr : r' = r
    · subst hr
      by_cases hm : m = t
      · subst hm
        by_cases hx : x = e
        · subst hx
          simp
        · simp [hx, Ne.symm hx]
      · simp [Function.update_of_ne hm, Ne.symm hm]
    · simp [hr]

theorem RevState.Mirror.set {a : RevState I} (ha : a.Mirror) (r : Rel) (target : Option I)
    (e : I) : (a.set r target e).Mirror := by
  intro r' m x
  have hm := ha r' m x
  simp only [RevState.set, RevState.attach_count, RevState.detach_count ha]
  by_cases hr : r' = r
  · subst hr
    by_cases hx : x = e
    · subst hx
      simp
    · simp [hx, hm]
  · simp [hr, hm]

theorem RevState.Mirror.mem_iff {a : RevState I} (ha : a.Mirror) {r : Rel} {m e : I} :
    e ∈ a.rev r m ↔ a.up r e = some m := by
  rw [← List.count_pos_iff, ha r m e]
  by_cases h : a.up r e = some m <;> simp [h]

theorem RevState.Mirror.nodup {a : RevState I} (ha : a.Mirror) (r : Rel) (m : I) :
    (a.rev r m).Nodup := by
  rw [List.nodup_iff_count_le_one]
  intro e
  rw [ha r m e]
  split_ifs <;> omega

/-! ## The cells refine the relation -/

abbrev headOf (i : Rel × I) : Cell I := .head i.1 i.2

abbrev tailOf (i : Rel × I) : Cell I := .tail i.1 i.2

def RevState.nodes (a : RevState I) (i : Rel × I) : List (Cell I) :=
  (a.rev i.1 i.2).map (Cell.node i.1)

structure Rep (s : IfHeap I) (a : RevState I) : Prop where
  up : s.up = a.up
  lists : Represents s.cell headOf tailOf a.nodes

omit [DecidableEq I] in
theorem rep_fresh : Rep (fresh : IfHeap I) RevState.empty where
  up := rfl
  lists := {
    isList := fun i => {
      linked := by
        refine List.isChain_pair.mpr ⟨?_, ?_⟩ <;> rfl
      nodup := by simp [cells, RevState.nodes, RevState.empty]
      head_prev := rfl
      tail_next := rfl }
    disjoint := by
      rintro ⟨r, m⟩ ⟨r', m'⟩ hne c hc hc'
      simp only [cells, RevState.nodes, RevState.empty, List.map_nil, List.nil_append,
        List.mem_cons, List.not_mem_nil, or_false] at hc hc'
      rcases hc with rfl | rfl <;> rcases hc' with hc' | hc' <;> simp_all }

omit [DecidableEq I] in
theorem mem_cells_node {a : RevState I} (r : Rel) (e : I) (i : Rel × I) :
    Cell.node r e ∈ cells (headOf i) (tailOf i) (a.nodes i) ↔ i.1 = r ∧ e ∈ a.rev r i.2 := by
  obtain ⟨r', m⟩ := i
  simp only [cells, RevState.nodes, List.mem_cons, List.mem_append, List.mem_map, reduceCtorEq,
    List.not_mem_nil, or_false, false_or, Cell.node.injEq]
  constructor
  · rintro ⟨x, hx, rfl, rfl⟩
    exact ⟨rfl, hx⟩
  · rintro ⟨rfl, he⟩
    exact ⟨e, he, rfl, rfl⟩

theorem nodes_update (up : Rel → I → Option I) (rev : Rel → I → List I) (r : Rel) (m : I)
    (xs : List I) :
    RevState.nodes ⟨up, Function.update rev r (Function.update (rev r) m xs)⟩ =
      Function.update (RevState.nodes ⟨up, rev⟩) (r, m) (xs.map (Cell.node r)) := by
  funext ⟨r', m'⟩
  by_cases hr : r' = r
  · subst hr
    by_cases hm : m' = m
    · subst hm
      simp [RevState.nodes]
    · simp [RevState.nodes, hm]
  · simp [RevState.nodes, hr]

theorem Rep.detach {s : IfHeap I} {a : RevState I} (hs : Rep s a) (ha : a.Mirror) (r : Rel)
    (e : I) :
    ∃ cell, unlink r e s = some cell ∧
      Represents cell headOf tailOf (RevState.nodes ⟨a.up, a.detach r e⟩) ∧
      ∀ i, Cell.node r e ∉ cells (headOf i) (tailOf i) (RevState.nodes ⟨a.up, a.detach r e⟩ i) := by
  have hfree : ∀ i, Cell.node r e ∉
      cells (headOf i) (tailOf i) (RevState.nodes ⟨a.up, a.detach r e⟩ i) := by
    intro i hi
    rw [mem_cells_node] at hi
    have hcount := List.count_pos_iff.mpr hi.2
    simp [RevState.detach_count ha] at hcount
  cases hup : a.up r e with
  | none =>
    refine ⟨s.cell, by simp [unlink, hs.up, hup], ?_, hfree⟩
    simpa [RevState.detach, hup] using hs.lists
  | some old =>
    have hmem : e ∈ a.rev r old := ha.mem_iff.mpr hup
    obtain ⟨pre, post, hsplit⟩ := List.append_of_mem hmem
    have hseq : a.nodes (r, old) = pre.map (Cell.node r) ++ .node r e :: post.map (Cell.node r) := by
      simp [RevState.nodes, hsplit]
    obtain ⟨cell, hrun, -, hR, -⟩ := hs.lists.remove (r, old) hseq
    refine ⟨cell, by simp [unlink, hs.up, hup, hrun], ?_, hfree⟩
    have hpre : e ∉ pre := by
      have hnd := ha.nodup r old
      rw [hsplit, List.nodup_middle, List.nodup_cons, List.mem_append] at hnd
      tauto
    have herase : (a.rev r old).erase e = pre ++ post := by
      rw [hsplit, List.erase_append_right _ hpre, List.erase_cons_head]
    simp only [RevState.detach, hup, nodes_update, herase, List.map_append]
    exact hR

/-- One call refines the abstract update, and no pointer it follows is null. -/
theorem Rep.relSet {s : IfHeap I} {a : RevState I} (hs : Rep s a) (ha : a.Mirror) (r : Rel)
    (target : Option I) (e : I) :
    ∃ s', relSet r target e s = some s' ∧ Rep s' (a.set r target e) := by
  obtain ⟨cell, hrun, hR, hfree⟩ := hs.detach ha r e
  cases target with
  | none =>
    refine ⟨⟨Function.update s.up r (Function.update (s.up r) e none), cell⟩, ?_, ?_, ?_⟩
    · simp [RevLists.relSet, hrun, enlist]
    · simp [RevState.set, hs.up]
    · exact hR
  | some m =>
    obtain ⟨cell', hins, hR'⟩ := hR.append (r, m) hfree
    refine ⟨⟨Function.update s.up r (Function.update (s.up r) e (some m)), cell'⟩, ?_, ?_, ?_⟩
    · simp [RevLists.relSet, hrun, enlist, hins]
    · simp [RevState.set, hs.up]
    · have hnodes : (a.set r (some m) e).nodes =
          Function.update (RevState.nodes ⟨a.up, a.detach r e⟩) (r, m)
            (RevState.nodes ⟨a.up, a.detach r e⟩ (r, m) ++ [.node r e]) := by
        rw [← List.map_singleton, RevState.nodes, ← List.map_append, ← nodes_update]
        rfl
      rw [hnodes]
      exact hR'

def Call.apply : Call I → RevState I → RevState I
  | .masterSet master masterOf => RevState.set .master master masterOf
  | .linkSet _ none => id
  | .linkSet link (some entry) => RevState.set .link link entry

theorem Call.mirror_apply (c : Call I) {a : RevState I} (ha : a.Mirror) : (c.apply a).Mirror := by
  cases c with
  | masterSet master masterOf => exact ha.set .master master masterOf
  | linkSet link entry =>
    cases entry with
    | none => exact ha
    | some entry => exact ha.set .link link entry

theorem Rep.call {s : IfHeap I} {a : RevState I} (hs : Rep s a) (ha : a.Mirror) (c : Call I) :
    ∃ s', c.run s = some s' ∧ Rep s' (c.apply a) := by
  cases c with
  | masterSet master masterOf => exact hs.relSet ha .master master masterOf
  | linkSet link entry =>
    cases entry with
    | none => exact ⟨s, rfl, hs⟩
    | some entry => exact hs.relSet ha .link link entry

theorem runCalls_refines (calls : List (Call I)) {s : IfHeap I} {a : RevState I} (hs : Rep s a)
    (ha : a.Mirror) : ∃ s', runCalls calls s = some s' ∧
      Rep s' (calls.foldl (fun a c => c.apply a) a) ∧
      (calls.foldl (fun a c => c.apply a) a).Mirror := by
  induction calls generalizing s a with
  | nil => exact ⟨s, rfl, hs, ha⟩
  | cons c cs ih =>
    obtain ⟨s₁, hrun, hs₁⟩ := hs.call ha c
    obtain ⟨s', hrest, hs', ha'⟩ := ih hs₁ (c.mirror_apply ha)
    exact ⟨s', by simp [runCalls, hrun, hrest], hs', ha'⟩

/-- After any sequence of calls on fresh interfaces, the reverse lists mirror the forward
pointers: walked either way, the list of `m` meets each interface pointing at `m` once
and no other, and no node is on two lists. -/
theorem revLists_mirror (calls : List (Call I)) :
    ∃ s : IfHeap I, runCalls calls fresh = some s ∧ ∃ rev : Rel → I → List I,
      (∀ r m fuel, (rev r m).length < fuel →
        walkForward s r m fuel = some ((rev r m).map (Cell.node r)) ∧
        walkBackward s r m fuel = some ((rev r m).map (Cell.node r)).reverse) ∧
      (∀ r m e, (rev r m).count e = if s.up r e = some m then 1 else 0) ∧
      ∀ r m r' m', (r, m) ≠ (r', m') →
        List.Disjoint ((rev r m).map (Cell.node r)) ((rev r' m').map (Cell.node r')) := by
  obtain ⟨s, hrun, hs, ha⟩ := runCalls_refines calls rep_fresh mirror_empty
  refine ⟨s, hrun, (calls.foldl (fun a c => c.apply a) RevState.empty).rev, fun r m fuel hf => ⟨?_, ?_⟩, fun r m e => ?_, fun r m r' m' hne => ?_⟩
  · exact (hs.lists.isList (r, m)).forward fuel (by simpa [RevState.nodes] using hf)
  · exact (hs.lists.isList (r, m)).backward fuel (by simpa [RevState.nodes] using hf)
  · rw [hs.up]
    exact ha r m e
  · intro c hc hc'
    exact hs.lists.disjoint (r, m) (r', m') hne (List.mem_cons_of_mem _ (List.mem_append_left _ hc))
      (List.mem_cons_of_mem _ (List.mem_append_left _ hc'))

end Plotnetcfg.RevLists
