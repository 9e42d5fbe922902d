import Mathlib.Order.Lattice
import Mathlib.Data.List.Basic

/-! Lists split into groups by a key: one group for each key that occurs, the groups in
descending order of their keys, and the order of the list kept inside each group. -/

variable {α β K : Type*}

structure OrderedPartition [LinearOrder K] (key : α → K) (val : α → β) (l : List α)
    (groups : List (K × List β)) : Prop where
  descending : groups.Pairwise fun g h => h.1 < g.1
  group : ∀ g ∈ groups, g.2 = (l.filter fun a => key a = g.1).map val
  covers : ∀ a ∈ l, ∃ g ∈ groups, g.1 = key a

namespace OrderedPartition

variable [LinearOrder K] {key key' : α → K} {val : α → β} {l : List α}
  {groups : List (K × List β)}

theorem congr_key (h : ∀ a ∈ l, key a = key' a) (hp : OrderedPartition key val l groups) :
    OrderedPartition key' val l groups where
  descending := hp.descending
  group g hg := by
    have hfilter : (l.filter fun a => key a = g.1) = l.filter fun a => key' a = g.1 :=
      List.filter_congr fun a ha => by rw [h a ha]
    rw [hp.group g hg, hfilter]
  covers a ha := by
    rw [← h a ha]
    exact hp.covers a ha

/-- Collecting the buckets that are in use, from the highest to the lowest. -/
theorem of_buckets {ι : Type*} {name : ι → K} {ids : List ι}
    (hids : ids.Pairwise fun i j => name j < name i)
    (hcovers : ∀ a ∈ l, ∃ i ∈ ids, name i = key a) {bucket : ι → Option (List β)}
    (hbucket : ∀ i ∈ ids, bucket i = if ∃ a ∈ l, key a = name i then
      some ((l.filter fun a => key a = name i).map val) else none) :
    OrderedPartition key val l (ids.filterMap fun i => (bucket i).map fun b => (name i, b)) where
  descending := by
    refine List.Pairwise.filterMap _ (fun i j hij g hg h hh => ?_) hids
    simp only [Option.map_eq_some_iff] at hg hh
    obtain ⟨_, -, rfl⟩ := hg
    obtain ⟨_, -, rfl⟩ := hh
    exact hij
  group g hg := by
    obtain ⟨i, hi, hmap⟩ := List.mem_filterMap.mp hg
    obtain ⟨b, hb, rfl⟩ := Option.map_eq_some_iff.mp hmap
    rw [hbucket i hi] at hb
    split_ifs at hb
    exact (Option.some.inj hb).symm
  covers a ha := by
    obtain ⟨i, hi, hname⟩ := hcovers a ha
    have hb := hbucket i hi
    rw [if_pos ⟨a, ha, hname.symm⟩] at hb
    exact ⟨_, List.mem_filterMap.mpr ⟨i, hi, by rw [hb]; rfl⟩, hname⟩

end OrderedPartition
