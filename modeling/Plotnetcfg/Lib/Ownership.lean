import Mathlib.Data.List.Nodup
import Mathlib.Data.List.Perm.Basic

/-! What an object owns, and the sequence in which it is given back. -/

namespace Ownership

variable {T U A : Type*}

/-- Nothing is given back twice, and nothing that is owned is kept. -/
structure Once (owned released : List T) : Prop where
  nodup : released.Nodup
  all : ∀ t ∈ owned, t ∈ released

theorem Once.of_nodup {owned : List T} (h : owned.Nodup) : Once owned owned :=
  ⟨h, fun _ => id⟩

theorem once_perm {owned released released' : List T} (h : released.Perm released') :
    Once owned released ↔ Once owned released' := by
  constructor
  · intro ho
    exact ⟨h.nodup_iff.mp ho.nodup, fun t ht => h.mem_iff.mp (ho.all t ht)⟩
  · intro ho
    exact ⟨h.nodup_iff.mpr ho.nodup, fun t ht => h.mem_iff.mpr (ho.all t ht)⟩

/-- Two parts that `p` tells apart are given back independently. -/
theorem once_append {o₁ o₂ r₁ r₂ : List T} (p : T → Prop) (h₁ : ∀ t ∈ o₁ ++ r₁, p t)
    (h₂ : ∀ t ∈ o₂ ++ r₂, ¬ p t) :
    Once (o₁ ++ o₂) (r₁ ++ r₂) ↔ Once o₁ r₁ ∧ Once o₂ r₂ := by
  have ho₁ : ∀ t ∈ o₁, p t := fun t ht => h₁ t (List.mem_append_left _ ht)
  have ho₂ : ∀ t ∈ o₂, ¬ p t := fun t ht => h₂ t (List.mem_append_left _ ht)
  have hr₁ : ∀ t ∈ r₁, p t := fun t ht => h₁ t (List.mem_append_right _ ht)
  have hr₂ : ∀ t ∈ r₂, ¬ p t := fun t ht => h₂ t (List.mem_append_right _ ht)
  constructor
  · intro h
    obtain ⟨hnd₁, hnd₂, -⟩ := List.nodup_append'.mp h.nodup
    constructor
    · refine ⟨hnd₁, fun t ht => ?_⟩
      have hmem := h.all t (List.mem_append_left _ ht)
      exact (List.mem_append.mp hmem).resolve_right fun hr => hr₂ t hr (ho₁ t ht)
    · refine ⟨hnd₂, fun t ht => ?_⟩
      have hmem := h.all t (List.mem_append_right _ ht)
      exact (List.mem_append.mp hmem).resolve_left fun hr => ho₂ t ht (hr₁ t hr)
  · rintro ⟨ho, ho'⟩
    constructor
    · apply ho.nodup.append ho'.nodup
      intro t ht ht'
      exact hr₂ t ht' (hr₁ t ht)
    · intro t ht
      rcases List.mem_append.mp ht with ht | ht
      · exact List.mem_append_left _ (ho.all t ht)
      · exact List.mem_append_right _ (ho'.all t ht)

theorem once_map {f : T → U} (hf : Function.Injective f) {owned released : List T} :
    Once (owned.map f) (released.map f) ↔ Once owned released := by
  constructor
  · intro h
    refine ⟨(List.nodup_map_iff hf).mp h.nodup, fun t ht => ?_⟩
    have hmem := h.all (f t) (List.mem_map_of_mem ht)
    exact (List.mem_map_of_injective hf).mp hmem
  · intro h
    refine ⟨h.nodup.map hf, fun u hu => ?_⟩
    obtain ⟨t, ht, rfl⟩ := List.mem_map.mp hu
    exact List.mem_map_of_mem (h.all t ht)

/-! ## Lists of objects -/

/-- What the elements of a list own, each under its index. -/
def indexed (owned : A → List T) (xs : List A) : List (Nat × T) :=
  xs.zipIdx.flatMap fun p => (owned p.1).map (Prod.mk p.2)

def fromTail (released : A → List T) (xs : List A) : List (Nat × T) :=
  xs.zipIdx.reverse.flatMap fun p => (released p.1).map (Prod.mk p.2)

theorem fromTail_perm (released : A → List T) (xs : List A) :
    (fromTail released xs).Perm (indexed released xs) :=
  (List.reverse_perm xs.zipIdx).flatMap_right _

theorem mem_indexed {owned : A → List T} {xs : List A} {i : Nat} {t : T} :
    (i, t) ∈ indexed owned xs ↔ ∃ x, xs[i]? = some x ∧ t ∈ owned x := by
  unfold indexed
  rw [List.mem_flatMap]
  constructor
  · rintro ⟨⟨x, j⟩, hx, ht⟩
    obtain ⟨t', ht', heq⟩ := List.mem_map.mp ht
    obtain ⟨rfl, rfl⟩ := Prod.mk.inj heq
    exact ⟨x, List.mk_mem_zipIdx_iff_getElem?.mp hx, ht'⟩
  · rintro ⟨x, hx, ht⟩
    exact ⟨(x, i), List.mk_mem_zipIdx_iff_getElem?.mpr hx, List.mem_map_of_mem ht⟩

theorem nodup_indexed {owned : A → List T} {xs : List A} :
    (indexed owned xs).Nodup ↔ ∀ x ∈ xs, (owned x).Nodup := by
  have hinj : ∀ i : Nat, Function.Injective (Prod.mk i : T → Nat × T) :=
    fun i t t' h => (Prod.mk.inj h).2
  unfold indexed
  rw [List.nodup_flatMap]
  constructor
  · rintro ⟨h, -⟩ x hx
    obtain ⟨i, hi⟩ := List.mem_iff_getElem?.mp hx
    exact (List.nodup_map_iff (hinj i)).mp (h (x, i) (List.mk_mem_zipIdx_iff_getElem?.mpr hi))
  · intro h
    constructor
    · rintro ⟨x, i⟩ hx
      have hmem := List.mem_of_getElem? (List.mk_mem_zipIdx_iff_getElem?.mp hx)
      exact (h x hmem).map (hinj i)
    · -- the indices are different
      have hidx : (xs.zipIdx.map Prod.snd).Nodup := by
        rw [List.zipIdx_map_snd]
        exact List.nodup_range'
      apply (List.pairwise_map.mp hidx).imp
      intro p q hne t ht ht'
      obtain ⟨u, -, rfl⟩ := List.mem_map.mp ht
      obtain ⟨v, -, heq⟩ := List.mem_map.mp ht'
      exact hne (Prod.mk.inj heq).1.symm

theorem once_fromTail {owned released : A → List T} {xs : List A} :
    Once (indexed owned xs) (fromTail released xs) ↔ ∀ x ∈ xs, Once (owned x) (released x) := by
  rw [once_perm (fromTail_perm released xs)]
  constructor
  · intro h x hx
    refine ⟨nodup_indexed.mp h.nodup x hx, fun t ht => ?_⟩
    obtain ⟨i, hi⟩ := List.mem_iff_getElem?.mp hx
    obtain ⟨x', hx', ht'⟩ := mem_indexed.mp (h.all (i, t) (mem_indexed.mpr ⟨x, hi, ht⟩))
    obtain rfl := Option.some.inj (hi.symm.trans hx')
    exact ht'
  · intro h
    refine ⟨nodup_indexed.mpr fun x hx => (h x hx).nodup, ?_⟩
    rintro ⟨i, t⟩ ht
    obtain ⟨x, hx, ht'⟩ := mem_indexed.mp ht
    exact mem_indexed.mpr ⟨x, hx, (h x (List.mem_of_getElem? hx)).all t ht'⟩

end Ownership
