import Plotnetcfg.Lib.Bytes

/-! Records of varying length one behind the other in a buffer, each starting at a multiple of
four bytes. A record tells its own length, header included. -/

namespace AlignedRecords

def align (n : Nat) : Nat := (n + 3) / 4 * 4

theorem le_align (n : Nat) : n ≤ align n := by
  unfold align
  omega

section
variable (hdr : Nat) (lenOf : List UInt8 → Nat)

def Fits (b : List UInt8) : Prop := hdr ≤ b.length ∧ hdr ≤ lenOf b ∧ lenOf b ≤ b.length

instance (b : List UInt8) : Decidable (Fits hdr lenOf b) := by
  unfold Fits
  infer_instance

def walk : Nat → List UInt8 → List (List UInt8)
  | 0, _ => []
  | fuel + 1, b => if Fits hdr lenOf b then b :: walk fuel (b.drop (align (lenOf b))) else []

/-- What follows each record's start, for the records the walk over the buffer visits. -/
def records (b : List UInt8) : List (List UInt8) := walk hdr lenOf b.length b

/-- The bytes tell their own length, whatever follows them. -/
def Framed (r : List UInt8) : Prop := hdr ≤ r.length ∧ ∀ rest, lenOf (r ++ rest) = r.length

structure Padded where
  body : List UInt8
  pad : List UInt8
  framed : Framed hdr lenOf body
  aligned : body.length + pad.length = align body.length

variable {hdr lenOf}

def Padded.bytes (r : Padded hdr lenOf) : List UInt8 := r.body ++ r.pad

def encode (rs : List (Padded hdr lenOf)) : List UInt8 := rs.flatMap Padded.bytes

/-- The fuel of the walk never runs out: every record takes some of the buffer. -/
theorem walk_fuel (hpos : 0 < hdr) {m n : Nat} {b : List UInt8} (hm : b.length ≤ m)
    (hn : b.length ≤ n) : walk hdr lenOf m b = walk hdr lenOf n b := by
  induction m generalizing n b with
  | zero =>
    cases n with
    | zero => rfl
    | succ n =>
      have hno : ¬ Fits hdr lenOf b := fun h => by have := h.1; omega
      simp only [walk, hno, if_false]
  | succ m ih =>
    by_cases hfits : Fits hdr lenOf b
    · have hdrop : (b.drop (align (lenOf b))).length < b.length := by
        have := le_align (lenOf b)
        obtain ⟨h1, h2, h3⟩ := hfits
        rw [List.length_drop]
        omega
      cases n with
      | zero => exact absurd hfits.1 (by omega)
      | succ n =>
        simp only [walk, hfits, if_true]
        have hm' := Nat.le_of_lt_succ (hdrop.trans_le hm)
        have hn' := Nat.le_of_lt_succ (hdrop.trans_le hn)
        exact congrArg _ (ih hm' hn')
    · cases n with
      | zero => simp only [walk, hfits, if_false]
      | succ n => simp only [walk, hfits, if_false]

theorem records_of_fits (hpos : 0 < hdr) {b : List UInt8} (h : Fits hdr lenOf b) :
    records hdr lenOf b = b :: records hdr lenOf (b.drop (align (lenOf b))) := by
  obtain ⟨n, hn⟩ : ∃ n, b.length = n + 1 := ⟨b.length - 1, by have := h.1; omega⟩
  have hdrop : (b.drop (align (lenOf b))).length ≤ n := by
    have := le_align (lenOf b)
    obtain ⟨h1, h2, h3⟩ := h
    rw [List.length_drop]
    omega
  simp only [records, hn, walk, h, if_true]
  rw [walk_fuel hpos hdrop le_rfl]

theorem records_of_not_fits {b : List UInt8} (h : ¬ Fits hdr lenOf b) :
    records hdr lenOf b = [] := by
  unfold records
  cases b.length with
  | zero => rfl
  | succ n => simp only [walk, h, if_false]

theorem fits_of_mem_walk {n : Nat} {b s : List UInt8} (h : s ∈ walk hdr lenOf n b) :
    Fits hdr lenOf s := by
  induction n generalizing b with
  | zero => simp [walk] at h
  | succ n ih =>
    rw [walk] at h
    split at h
    · rcases List.mem_cons.mp h with rfl | h
      · assumption
      · exact ih h
    · simp at h

theorem fits_of_mem_records {b s : List UInt8} (h : s ∈ records hdr lenOf b) :
    Fits hdr lenOf s :=
  fits_of_mem_walk h

theorem suffix_of_mem_walk {n : Nat} {b s : List UInt8} (h : s ∈ walk hdr lenOf n b) :
    s <:+ b := by
  induction n generalizing b with
  | zero => simp [walk] at h
  | succ n ih =>
    rw [walk] at h
    split at h
    · rcases List.mem_cons.mp h with rfl | h
      · exact List.suffix_rfl
      · exact (ih h).trans (List.drop_suffix _ _)
    · simp at h

theorem suffix_of_mem_records {b s : List UInt8} (h : s ∈ records hdr lenOf b) : s <:+ b :=
  suffix_of_mem_walk h

theorem records_bytes_append (hpos : 0 < hdr) (r : Padded hdr lenOf) (rest : List UInt8) :
    records hdr lenOf (r.bytes ++ rest) = (r.bytes ++ rest) :: records hdr lenOf rest := by
  have hlen : lenOf (r.bytes ++ rest) = r.body.length := by
    rw [Padded.bytes, List.append_assoc]
    exact r.framed.2 _
  have hfits : Fits hdr lenOf (r.bytes ++ rest) := by
    refine ⟨?_, hlen ▸ r.framed.1, ?_⟩
    · have := r.framed.1
      simp only [Padded.bytes, List.length_append]
      omega
    · rw [hlen]
      simp only [Padded.bytes, List.length_append]
      omega
  have hdrop : (r.bytes ++ rest).drop (align (lenOf (r.bytes ++ rest))) = rest := by
    rw [hlen]
    refine List.drop_left' ?_
    rw [Padded.bytes, List.length_append, r.aligned]
  rw [records_of_fits hpos hfits, hdrop]

theorem records_encode (hpos : 0 < hdr) (rs : List (Padded hdr lenOf)) :
    List.Forall₂ (fun s r => ∃ rest, s = r.body ++ rest) (records hdr lenOf (encode rs)) rs := by
  induction rs with
  | nil =>
    have hno : ¬ Fits hdr lenOf (encode ([] : List (Padded hdr lenOf))) := fun h => by
      have := h.1
      simp only [encode, List.flatMap_nil, List.length_nil] at this
      omega
    rw [records_of_not_fits hno]
    exact .nil
  | cons r rs ih =>
    have hcons : encode (r :: rs) = r.bytes ++ encode rs := rfl
    rw [hcons, records_bytes_append hpos]
    exact .cons ⟨r.pad ++ encode rs, List.append_assoc ..⟩ ih

end

end AlignedRecords
