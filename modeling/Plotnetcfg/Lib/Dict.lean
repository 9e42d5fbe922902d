import Mathlib.Data.List.Basic
import Mathlib.Data.List.Nodup

/-! Dictionaries as association lists. Setting a key replaces its value where it stands and
otherwise adds it at the end; `List.lookup` reads it. -/

namespace Dict

variable {K V α : Type*} [BEq K]

def set : List (K × V) → K → V → List (K × V)
  | [], k, v => [(k, v)]
  | (k', v') :: d, k, v => if k' == k then (k, v) :: d else (k', v') :: set d k v

def setOpt (d : List (K × V)) (k : K) (v : Option V) : List (K × V) :=
  match v with
  | none => d
  | some v => set d k v

/-- One entry for each element of a list, later ones replacing earlier ones. -/
def collect (key : α → K) (val : α → Option V) (l : List α) (d : List (K × V)) : List (K × V) :=
  l.foldl (fun d a => setOpt d (key a) (val a)) d

variable [LawfulBEq K]

theorem lookup_cons_self (k : K) (v : V) (d : List (K × V)) : ((k, v) :: d).lookup k = some v := by
  simp

theorem lookup_cons_of_ne {k k' : K} (h : k ≠ k') (v : V) (d : List (K × V)) :
    ((k', v) :: d).lookup k = d.lookup k := by
  rw [List.lookup_cons, beq_eq_false_iff_ne.mpr h]

theorem set_append_cons {d : List (K × V)} {k : K} (h : k ∉ d.map Prod.fst) (old v : V)
    (d' : List (K × V)) : set (d ++ (k, old) :: d') k v = d ++ (k, v) :: d' := by
  induction d with
  | nil => exact if_pos (beq_self_eq_true k)
  | cons kv d ih =>
    obtain ⟨hne, hrest⟩ := not_or.mp (mt List.mem_cons.mpr h)
    rw [List.cons_append, set, if_neg (mt beq_iff_eq.mp (Ne.symm hne)), ih hrest]
    rfl

theorem set_of_notMem {d : List (K × V)} {k : K} (h : k ∉ d.map Prod.fst) (v : V) :
    set d k v = d ++ [(k, v)] := by
  induction d with
  | nil => rfl
  | cons kv d ih =>
    obtain ⟨hne, hrest⟩ := not_or.mp (mt List.mem_cons.mpr h)
    rw [set, if_neg (mt beq_iff_eq.mp (Ne.symm hne)), ih hrest]
    rfl

omit [BEq K] [LawfulBEq K] in
/-- The first entry of a key that is there. -/
theorem exists_first {d : List (K × V)} {k : K} (h : k ∈ d.map Prod.fst) :
    ∃ pre kv post, d = pre ++ kv :: post ∧ kv.1 = k ∧ k ∉ pre.map Prod.fst := by
  obtain ⟨keys, keys', hsplit, hnew⟩ := List.eq_append_cons_of_mem h
  obtain ⟨pre, rest, rfl, rfl, hrest⟩ := List.map_eq_append_iff.mp hsplit
  obtain ⟨kv, post, rfl, hkv, -⟩ := List.map_eq_cons_iff.mp hrest
  exact ⟨pre, kv, post, rfl, hkv, hnew⟩

theorem lookup_set_self (d : List (K × V)) (k : K) (v : V) : (set d k v).lookup k = some v := by
  induction d with
  | nil => exact lookup_cons_self k v []
  | cons kv d ih =>
    obtain ⟨k₀, v₀⟩ := kv
    rw [set]
    by_cases h₀ : k₀ = k
    · rw [if_pos (beq_iff_eq.mpr h₀), lookup_cons_self]
    · rw [if_neg (mt beq_iff_eq.mp h₀), lookup_cons_of_ne (Ne.symm h₀), ih]

theorem lookup_set_of_ne (d : List (K × V)) {k k' : K} (h : k' ≠ k) (v : V) :
    (set d k v).lookup k' = d.lookup k' := by
  induction d with
  | nil => exact lookup_cons_of_ne h v []
  | cons kv d ih =>
    obtain ⟨k₀, v₀⟩ := kv
    rw [set]
    by_cases h₀ : k₀ = k
    · subst h₀
      rw [if_pos (beq_self_eq_true k₀), lookup_cons_of_ne h, lookup_cons_of_ne h]
    · rw [if_neg (mt beq_iff_eq.mp h₀)]
      by_cases h' : k' = k₀
      · subst h'
        rw [lookup_cons_self, lookup_cons_self]
      · rw [lookup_cons_of_ne h', lookup_cons_of_ne h', ih]

theorem lookup_setOpt_self (d : List (K × V)) (k : K) (v : Option V) :
    (setOpt d k v).lookup k = v.or (d.lookup k) := by
  cases v with
  | none => rfl
  | some v => exact lookup_set_self d k v

theorem lookup_setOpt_of_ne (d : List (K × V)) {k k' : K} (h : k' ≠ k) (v : Option V) :
    (setOpt d k v).lookup k' = d.lookup k' := by
  cases v with
  | none => rfl
  | some v => exact lookup_set_of_ne d h v

theorem lookup_filter (keep : K → Bool) (d : List (K × V)) (k : K) :
    (d.filter fun p => keep p.1).lookup k = if keep k then d.lookup k else none := by
  induction d with
  | nil => simp
  | cons kv d ih =>
    obtain ⟨k₀, v₀⟩ := kv
    rw [List.filter_cons]
    by_cases h₀ : k = k₀
    · subst h₀
      split_ifs with hkeep
      · rw [lookup_cons_self, lookup_cons_self]
      · rw [ih, if_neg hkeep]
    · rw [lookup_cons_of_ne h₀]
      split_ifs with hkeep hkey hkey
      · rw [lookup_cons_of_ne h₀, ih, if_pos hkey]
      · rw [lookup_cons_of_ne h₀, ih, if_neg hkey]
      · rw [ih, if_pos hkey]
      · rw [ih, if_neg hkey]

theorem lookup_map (f : K → V → V) (d : List (K × V)) (k : K) :
    (d.map fun p => (p.1, f p.1 p.2)).lookup k = (d.lookup k).map (f k) := by
  induction d with
  | nil => rfl
  | cons kv d ih =>
    obtain ⟨k₀, v₀⟩ := kv
    rw [List.map_cons]
    by_cases h₀ : k = k₀
    · subst h₀
      rw [lookup_cons_self, lookup_cons_self, Option.map_some]
    · rw [lookup_cons_of_ne h₀, lookup_cons_of_ne h₀, ih]

theorem mem_keys_set {d : List (K × V)} {k k' : K} {v : V}
    (h : k' ∈ (set d k v).map Prod.fst) : k' = k ∨ k' ∈ d.map Prod.fst := by
  induction d with
  | nil => exact .inl (List.mem_singleton.mp h)
  | cons kv d ih =>
    obtain ⟨k₀, v₀⟩ := kv
    rw [set] at h
    by_cases h₀ : k₀ = k
    · rw [if_pos (beq_iff_eq.mpr h₀), List.map_cons, List.mem_cons] at h
      exact h.imp_right (List.mem_cons_of_mem _)
    · rw [if_neg (mt beq_iff_eq.mp h₀), List.map_cons, List.mem_cons] at h
      rcases h with rfl | h
      · exact .inr List.mem_cons_self
      · exact (ih h).imp_right (List.mem_cons_of_mem _)

theorem mem_set {d : List (K × V)} {k : K} {v : V} {p : K × V} (h : p ∈ set d k v) :
    p = (k, v) ∨ p ∈ d := by
  induction d with
  | nil => exact .inl (List.mem_singleton.mp h)
  | cons kv d ih =>
    obtain ⟨k₀, v₀⟩ := kv
    rw [set] at h
    by_cases h₀ : k₀ = k
    · rw [if_pos (beq_iff_eq.mpr h₀), List.mem_cons] at h
      exact h.imp_right (List.mem_cons_of_mem _)
    · rw [if_neg (mt beq_iff_eq.mp h₀), List.mem_cons] at h
      rcases h with rfl | h
      · exact .inr List.mem_cons_self
      · exact (ih h).imp_right (List.mem_cons_of_mem _)

theorem nodup_set {d : List (K × V)} (h : (d.map Prod.fst).Nodup) (k : K) (v : V) :
    ((set d k v).map Prod.fst).Nodup := by
  induction d with
  | nil => exact List.nodup_singleton k
  | cons kv d ih =>
    obtain ⟨k₀, v₀⟩ := kv
    have ⟨hnot, hd⟩ := List.nodup_cons.mp h
    rw [set]
    by_cases h₀ : k₀ = k
    · subst h₀
      rw [if_pos (beq_self_eq_true k₀)]
      exact h
    · rw [if_neg (mt beq_iff_eq.mp h₀)]
      refine List.nodup_cons.mpr ⟨fun hmem => ?_, ih hd⟩
      exact (mem_keys_set hmem).elim h₀ hnot

theorem mem_iff_lookup {d : List (K × V)} (h : (d.map Prod.fst).Nodup) (k : K) (v : V) :
    (k, v) ∈ d ↔ d.lookup k = some v := by
  induction d with
  | nil => simp
  | cons kv d ih =>
    obtain ⟨k₀, v₀⟩ := kv
    have ⟨hnot, hd⟩ := List.nodup_cons.mp h
    by_cases h₀ : k = k₀
    · subst h₀
      have hmem : (k, v) ∉ d := fun hmem => hnot (List.mem_map.mpr ⟨(k, v), hmem, rfl⟩)
      simp [hmem, eq_comm]
    · rw [lookup_cons_of_ne h₀, List.mem_cons, ih hd]
      simp [h₀]

section
variable (key : α → K) (val : α → Option V)

theorem nodup_collect (l : List α) {d : List (K × V)} (h : (d.map Prod.fst).Nodup) :
    ((collect key val l d).map Prod.fst).Nodup := by
  induction l generalizing d with
  | nil => exact h
  | cons a l ih =>
    apply ih
    dsimp only
    cases val a with
    | none => exact h
    | some v => exact nodup_set h (key a) v

theorem lookup_collect_of_forall_ne {l : List α} {k : K} (h : ∀ a ∈ l, key a ≠ k)
    (d : List (K × V)) : (collect key val l d).lookup k = d.lookup k := by
  induction l generalizing d with
  | nil => rfl
  | cons a l ih =>
    have hstep := ih (fun b hb => h b (List.mem_cons_of_mem a hb)) (setOpt d (key a) (val a))
    rw [collect, List.foldl_cons, ← collect, hstep]
    exact lookup_setOpt_of_ne d (h a List.mem_cons_self).symm _

theorem lookup_collect_of_mem {l : List α} {x : α} (h : ∀ a ∈ l, key a = key x → a = x)
    (hx : x ∈ l) (d : List (K × V)) :
    (collect key val l d).lookup (key x) = (val x).or (d.lookup (key x)) := by
  induction l generalizing d with
  | nil => simp at hx
  | cons a l ih =>
    have htail : ∀ b ∈ l, key b = key x → b = x := fun b hb => h b (List.mem_cons_of_mem a hb)
    rw [collect, List.foldl_cons, ← collect]
    by_cases ha : a = x
    · subst ha
      by_cases hmem : a ∈ l
      · rw [ih htail hmem, lookup_setOpt_self]
        cases val a <;> rfl
      · have hne : ∀ b ∈ l, key b ≠ key a := fun b hb hk => hmem (htail b hb hk ▸ hb)
        rw [lookup_collect_of_forall_ne key val hne, lookup_setOpt_self]
    · have hmem : x ∈ l := (List.mem_cons.mp hx).resolve_left (Ne.symm ha)
      have hne : key x ≠ key a := fun hk => ha (h a List.mem_cons_self hk.symm)
      rw [ih htail hmem, lookup_setOpt_of_ne d hne]

theorem exists_of_mem_collect {l : List α} {d : List (K × V)} {k : K} {v : V}
    (h : (k, v) ∈ collect key val l d) : (∃ a ∈ l, key a = k ∧ val a = some v) ∨ (k, v) ∈ d := by
  induction l generalizing d with
  | nil => exact .inr h
  | cons a l ih =>
    rcases ih h with ⟨b, hb, hentry⟩ | hmem
    · exact .inl ⟨b, List.mem_cons_of_mem a hb, hentry⟩
    · cases hval : val a with
      | none =>
        dsimp only at hmem
        rw [hval] at hmem
        exact .inr hmem
      | some v' =>
        dsimp only at hmem
        rw [hval] at hmem
        rcases mem_set hmem with heq | hmem
        · obtain ⟨rfl, rfl⟩ := Prod.mk.inj heq
          exact .inl ⟨a, List.mem_cons_self, rfl, hval⟩
        · exact .inr hmem

theorem mem_collect {l : List α} (h : ∀ a ∈ l, ∀ b ∈ l, key a = key b → a = b) (k : K) (v : V) :
    (k, v) ∈ collect key val l [] ↔ ∃ a ∈ l, key a = k ∧ val a = some v := by
  have hnodup : ((collect key val l []).map Prod.fst).Nodup := nodup_collect key val l List.nodup_nil
  rw [mem_iff_lookup hnodup]
  constructor
  · intro hlookup
    by_cases hkey : ∀ a ∈ l, key a ≠ k
    · rw [lookup_collect_of_forall_ne key val hkey] at hlookup
      cases hlookup
    · push Not at hkey
      obtain ⟨a, ha, rfl⟩ := hkey
      rw [lookup_collect_of_mem key val (fun b hb => h b hb a ha) ha] at hlookup
      exact ⟨a, ha, rfl, by simpa using hlookup⟩
  · rintro ⟨a, ha, rfl, hval⟩
    rw [lookup_collect_of_mem key val (fun b hb => h b hb a ha) ha, hval]
    rfl

end

end Dict
