import Mathlib.Data.List.Basic

/-! A block of memory as the list of its cells. A cell nothing was stored in since `malloc`
is `none`; a store outside the block has no result. -/

abbrev Buffer (β : Type) := List (Option β)

namespace Buffer

variable {β : Type}

def filled (fresh : Option β) (xs : List β) (size : Nat) : Buffer β :=
  xs.map some ++ List.replicate (size - xs.length) fresh

def malloc (size : Nat) : Buffer β := filled none [] size

def calloc (zero : β) (size : Nat) : Buffer β := filled (some zero) [] size

def realloc (buf : Buffer β) (size : Nat) : Buffer β :=
  buf.take size ++ List.replicate (size - buf.length) none

def store (buf : Buffer β) (i : Nat) (x : β) : Option (Buffer β) :=
  if i < buf.length then some (buf.set i (some x)) else none

def storeAll (buf : Buffer β) (i : Nat) : List β → Option (Buffer β)
  | [] => some buf
  | x :: xs => (buf.store i x).bind fun buf => storeAll buf (i + 1) xs

variable (fresh : Option β) (xs : List β)

@[simp] theorem length_filled {size : Nat} (h : xs.length ≤ size) :
    (filled fresh xs size).length = size := by
  simp [filled, h]

theorem store_over {size : Nat} (zs : List β) (x : β) (h : xs.length < size) :
    (filled fresh (xs ++ zs) size).store xs.length x =
      some (filled fresh (xs ++ x :: zs.tail) size) := by
  have hroom : size - xs.length = (size - (xs.length + 1)) + 1 := by omega
  have hin : xs.length < (filled fresh (xs ++ zs) size).length := by
    simp only [filled, List.length_append, List.length_map, List.length_replicate]
    omega
  rw [store, if_pos hin]
  cases zs with
  | nil => simp [filled, hroom, List.replicate_succ]
  | cons z zs => simp [filled]

theorem storeAll_over {size : Nat} (zs ys : List β) (hzs : zs.length ≤ ys.length)
    (h : xs.length + ys.length ≤ size) :
    (filled fresh (xs ++ zs) size).storeAll xs.length ys = some (filled fresh (xs ++ ys) size) := by
  induction ys generalizing xs zs with
  | nil => rw [List.eq_nil_of_length_eq_zero (Nat.le_zero.mp hzs), storeAll]
  | cons y ys ih =>
    rw [List.length_cons] at h hzs
    have hlength : (xs ++ [y]).length = xs.length + 1 := List.length_append
    have hys : (xs ++ [y]).length + ys.length ≤ size := by omega
    have htail : zs.tail.length ≤ ys.length := by
      rw [List.length_tail]
      omega
    have hstep := ih (xs ++ [y]) zs.tail htail hys
    rw [hlength, List.append_assoc, List.append_assoc, List.singleton_append,
      List.singleton_append] at hstep
    rw [storeAll, store_over fresh xs zs y (by omega)]
    exact hstep

theorem storeAll_filled {size : Nat} (ys : List β) (h : xs.length + ys.length ≤ size) :
    (filled fresh xs size).storeAll xs.length ys = some (filled fresh (xs ++ ys) size) := by
  have hover := storeAll_over fresh xs [] ys (Nat.zero_le _) h
  rw [List.append_nil] at hover
  exact hover

theorem store_filled {size : Nat} (x : β) (h : xs.length < size) :
    (filled fresh xs size).store xs.length x = some (filled fresh (xs ++ [x]) size) := by
  have hover := store_over fresh xs [] x h
  rw [List.append_nil] at hover
  exact hover

theorem realloc_filled {size size' : Nat} (hxs : xs.length ≤ size) (h : size ≤ size') :
    (filled none xs size).realloc size' = filled none xs size' := by
  have hall : (filled none xs size).take size' = filled none xs size := by
    apply List.take_of_length_le
    rw [length_filled none xs hxs]
    exact h
  have hroom : size' - xs.length = (size - xs.length) + (size' - size) := by omega
  rw [realloc, hall, length_filled none xs hxs, filled, filled, hroom, List.replicate_add,
    List.append_assoc]

/-- The block has `size` cells, and `xs` at its front. What is behind is not known. -/
def Front (buf : Buffer β) (xs : List β) (size : Nat) : Prop :=
  buf.length = size ∧ ∃ rest, buf = xs.map some ++ rest

theorem Front.store {buf : Buffer β} {xs : List β} {size : Nat} (h : Front buf xs size)
    (hroom : xs.length < size) (x : β) :
    ∃ buf', buf.store xs.length x = some buf' ∧ Front buf' (xs ++ [x]) size := by
  obtain ⟨hlength, rest, rfl⟩ := h
  have hrest : (xs.map some).length + rest.length = size := by
    rw [← List.length_append, hlength]
  cases rest with
  | nil =>
    rw [List.length_map, List.length_nil] at hrest
    omega
  | cons y rest =>
    have hin : xs.length < (xs.map some ++ y :: rest).length := by rwa [hlength]
    refine ⟨_, by rw [Buffer.store, if_pos hin], ?_, rest, ?_⟩
    · rw [List.length_set, hlength]
    · rw [List.set_append_right _ _ (by simp)]
      simp

theorem Front.mono {buf : Buffer β} {xs ys : List β} {size : Nat} (h : Front buf (xs ++ ys) size) :
    Front buf xs size := by
  obtain ⟨hlength, rest, rfl⟩ := h
  exact ⟨hlength, ys.map some ++ rest, by rw [List.map_append, List.append_assoc]⟩

def Terminated (stop : β) (buf : Buffer β) (xs : List β) : Prop :=
  stop ∉ xs ∧ ∃ rest, buf = xs.map some ++ some stop :: rest

theorem terminated_filled {stop : β} {size : Nat} (h : stop ∉ xs) :
    Terminated stop (filled fresh (xs ++ [stop]) size) xs := by
  refine ⟨h, List.replicate (size - (xs ++ [stop]).length) fresh, ?_⟩
  rw [filled, List.map_append, List.append_assoc]
  rfl

/-- What stands at the front of a block is all that was stored in it. -/
theorem filled_inj {ys : List β} {size size' : Nat}
    (h : filled none xs size = filled none ys size') : xs = ys := by
  have hstored (zs : List β) (n : Nat) : (filled none zs n).reduceOption = zs := by
    show (zs.map some ++ List.replicate (n - zs.length) none).filterMap id = zs
    simp
  rw [← hstored xs size, h, hstored]

/-- What is read up to the first cell that `stop` holds of. There is nothing when that leads to a
cell nothing was stored in, or out of the block. -/
def readUntil (stop : β → Bool) : Buffer β → Option (List β)
  | some x :: buf => if stop x then some [] else (readUntil stop buf).map (x :: ·)
  | _ => none

theorem readUntil_filled {stop : β → Bool} {zero : β} (hzero : stop zero = true)
    (hxs : ∀ x ∈ xs, stop x = false) {size : Nat} (h : xs.length < size) :
    (filled (some zero) xs size).readUntil stop = some xs := by
  induction xs generalizing size with
  | nil =>
    obtain ⟨n, rfl⟩ := Nat.exists_eq_add_of_lt h
    rw [filled, List.length_nil, Nat.zero_add, Nat.sub_zero, List.replicate_succ]
    exact if_pos hzero
  | cons x xs ih =>
    rw [List.length_cons] at h
    obtain ⟨hx, hrest⟩ := List.forall_mem_cons.mp hxs
    have hread := ih hrest (show xs.length < size - 1 by omega)
    have hroom : size - (x :: xs).length = size - 1 - xs.length := by
      rw [List.length_cons]
      omega
    rw [filled] at hread
    rw [filled, hroom, List.map_cons, List.cons_append, readUntil, hx, hread]
    rfl

end Buffer
