import Plotnetcfg.Lib.Buffer
import Plotnetcfg.Netlink.Build

/-! The allocation behind a message (`netlink.c`): `nlmsg_alloc`, `nlmsg_realloc` and
`nlmsg_put_raw` on the memory of the buffer, with their signed and unsigned lengths. -/

namespace Plotnetcfg.Netlink

open Bytes AlignedRecords

def signed (n : Nat) : Int := if n < 2 ^ 31 then n else n - 2 ^ 32

def unsigned (i : Int) : Nat := (i % 2 ^ 32).toNat

theorem signed_eq {n : Nat} (h : n < 2 ^ 31) : signed n = n := if_pos h

theorem unsigned_eq {n : Nat} (h : n < 2 ^ 32) : unsigned n = n := by
  rw [unsigned]
  omega

theorem unsigned_signed {n : Nat} (h : n < 2 ^ 32) : unsigned (signed n) = n := by
  rw [unsigned, signed]
  split
  · omega
  · omega

def ENOMEM : Nat := 12

/-- The fields of `struct nlmsg` that describe its buffer, and the buffer. -/
structure RawMsg where
  buf : Buffer UInt8
  len : Int
  allocated : Int

namespace RawMsg

/-- The size that `nlmsg_realloc` takes the buffer to have. -/
def capacity (msg : RawMsg) : Nat := unsigned msg.allocated

/-- `nlmsg_alloc`, where both allocations succeed. -/
def nlmsgAlloc (size : Nat) : RawMsg where
  buf := Buffer.malloc size
  len := 0
  allocated := signed size

/-- `memset` and `memcpy` to an offset of the buffer. -/
def storeAt (buf : Buffer UInt8) (offset : Int) (bytes : List UInt8) : Option (Buffer UInt8) :=
  if 0 ≤ offset ∧ offset ≤ buf.length then buf.storeAll offset.toNat bytes else none

section
variable (realloc : Bool)

/-- `nlmsg_realloc`, whose `realloc` succeeds or not: what it returns, and the message then. -/
def nlmsgRealloc (msg : RawMsg) (minLen : Nat) : Option (Nat × RawMsg) :=
  if minLen ≤ msg.capacity then some (0, msg)
  else (growAlloc minLen 33 msg.capacity).map fun newAlloc =>
    if realloc then
      (0, { msg with buf := msg.buf.realloc newAlloc, allocated := signed newAlloc })
    else (ENOMEM, msg)

/-- `nlmsg_put_raw`; without a result the loop does not end, or bytes are stored outside of the
buffer. -/
def nlmsgPutRaw (msg : RawMsg) (data : List UInt8) (padding : Nat) : Option (Nat × RawMsg) :=
  let aligned := align (unsigned msg.len) % 2 ^ 32
  let newLen := (aligned + data.length + padding) % 2 ^ 32
  (nlmsgRealloc realloc msg newLen).bind fun (err, msg) =>
    if err ≠ 0 then some (err, msg)
    else
      (storeAt msg.buf msg.len (zeros (unsigned (aligned - msg.len)))).bind fun buf =>
      (storeAt buf aligned data).bind fun buf =>
      (if padding ≠ 0 then storeAt buf (aligned + data.length) (zeros padding)
        else some buf).map fun buf =>
      (0, { msg with buf := buf, len := signed newLen })

end

def total (msg : RawMsg) (data : List UInt8) (padding : Nat) : Nat :=
  align msg.len.toNat + data.length + padding

/-- The states of a message that was created with `size`, between the calls. -/
inductive Reached (size : Nat) : RawMsg → Prop
  | alloc : Reached size (nlmsgAlloc size)
  | put {msg msg' : RawMsg} {realloc : Bool} {data : List UInt8} {padding err : Nat} :
      Reached size msg → total msg data padding ≤ 2 ^ 30 →
      nlmsgPutRaw realloc msg data padding = some (err, msg') → Reached size msg'

def bytes (msg : RawMsg) : List UInt8 := (msg.buf.take msg.len.toNat).reduceOption

/-- What holds of a message between the calls: its block is as long as `nlmsg_realloc` takes it
to be, and all its bytes have been stored. -/
structure InBounds (size : Nat) (msg : RawMsg) : Prop where
  block : msg.buf.length = msg.capacity
  nonneg : 0 ≤ msg.len
  le_capacity : msg.len ≤ msg.capacity
  le_allocated : size < 2 ^ 31 → msg.len ≤ msg.allocated
  stored : ∀ i : Nat, i < msg.len → ∃ b, msg.buf[i]? = some (some b)

/-- How the capacity of a message changes for `minLen` bytes. -/
structure Doubled (minLen cap cap' : Nat) : Prop where
  enough : minLen ≤ cap'
  less : cap' = cap ∨ cap < cap' ∧ cap' < 2 * minLen
  loop : ∃ k, cap' = cap * 2 ^ k ∧ ∀ fuel, k < fuel → growAlloc minLen fuel cap = some cap'

structure PutDone (msg : RawMsg) (data : List UInt8) (padding : Nat) (msg' : RawMsg) : Prop where
  len : msg'.len = total msg data padding
  doubled : Doubled (total msg data padding) msg.capacity msg'.capacity
  kept : ∀ i : Nat, i < msg.len → msg'.buf[i]? = msg.buf[i]?
  bytes : msg'.bytes = (Netlink.nlmsgPutRaw ⟨msg.bytes, 0⟩ data padding).buf

/-! ## The loop -/

/-- As long as it has to grow, the size doubles without a wrap-around. -/
theorem growAlloc_doubles {minLen size : Nat} (hsize : 0 < size) (hmin : minLen ≤ 2 ^ 31) :
    ∃ k, minLen ≤ size * 2 ^ k ∧ (k ≠ 0 → size * 2 ^ k < 2 * minLen) ∧
      ∀ fuel, k < fuel → growAlloc minLen fuel size = some (size * 2 ^ k) := by
  by_cases hle : minLen ≤ size
  · refine ⟨0, by omega, by omega, fun fuel hfuel => ?_⟩
    obtain ⟨fuel, rfl⟩ := Nat.exists_eq_succ_of_ne_zero (Nat.ne_of_gt hfuel)
    rw [growAlloc, if_pos hle, Nat.pow_zero, Nat.mul_one]
  · have hmod : size * 2 % 2 ^ 32 = size * 2 := Nat.mod_eq_of_lt (by omega)
    have hdouble : 0 < size * 2 := by omega
    obtain ⟨k, henough, hless, hrun⟩ := growAlloc_doubles hdouble hmin
    have hpow : size * 2 ^ (k + 1) = size * 2 * 2 ^ k := by ring
    refine ⟨k + 1, ?_, fun _ => ?_, fun fuel hfuel => ?_⟩
    · rw [hpow]
      exact henough
    · rw [hpow]
      by_cases hk : k = 0
      · subst hk
        omega
      · exact hless hk
    · obtain ⟨fuel, rfl⟩ := Nat.exists_eq_succ_of_ne_zero (Nat.ne_of_gt (Nat.zero_lt_of_lt hfuel))
      rw [growAlloc, if_neg hle, hmod, hpow]
      exact hrun fuel (by omega)
termination_by minLen - size

theorem Doubled.growAlloc_eq {minLen cap cap' : Nat} (h : Doubled minLen cap cap')
    (hcap : 0 < cap) (hmin : minLen ≤ 2 ^ 30) : growAlloc minLen 33 cap = some cap' := by
  obtain ⟨k, hk, hrun⟩ := h.loop
  apply hrun
  rcases h.less with heq | ⟨-, hless⟩
  · have hone : 2 ^ k = 1 := by
      apply Nat.eq_of_mul_eq_mul_left hcap
      rw [← hk, heq, Nat.mul_one]
    have hzero : k = 0 := by simpa using hone
    omega
  · have hpow : 2 ^ k ≤ cap' := by
      rw [hk]
      exact Nat.le_mul_of_pos_left _ hcap
    have hlt : 2 ^ k < 2 ^ 31 := by omega
    have hexp : k < 31 := (Nat.pow_lt_pow_iff_right (by decide)).mp hlt
    omega

theorem doubled_exists {minLen cap : Nat} (hcap : 0 < cap) (hmin : minLen ≤ 2 ^ 30) :
    ∃ cap', Doubled minLen cap cap' := by
  have hmin' : minLen ≤ 2 ^ 31 := by omega
  obtain ⟨k, henough, hless, hrun⟩ := growAlloc_doubles hcap hmin'
  refine ⟨cap * 2 ^ k, henough, ?_, k, rfl, hrun⟩
  by_cases hk : k = 0
  · apply Or.inl
    rw [hk, Nat.pow_zero, Nat.mul_one]
  · apply Or.inr
    have hpow : 2 ≤ 2 ^ k := by
      have hle := Nat.pow_le_pow_right (n := 2) (by decide) (Nat.one_le_iff_ne_zero.mpr hk)
      simpa using hle
    have hmul := Nat.mul_le_mul_left cap hpow
    exact ⟨by omega, hless hk⟩

/-! ## The buffer -/

theorem storeAt_filled {xs ys : List UInt8} {cap : Nat} (h : xs.length + ys.length ≤ cap) :
    storeAt (Buffer.filled none xs cap) xs.length ys =
      some (Buffer.filled none (xs ++ ys) cap) := by
  have hlength : (Buffer.filled none xs cap).length = cap :=
    Buffer.length_filled none xs (by omega)
  rw [storeAt, if_pos (by omega), Int.toNat_natCast]
  exact Buffer.storeAll_filled none xs ys h

/-- The message holds `bytes`, in front of memory nothing was stored in. -/
structure Holds (size : Nat) (msg : RawMsg) (bytes : List UInt8) (cap : Nat) : Prop where
  buf : msg.buf = Buffer.filled none bytes cap
  len : msg.len = bytes.length
  allocated : msg.allocated = signed cap
  room : bytes.length ≤ cap
  short : bytes.length ≤ 2 ^ 30
  pos : 0 < cap
  word : cap < 2 ^ 32
  int : size < 2 ^ 31 → cap < 2 ^ 31

section
variable {size : Nat} {msg : RawMsg} {bytes data : List UInt8} {cap padding : Nat}

theorem holds_alloc (hsize : 1 ≤ size) (hword : size < 2 ^ 32) :
    Holds size (nlmsgAlloc size) [] size := by
  constructor
  · rfl
  · rfl
  · rfl
  · exact Nat.zero_le size
  · exact Nat.zero_le (2 ^ 30)
  · exact hsize
  · exact hword
  · exact id

namespace Holds

theorem capacity_eq (h : Holds size msg bytes cap) : msg.capacity = cap := by
  rw [capacity, h.allocated]
  exact unsigned_signed h.word

theorem unsigned_len (h : Holds size msg bytes cap) : unsigned msg.len = bytes.length := by
  have hshort := h.short
  rw [h.len]
  exact unsigned_eq (by omega)

theorem total_eq (h : Holds size msg bytes cap) :
    total msg data padding = align bytes.length + data.length + padding := by
  rw [total, h.len, Int.toNat_natCast]

theorem grown {minLen cap' : Nat} (h : Holds size msg bytes cap) (hmin : minLen ≤ 2 ^ 30)
    (hdoubled : Doubled minLen cap cap') :
    Holds size { msg with buf := msg.buf.realloc cap', allocated := signed cap' } bytes cap' := by
  have hroom := h.room
  have hword := h.word
  have hpos := h.pos
  have hint := h.int
  have hless := hdoubled.less
  constructor
  · show msg.buf.realloc cap' = _
    rw [h.buf]
    exact Buffer.realloc_filled bytes hroom (by omega)
  · exact h.len
  · rfl
  · omega
  · exact h.short
  · omega
  · omega
  · omega

theorem nlmsgRealloc {minLen : Nat} (realloc : Bool) (h : Holds size msg bytes cap)
    (hmin : minLen ≤ 2 ^ 30) :
    (nlmsgRealloc realloc msg minLen = some (ENOMEM, msg) ∧ realloc = false ∧ cap < minLen) ∨
      ∃ msg' cap', RawMsg.nlmsgRealloc realloc msg minLen = some (0, msg') ∧
        Holds size msg' bytes cap' ∧ Doubled minLen cap cap' := by
  obtain ⟨cap', hdoubled⟩ := doubled_exists h.pos hmin
  rw [RawMsg.nlmsgRealloc, h.capacity_eq]
  by_cases hle : minLen ≤ cap
  · apply Or.inr
    have hsame : Doubled minLen cap cap := by
      refine ⟨hle, Or.inl rfl, 0, (Nat.mul_one cap).symm, fun fuel hfuel => ?_⟩
      obtain ⟨fuel, rfl⟩ := Nat.exists_eq_succ_of_ne_zero (Nat.ne_of_gt hfuel)
      rw [growAlloc, if_pos hle]
    exact ⟨msg, cap, if_pos hle, h, hsame⟩
  · rw [if_neg hle, hdoubled.growAlloc_eq h.pos hmin, Option.map_some]
    cases realloc with
    | false => exact Or.inl ⟨rfl, rfl, Nat.lt_of_not_le hle⟩
    | true => exact Or.inr ⟨_, cap', rfl, h.grown hmin hdoubled, hdoubled⟩

theorem stores (h : Holds size msg bytes cap)
    (hroom : align bytes.length + data.length + padding ≤ cap)
    (htotal : align bytes.length + data.length + padding ≤ 2 ^ 30) :
    ∃ buf₁ buf₂ buf₃,
      storeAt msg.buf msg.len (zeros (align bytes.length - bytes.length)) = some buf₁ ∧
      storeAt buf₁ (align bytes.length : Nat) data = some buf₂ ∧
      (if padding ≠ 0 then
          storeAt buf₂ ((align bytes.length : Nat) + data.length) (zeros padding)
        else some buf₂) = some buf₃ ∧
      Holds size
        { msg with
          buf := buf₃
          len := signed (align bytes.length + data.length + padding) }
        (Netlink.nlmsgPutRaw ⟨bytes, 0⟩ data padding).buf cap := by
  have hle := le_align bytes.length
  have hgap : (bytes ++ zeros (align bytes.length - bytes.length)).length = align bytes.length := by
    rw [List.length_append, zeros, List.length_replicate]
    omega
  have hdata : (bytes ++ zeros (align bytes.length - bytes.length) ++ data).length =
      align bytes.length + data.length := by
    rw [List.length_append, hgap]
  have hall : (Netlink.nlmsgPutRaw ⟨bytes, 0⟩ data padding).buf.length =
      align bytes.length + data.length + padding := by
    rw [Netlink.nlmsgPutRaw, List.length_append, hdata, zeros, List.length_replicate]
  refine ⟨Buffer.filled none (bytes ++ zeros (align bytes.length - bytes.length)) cap,
    Buffer.filled none (bytes ++ zeros (align bytes.length - bytes.length) ++ data) cap,
    Buffer.filled none (Netlink.nlmsgPutRaw ⟨bytes, 0⟩ data padding).buf cap, ?_, ?_, ?_, ?_⟩
  · rw [h.buf, h.len]
    apply storeAt_filled
    rw [← List.length_append, hgap]
    omega
  · have hfits : (bytes ++ zeros (align bytes.length - bytes.length)).length + data.length ≤
        cap := by omega
    have hstore := storeAt_filled hfits
    rw [hgap] at hstore
    exact hstore
  · by_cases hpadding : padding = 0
    · rw [if_neg (by simpa using hpadding), Netlink.nlmsgPutRaw, hpadding]
      simp only [zeros, List.replicate_zero, List.append_nil]
    · have hoff : ((align bytes.length : Nat) : Int) + data.length =
          (bytes ++ zeros (align bytes.length - bytes.length) ++ data).length := by
        rw [hdata, Nat.cast_add]
      rw [if_pos hpadding, hoff]
      apply storeAt_filled
      rw [hdata, zeros, List.length_replicate]
      exact hroom
  · constructor
    · rfl
    · show signed (align bytes.length + data.length + padding) = _
      rw [hall]
      exact signed_eq (by omega)
    · exact h.allocated
    · rw [hall]
      exact hroom
    · rw [hall]
      exact htotal
    · exact h.pos
    · exact h.word
    · exact h.int

theorem nlmsgPutRaw (realloc : Bool) (h : Holds size msg bytes cap)
    (htotal : align bytes.length + data.length + padding ≤ 2 ^ 30) :
    (nlmsgPutRaw realloc msg data padding = some (ENOMEM, msg) ∧ realloc = false ∧
        cap < align bytes.length + data.length + padding) ∨
      ∃ msg' cap', RawMsg.nlmsgPutRaw realloc msg data padding = some (0, msg') ∧
        Holds size msg' (Netlink.nlmsgPutRaw ⟨bytes, 0⟩ data padding).buf cap' ∧
        Doubled (align bytes.length + data.length + padding) cap cap' := by
  have hle := le_align bytes.length
  have haligned : align (unsigned msg.len) % 2 ^ 32 = align bytes.length := by
    rw [h.unsigned_len, Nat.mod_eq_of_lt (by omega)]
  have hnew : (align bytes.length + data.length + padding) % 2 ^ 32 =
      align bytes.length + data.length + padding := Nat.mod_eq_of_lt (by omega)
  have hgap : unsigned ((align bytes.length : Nat) - (bytes.length : Int)) =
      align bytes.length - bytes.length := by
    rw [← Nat.cast_sub hle]
    exact unsigned_eq (by omega)
  rw [RawMsg.nlmsgPutRaw, haligned, hnew]
  rcases h.nlmsgRealloc realloc htotal with ⟨hrun, hfails⟩ | ⟨msg', cap', hrun, h', hdoubled⟩
  · apply Or.inl
    refine ⟨?_, hfails⟩
    rw [hrun]
    rfl
  · apply Or.inr
    obtain ⟨buf₁, buf₂, buf₃, h₁, h₂, h₃, hstored⟩ := h'.stores hdoubled.enough htotal
    refine ⟨_, cap', ?_, hstored, hdoubled⟩
    rw [hrun, Option.bind_some]
    simp only [ne_eq, not_true_eq_false, if_false]
    rw [h'.len, hgap, ← h'.len, h₁, Option.bind_some, h₂, Option.bind_some, h₃]
    rfl

end Holds

theorem Reached.holds (hsize : 1 ≤ size) (hword : size < 2 ^ 32) (h : Reached size msg) :
    ∃ bytes cap, Holds size msg bytes cap := by
  induction h with
  | alloc => exact ⟨[], size, holds_alloc hsize hword⟩
  | @put msg msg' realloc data padding err _ htotal hrun ih =>
    obtain ⟨bytes, cap, hholds⟩ := ih
    rw [hholds.total_eq] at htotal
    rcases hholds.nlmsgPutRaw realloc htotal with ⟨hfails, -⟩ | ⟨msg'', cap', hputs, hholds', -⟩
    · rw [hfails] at hrun
      cases hrun
      exact ⟨bytes, cap, hholds⟩
    · rw [hputs] at hrun
      cases hrun
      exact ⟨_, cap', hholds'⟩

namespace Holds

theorem cell (h : Holds size msg bytes cap) {i : Nat} (hi : i < bytes.length) :
    msg.buf[i]? = some bytes[i]? := by
  rw [h.buf, Buffer.filled, List.getElem?_append_left (by rw [List.length_map]; exact hi),
    List.getElem?_map, List.getElem?_eq_getElem hi]
  rfl

theorem bytes_eq (h : Holds size msg bytes cap) : msg.bytes = bytes := by
  have hlength : (bytes.map some).length = bytes.length := List.length_map _
  rw [RawMsg.bytes, h.buf, h.len, Int.toNat_natCast, Buffer.filled, List.take_left' hlength]
  show (bytes.map some).filterMap id = bytes
  simp

theorem inBounds (h : Holds size msg bytes cap) : InBounds size msg := by
  have hroom := h.room
  constructor
  · rw [h.capacity_eq, h.buf]
    exact Buffer.length_filled none bytes hroom
  · rw [h.len]
    exact Int.natCast_nonneg _
  · rw [h.len, h.capacity_eq]
    exact Int.ofNat_le.mpr hroom
  · intro hint
    rw [h.len, h.allocated, signed_eq (h.int hint)]
    exact Int.ofNat_le.mpr hroom
  · intro i hi
    rw [h.len] at hi
    have hlt : i < bytes.length := Int.ofNat_lt.mp hi
    exact ⟨bytes[i], by rw [h.cell hlt, List.getElem?_eq_getElem hlt]⟩

theorem putDone {msg' : RawMsg} {cap' : Nat} (h : Holds size msg bytes cap)
    (h' : Holds size msg' (Netlink.nlmsgPutRaw ⟨bytes, 0⟩ data padding).buf cap')
    (hdoubled : Doubled (align bytes.length + data.length + padding) cap cap') :
    PutDone msg data padding msg' := by
  have hle := le_align bytes.length
  have hall : (Netlink.nlmsgPutRaw ⟨bytes, 0⟩ data padding).buf.length =
      align bytes.length + data.length + padding := by
    simp only [Netlink.nlmsgPutRaw, zeros, List.length_append, List.length_replicate]
    omega
  constructor
  · rw [h'.len, hall, h.total_eq]
  · rw [h.total_eq, h.capacity_eq, h'.capacity_eq]
    exact hdoubled
  · intro i hi
    rw [h.len] at hi
    have hlt : i < bytes.length := Int.ofNat_lt.mp hi
    rw [h.cell hlt, h'.cell (by omega), Netlink.nlmsgPutRaw]
    simp only [List.append_assoc]
    rw [List.getElem?_append_left hlt]
  · rw [h.bytes_eq, h'.bytes_eq]

end Holds

/-- In every state the bounds hold, and the next call ends, stores inside the buffer and either
extends the message or leaves it as it is. -/
theorem nlmsgPutRaw_grows (hsize : 1 ≤ size) (hword : size < 2 ^ 32) (h : Reached size msg) :
    InBounds size msg ∧
      ∀ realloc data padding, total msg data padding ≤ 2 ^ 30 →
        ∃ err msg', nlmsgPutRaw realloc msg data padding = some (err, msg') ∧
          InBounds size msg' ∧
          (err = ENOMEM ∧ msg' = msg ∧ realloc = false ∧ msg.capacity < total msg data padding ∨
            err = 0 ∧ PutDone msg data padding msg') := by
  obtain ⟨bytes, cap, hholds⟩ := h.holds hsize hword
  refine ⟨hholds.inBounds, fun realloc data padding htotal => ?_⟩
  have hcap := hholds.capacity_eq
  have heq : total msg data padding = align bytes.length + data.length + padding :=
    hholds.total_eq
  rw [heq] at htotal
  rcases hholds.nlmsgPutRaw realloc htotal with ⟨hrun, hrealloc, hless⟩ | ⟨msg', cap', hrun, h', hd⟩
  · refine ⟨ENOMEM, msg, hrun, hholds.inBounds, Or.inl ⟨rfl, rfl, hrealloc, ?_⟩⟩
    rw [hcap, heq]
    exact hless
  · exact ⟨0, msg', hrun, h'.inBounds, Or.inr ⟨rfl, hholds.putDone h' hd⟩⟩

end

theorem nlmsgPutRaw_grows_received : ∃ msg err msg', Reached 20 msg ∧
    nlmsgPutRaw true msg [1, 2, 3, 4, 5] 7 = some (err, msg') ∧ msg'.len = 32 ∧
      msg'.capacity = 40 := by
  have hfirst : ∃ msg, nlmsgPutRaw true (nlmsgAlloc 20) (zeros 20) 0 = some (0, msg) ∧
      msg.len = 20 ∧ msg.capacity = 20 := by
    refine ⟨_, rfl, ?_, ?_⟩
    · decide
    · decide
  obtain ⟨msg, hput, hlen, hcap⟩ := hfirst
  have hreached : Reached 20 msg := .put .alloc (by decide) hput
  have htotal : total msg [1, 2, 3, 4, 5] 7 = 32 := by
    rw [total, hlen]
    rfl
  obtain ⟨-, hcalls⟩ := nlmsgPutRaw_grows (by decide) (by decide) hreached
  obtain ⟨err, msg', hrun, -, hfailed | ⟨-, hdone⟩⟩ := hcalls true [1, 2, 3, 4, 5] 7 (by omega)
  · exact absurd hfailed.2.2.1 (by decide)
  · refine ⟨msg, err, msg', hreached, hrun, ?_, ?_⟩
    · rw [hdone.len, htotal]
      rfl
    · have hrun₂ := hdone.doubled.growAlloc_eq (by omega) (by omega)
      rw [htotal, hcap] at hrun₂
      have hforty : growAlloc 32 33 20 = some 40 := by decide
      rw [hforty] at hrun₂
      exact (Option.some.inj hrun₂).symm

theorem nlmsgAlloc_negative : ∃ msg, Reached (2 ^ 31) msg ∧ msg.len = 0 ∧
    msg.allocated = -2 ^ 31 ∧ ¬ msg.len ≤ msg.allocated := by
  have hneg : (nlmsgAlloc (2 ^ 31)).allocated = -2 ^ 31 := by decide
  refine ⟨nlmsgAlloc (2 ^ 31), .alloc, rfl, hneg, ?_⟩
  rw [hneg]
  decide

end RawMsg

end Plotnetcfg.Netlink
