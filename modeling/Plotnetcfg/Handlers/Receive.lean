import Plotnetcfg.Lib.Buffer
import Mathlib.Data.List.TakeDrop
import Mathlib.Data.Int.Cast.Lemmas

/-! How a reply is read from a socket: `read_all` of the Open vSwitch handler reads from a
stream, `team_recv` of the team handler reads packets. -/

namespace Plotnetcfg.Handlers

/-- A call of `read`: the bytes it stores, none at the end of the file. -/
inductive Read where
  | data (bytes : List UInt8)
  | error

inductive Recv where
  /-- A store outside the buffer. -/
  | outside
  /-- A `read` that does not return. -/
  | blocked
  | null
  | string (buf : Buffer UInt8)

/-- The string is `s`, with its NUL; no other byte of the buffer was stored to. -/
def Recv.Returns (r : Recv) (s : List UInt8) : Prop :=
  ∃ size, r = .string (Buffer.filled none (s ++ [0]) size)

theorem Recv.returns_string {s t : List UInt8} {size : Nat} :
    (Recv.string (Buffer.filled none (t ++ [0]) size)).Returns s ↔ t = s := by
  constructor
  · rintro ⟨size', h⟩
    exact List.append_cancel_right (Buffer.filled_inj _ (Recv.string.inj h))
  · intro h
    subst h
    exact ⟨size, rfl⟩

theorem Recv.not_returns_null (s : List UInt8) : ¬ Recv.null.Returns s := by
  rintro ⟨_, h⟩
  cases h

theorem Recv.not_returns_blocked (s : List UInt8) : ¬ Recv.blocked.Returns s := by
  rintro ⟨_, h⟩
  cases h

/-- `buf[len] = '\0'`, and the buffer is returned. -/
def terminate (buf : Buffer UInt8) (len : Nat) : Recv :=
  match buf.store len 0 with
  | none => .outside
  | some buf => .string buf

theorem terminate_filled {xs : List UInt8} {size : Nat} (h : xs.length < size) :
    terminate (Buffer.filled none xs size) xs.length =
      .string (Buffer.filled none (xs ++ [0]) size) := by
  rw [terminate, Buffer.store_filled none xs 0 h]

/-! ## `read_all` -/

def CHUNK : Nat := 65536

section
-- whether an allocation of so many bytes succeeds; no two of a run ask for the same
variable (malloc : Nat → Bool)

def readLoop : List Read → Buffer UInt8 → Nat → Recv
  | [], _, _ => .blocked
  | .error :: _, _, _ => .null
  | .data bytes :: reads, buf, len =>
    match buf.storeAll len bytes with
    | none => .outside
    | some buf =>
      if bytes.length < CHUNK then terminate buf (len + bytes.length)
      else if !malloc (len + bytes.length + CHUNK) then .null
      else readLoop reads (buf.realloc (len + bytes.length + CHUNK)) (len + bytes.length)

def readAll (reads : List Read) : Recv :=
  if !malloc CHUNK then .null else readLoop malloc reads (Buffer.malloc CHUNK) 0

theorem readAll_eq {malloc : Nat → Bool} (h : malloc CHUNK = true) (reads : List Read) :
    readAll malloc reads = readLoop malloc reads (Buffer.filled none [] CHUNK) 0 := by
  rw [readAll, h]
  rfl

section
variable (xs : List UInt8) {bytes : List UInt8} (reads : List Read)

theorem readLoop_short (h : bytes.length < CHUNK) :
    readLoop malloc (.data bytes :: reads) (Buffer.filled none xs (xs.length + CHUNK)) xs.length =
      .string (Buffer.filled none (xs ++ bytes ++ [0]) (xs.length + CHUNK)) := by
  have hlength : (xs ++ bytes).length = xs.length + bytes.length := List.length_append
  have hroom : (xs ++ bytes).length < xs.length + CHUNK := by omega
  have hstore := Buffer.storeAll_filled none xs bytes (Nat.add_le_add_left (Nat.le_of_lt h) _)
  simp only [readLoop, hstore, if_pos h]
  rw [← hlength, terminate_filled hroom]

theorem readLoop_full (h : bytes.length = CHUNK) :
    readLoop malloc (.data bytes :: reads) (Buffer.filled none xs (xs.length + CHUNK)) xs.length =
      if malloc ((xs ++ bytes).length + CHUNK) then
        readLoop malloc reads (Buffer.filled none (xs ++ bytes) ((xs ++ bytes).length + CHUNK))
          (xs ++ bytes).length
      else .null := by
  have hlength : (xs ++ bytes).length = xs.length + bytes.length := List.length_append
  have hroom : xs.length + bytes.length ≤ xs.length + CHUNK := by omega
  have hstore := Buffer.storeAll_filled none xs bytes hroom
  have hrealloc : (Buffer.filled none (xs ++ bytes) (xs.length + CHUNK)).realloc
      ((xs ++ bytes).length + CHUNK) =
        Buffer.filled none (xs ++ bytes) ((xs ++ bytes).length + CHUNK) :=
    Buffer.realloc_filled (xs ++ bytes) (by omega) (by omega)
  simp only [readLoop, hstore, if_neg (Nat.not_lt.mpr (Nat.le_of_eq h.symm))]
  rw [← hlength, hrealloc]
  cases malloc ((xs ++ bytes).length + CHUNK)
  · rfl
  · rfl

end

def Read.Within (n : Nat) (r : Read) : Prop := ∀ bytes, r = .data bytes → bytes.length ≤ n

theorem readLoop_ne_outside {reads : List Read} (h : ∀ r ∈ reads, r.Within CHUNK)
    (xs : List UInt8) :
    readLoop malloc reads (Buffer.filled none xs (xs.length + CHUNK)) xs.length ≠ .outside := by
  induction reads generalizing xs with
  | nil =>
    intro hout
    cases hout
  | cons r reads ih =>
    rcases r with bytes | _
    · have hbytes : bytes.length ≤ CHUNK := h _ List.mem_cons_self bytes rfl
      have hreads : ∀ r ∈ reads, r.Within CHUNK := fun r hr => h r (List.mem_cons_of_mem _ hr)
      rcases Nat.lt_or_eq_of_le hbytes with hshort | hfull
      · rw [readLoop_short malloc xs reads hshort]
        intro hout
        cases hout
      · rw [readLoop_full malloc xs reads hfull]
        split
        · exact ih hreads _
        · intro hout
          cases hout
    · intro hout
      cases hout

theorem readLoop_prefix {reads : List Read} (h : ∀ r ∈ reads, r.Within CHUNK)
    {xs s : List UInt8}
    (hs : (readLoop malloc reads (Buffer.filled none xs (xs.length + CHUNK))
      xs.length).Returns s) : xs <+: s := by
  induction reads generalizing xs with
  | nil => exact absurd hs (Recv.not_returns_blocked s)
  | cons r reads ih =>
    rcases r with bytes | _
    · have hbytes : bytes.length ≤ CHUNK := h _ List.mem_cons_self bytes rfl
      have hreads : ∀ r ∈ reads, r.Within CHUNK := fun r hr => h r (List.mem_cons_of_mem _ hr)
      rcases Nat.lt_or_eq_of_le hbytes with hshort | hfull
      · rw [readLoop_short malloc xs reads hshort, Recv.returns_string] at hs
        exact ⟨bytes, hs⟩
      · rw [readLoop_full malloc xs reads hfull] at hs
        split at hs
        · exact (List.prefix_append xs bytes).trans (ih hreads hs)
        · exact absurd hs (Recv.not_returns_null s)
    · exact absurd hs (Recv.not_returns_null s)

/-- A reply in the pieces that `read` returns it in, and what the reads after it return. -/
structure Cut (reply : List UInt8) where
  segs : List (List UInt8)
  later : List Read
  flatten_segs : segs.flatten = reply
  size : ∀ seg ∈ segs, 1 ≤ seg.length ∧ seg.length ≤ CHUNK
  size_later : ∀ r ∈ later, r.Within CHUNK

namespace Cut

variable {reply : List UInt8} (cut : Cut reply)

def reads : List Read := cut.segs.map Read.data ++ cut.later

def EndsShort (segs : List (List UInt8)) (later : List Read) : Prop :=
  (∀ seg ∈ segs.dropLast, seg.length = CHUNK) ∧
    ((∀ seg ∈ segs, seg.length = CHUNK) → later.head? = some (.data []))

theorem endsShort_short {seg : List UInt8} (h : seg.length < CHUNK) (segs : List (List UInt8))
    (later : List Read) : EndsShort (seg :: segs) later ↔ segs = [] := by
  constructor
  · intro hends
    rcases segs with _ | ⟨next, segs⟩
    · rfl
    · have hfull : seg.length = CHUNK := hends.1 seg List.mem_cons_self
      omega
  · intro hsegs
    subst hsegs
    constructor
    · intro x hx
      exact absurd hx List.not_mem_nil
    · intro hfull
      have : seg.length = CHUNK := hfull seg List.mem_cons_self
      omega

theorem endsShort_full {seg : List UInt8} (h : seg.length = CHUNK) (segs : List (List UInt8))
    (later : List Read) : EndsShort (seg :: segs) later ↔ EndsShort segs later := by
  have hfull : (∀ x ∈ seg :: segs, x.length = CHUNK) ↔ ∀ x ∈ segs, x.length = CHUNK := by
    simp [h]
  have hdrop : (∀ x ∈ (seg :: segs).dropLast, x.length = CHUNK) ↔
      ∀ x ∈ segs.dropLast, x.length = CHUNK := by
    rcases segs with _ | ⟨next, segs⟩
    · simp
    · simp [h]
  rw [EndsShort, EndsShort, hfull, hdrop]

end Cut

def Enough (base n : Nat) : Prop := ∀ k, 0 < k → k * CHUNK ≤ n → malloc (base + (k + 1) * CHUNK)

theorem enough_chunk (base n : Nat) :
    Enough malloc base (CHUNK + n) ↔
      malloc (base + CHUNK + CHUNK) ∧ Enough malloc (base + CHUNK) n := by
  have hpos : 0 < CHUNK := by decide
  constructor
  · intro h
    constructor
    · have h1 := h 1 Nat.one_pos (by omega)
      rwa [show base + (1 + 1) * CHUNK = base + CHUNK + CHUNK by omega] at h1
    · intro k hk hle
      have hnext := h (k + 1) (Nat.succ_pos k) (by rw [Nat.add_mul]; omega)
      rwa [show base + (k + 1 + 1) * CHUNK = base + CHUNK + (k + 1) * CHUNK by
        rw [Nat.add_mul (k + 1)]; omega] at hnext
  · rintro ⟨h1, h⟩ k hk hle
    rcases Nat.lt_or_eq_of_le (Nat.succ_le_of_lt hk) with hlt | heq
    · obtain ⟨j, rfl⟩ : ∃ j, k = j + 1 := ⟨k - 1, by omega⟩
      have hnext := h j (by omega) (by rw [Nat.add_mul] at hle; omega)
      rwa [show base + (j + 1 + 1) * CHUNK = base + CHUNK + (j + 1) * CHUNK by
        rw [Nat.add_mul (j + 1)]; omega]
    · subst heq
      rwa [show base + (1 + 1) * CHUNK = base + CHUNK + CHUNK by omega]

theorem enough_short {n : Nat} (h : n < CHUNK) (base : Nat) : Enough malloc base n := by
  intro k hk hle
  have : 1 * CHUNK ≤ k * CHUNK := Nat.mul_le_mul_right CHUNK hk
  omega

theorem readLoop_returns {segs : List (List UInt8)} {later : List Read}
    (hsegs : ∀ seg ∈ segs, 1 ≤ seg.length ∧ seg.length ≤ CHUNK)
    (hlater : ∀ r ∈ later, r.Within CHUNK) (xs : List UInt8) :
    (readLoop malloc (segs.map Read.data ++ later) (Buffer.filled none xs (xs.length + CHUNK))
      xs.length).Returns (xs ++ segs.flatten) ↔
      Enough malloc xs.length segs.flatten.length ∧ Cut.EndsShort segs later := by
  induction segs generalizing xs with
  | nil =>
    have henough : Enough malloc xs.length ([] : List (List UInt8)).flatten.length :=
      enough_short malloc (by decide) _
    have hends : Cut.EndsShort [] later ↔ later.head? = some (.data []) := by
      simp [Cut.EndsShort]
    rw [hends, and_iff_right henough, List.map_nil, List.nil_append, List.flatten_nil,
      List.append_nil]
    constructor
    · intro h
      rcases later with _ | ⟨bytes | _, later⟩
      · exact absurd h (Recv.not_returns_blocked xs)
      · -- what is stored last is part of the string
        have hnil : bytes = [] := by
          have hbytes : bytes.length ≤ CHUNK := hlater _ List.mem_cons_self bytes rfl
          rcases Nat.lt_or_eq_of_le hbytes with hshort | hfull
          · rw [readLoop_short malloc xs later hshort, Recv.returns_string] at h
            exact List.self_eq_append_right.mp h.symm
          · rw [readLoop_full malloc xs later hfull] at h
            split at h
            · have hprefix := readLoop_prefix malloc
                (fun r hr => hlater r (List.mem_cons_of_mem _ hr)) h
              have hle := hprefix.length_le
              rw [List.length_append, hfull] at hle
              exact absurd hle (by simp [CHUNK])
            · exact absurd h (Recv.not_returns_null xs)
        rw [hnil]
        rfl
      · exact absurd h (Recv.not_returns_null xs)
    · intro h
      obtain ⟨later', rfl⟩ := List.head?_eq_some_iff.mp h
      have hempty : ([] : List UInt8).length < CHUNK := by decide
      rw [readLoop_short malloc xs later' hempty, Recv.returns_string, List.append_nil]
  | cons seg segs ih =>
    have hrest : ∀ x ∈ segs, 1 ≤ x.length ∧ x.length ≤ CHUNK :=
      fun x hx => hsegs x (List.mem_cons_of_mem _ hx)
    obtain ⟨-, hseg⟩ := hsegs seg List.mem_cons_self
    rw [List.map_cons, List.cons_append, List.flatten_cons, List.length_append]
    rcases Nat.lt_or_eq_of_le hseg with hshort | hfull
    · rw [readLoop_short malloc xs _ hshort, Recv.returns_string, Cut.endsShort_short hshort]
      constructor
      · intro h
        have hflat : segs.flatten = [] :=
          List.self_eq_append_right.mp (List.append_cancel_left h)
        have hsegs : segs = [] := by
          apply List.eq_nil_iff_forall_not_mem.mpr
          intro x hx
          have hx0 : x = [] := List.flatten_eq_nil_iff.mp hflat x hx
          have hx1 := (hrest x hx).1
          rw [hx0] at hx1
          exact absurd hx1 (by decide)
        rw [hflat]
        exact ⟨enough_short malloc hshort _, hsegs⟩
      · rintro ⟨-, rfl⟩
        rw [List.flatten_nil, List.append_nil]
    · rw [readLoop_full malloc xs _ hfull, Cut.endsShort_full hfull, hfull, enough_chunk,
        ← List.append_assoc]
      have hlength : (xs ++ seg).length = xs.length + CHUNK := by
        rw [List.length_append, hfull]
      have hih := ih hrest (xs ++ seg)
      rw [hlength] at hih ⊢
      cases malloc (xs.length + CHUNK + CHUNK)
      · constructor
        · intro h
          exact absurd h (Recv.not_returns_null _)
        · rintro ⟨⟨h, -⟩, -⟩
          cases h
      · rw [if_pos rfl, hih, and_assoc, and_iff_right rfl]

namespace Cut

variable {reply : List UInt8} (cut : Cut reply)

theorem size_reads : ∀ r ∈ cut.reads, r.Within CHUNK := by
  intro r hr
  rcases List.mem_append.mp hr with hseg | hlater
  · obtain ⟨seg, hmem, rfl⟩ := List.mem_map.mp hseg
    intro bytes hbytes
    rw [← Read.data.inj hbytes]
    exact (cut.size seg hmem).2
  · exact cut.size_later r hlater

theorem readAll_ne_outside : readAll malloc cut.reads ≠ .outside := by
  rw [readAll]
  split
  · intro h
    cases h
  · have h := readLoop_ne_outside malloc cut.size_reads []
    rwa [List.length_nil, Nat.zero_add] at h

theorem readAll_returns : (readAll malloc cut.reads).Returns reply ↔
    (∀ k, k * CHUNK ≤ reply.length → malloc ((k + 1) * CHUNK)) ∧
      EndsShort cut.segs cut.later := by
  have hloop := readLoop_returns malloc cut.size cut.size_later []
  rw [List.length_nil, Nat.zero_add, List.nil_append, cut.flatten_segs] at hloop
  have henough : (∀ k, k * CHUNK ≤ reply.length → malloc ((k + 1) * CHUNK)) ↔
      malloc CHUNK ∧ Enough malloc 0 reply.length := by
    constructor
    · intro h
      have h0 := h 0 (by omega)
      rw [Nat.zero_add, Nat.one_mul] at h0
      refine ⟨h0, fun k _ hle => ?_⟩
      rw [Nat.zero_add]
      exact h k hle
    · rintro ⟨h0, h⟩ k hle
      rcases Nat.eq_zero_or_pos k with rfl | hk
      · rwa [Nat.zero_add, Nat.one_mul]
      · have hnext := h k hk hle
        rwa [Nat.zero_add] at hnext
  rw [henough, readAll, and_assoc]
  cases malloc CHUNK
  · constructor
    · intro h
      exact absurd h (Recv.not_returns_null _)
    · rintro ⟨h, -⟩
      cases h
  · rw [and_iff_right rfl]
    exact hloop

end Cut

/-- Two runs of `read_all` on one reply return it whole, however it is cut, exactly when
both cuts leave the first short read to the end of the reply. -/
theorem readAll_whole {reply : List UInt8} (cut cut' : Cut reply) :
    readAll malloc cut.reads ≠ .outside ∧ readAll malloc cut'.reads ≠ .outside ∧
      ((readAll malloc cut.reads).Returns reply ∧ (readAll malloc cut'.reads).Returns reply ↔
        (∀ k, k * CHUNK ≤ reply.length → malloc ((k + 1) * CHUNK)) ∧
          Cut.EndsShort cut.segs cut.later ∧ Cut.EndsShort cut'.segs cut'.later) := by
  have hreturns (c : Cut reply) : (readAll malloc c.reads).Returns reply ↔
      (∀ k, k * CHUNK ≤ reply.length → malloc ((k + 1) * CHUNK)) ∧
        Cut.EndsShort c.segs c.later := c.readAll_returns malloc
  refine ⟨cut.readAll_ne_outside malloc, cut'.readAll_ne_outside malloc, ?_⟩
  rw [hreturns, hreturns]
  constructor
  · rintro ⟨⟨hmalloc, hcut⟩, -, hcut'⟩
    exact ⟨hmalloc, hcut, hcut'⟩
  · rintro ⟨hmalloc, hcut, hcut'⟩
    exact ⟨⟨hmalloc, hcut⟩, hmalloc, hcut'⟩

theorem readAll_splits :
    (readAll (fun _ => true)
      (⟨[[123, 125]], [], rfl, by decide, fun _ h => absurd h List.not_mem_nil⟩ :
        Cut [123, 125]).reads).Returns [123, 125] ∧
    ¬ (readAll (fun _ => true)
      (⟨[[123], [125]], [], rfl, by decide, fun _ h => absurd h List.not_mem_nil⟩ :
        Cut [123, 125]).reads).Returns [123, 125] := by
  have hboth : ([123, 125] : List UInt8).length < CHUNK := by decide
  have hfirst : ([123] : List UInt8).length < CHUNK := by decide
  have hone := readLoop_short (fun _ => true) [] [] hboth
  have htwo := readLoop_short (fun _ => true) [] [.data [125]] hfirst
  rw [List.length_nil, Nat.zero_add] at hone htwo
  constructor
  · rw [readAll_eq rfl]
    exact ⟨CHUNK, hone⟩
  · intro h
    rw [readAll_eq rfl] at h
    have hstring := Recv.returns_string.mp (htwo ▸ h)
    exact absurd hstring (by decide)

end

/-! ## `team_recv` -/

def toInt (i : Int) : Int := Int.bmod i (2 ^ 32)

def sizeT (i : Int) : Nat := (i % 2 ^ 64).toNat

def PTRDIFF_MAX : Nat := 2 ^ 63 - 1

section
variable (malloc : Nat → Bool) (closed : Bool)

/-- No allocation is larger than `PTRDIFF_MAX`. -/
def heap (size : Nat) : Bool := decide (size ≤ PTRDIFF_MAX) && malloc size

/-- The loop of `team_recv`. A `read` takes one packet off the queue and drops what does not
fit; without a packet it fails with `EAGAIN`, or returns 0 once the peer has closed. -/
def teamRecvLoop : List Read → Buffer UInt8 → Int → Int → Recv
  | [], buf, _, len => if closed then terminate buf len.toNat else .null
  | .error :: _, _, _, _ => .null
  | .data packet :: queue, buf, size, len =>
    let bytes := packet.take (sizeT (size - len))
    if bytes = [] then terminate buf len.toNat
    else
      match buf.storeAll len.toNat bytes with
      | none => .outside
      | some buf =>
        let len := toInt (len + bytes.length)
        if len < size then terminate buf len.toNat
        else
          let size := toInt (size * 2)
          if !heap malloc (sizeT size) then .null
          else teamRecvLoop queue (buf.realloc (sizeT size)) size len

def teamRecv (queue : List Read) : Recv :=
  if !heap malloc 4096 then .null
  else teamRecvLoop malloc closed queue (Buffer.malloc 4096) 4096 0

theorem toInt_eq {n : Nat} (h : n < 2 ^ 31) : toInt n = n := by
  apply Int.bmod_eq_of_le
  · omega
  · omega

theorem toInt_double {n : Nat} (h : n < 2 ^ 30) : toInt (n * 2) = (n * 2 : Nat) := by
  have hcast : ((n * 2 : Nat) : Int) = n * 2 := Nat.cast_mul n 2
  rw [← hcast]
  exact toInt_eq (by omega)

theorem sizeT_eq {n : Nat} (h : n < 2 ^ 64) : sizeT n = n := by
  rw [sizeT]
  omega

/-- A doubled size that is no `int` is refused by the allocator. -/
theorem heap_double {n : Nat} (hn : n < 2 ^ 31) :
    heap malloc (sizeT (toInt (n * 2))) = (decide (n < 2 ^ 30) && malloc (n * 2)) := by
  by_cases hsmall : n < 2 ^ 30
  · have hdouble := toInt_double hsmall
    have hsize : sizeT (n * 2 : Nat) = n * 2 := sizeT_eq (by omega)
    have hmax : n * 2 ≤ PTRDIFF_MAX := by
      rw [PTRDIFF_MAX]
      omega
    rw [hdouble, hsize, heap, decide_eq_true hmax, decide_eq_true hsmall]
  · have hwrap : toInt (n * 2) = n * 2 - 2 ^ 32 := by
      rw [toInt, Int.bmod]
      omega
    have hmax : ¬ sizeT (n * 2 - 2 ^ 32) ≤ PTRDIFF_MAX := by
      rw [sizeT, PTRDIFF_MAX]
      omega
    rw [hwrap, heap, decide_eq_false hmax, decide_eq_false hsmall, Bool.false_and,
      Bool.false_and]

theorem teamRecvLoop_nil (xs : List UInt8) {n : Nat} (h : xs.length < n) :
    teamRecvLoop malloc closed [] (Buffer.filled none xs n) n xs.length =
      if closed then .string (Buffer.filled none (xs ++ [0]) n) else .null := by
  rw [teamRecvLoop, Int.toNat_natCast, terminate_filled h]

/-- One turn of the loop, with `xs` read so far into a buffer of `n` bytes. -/
theorem teamRecvLoop_cons (packet : List UInt8) (queue : List Read) (xs : List UInt8) {n : Nat}
    (h : xs.length < n) (hn : n < 2 ^ 31) :
    teamRecvLoop malloc closed (.data packet :: queue) (Buffer.filled none xs n) n xs.length =
      if xs.length + packet.length < n then
        .string (Buffer.filled none (xs ++ packet ++ [0]) n)
      else if n < 2 ^ 30 ∧ malloc (n * 2) then
        teamRecvLoop malloc closed queue
          (Buffer.filled none (xs ++ packet.take (n - xs.length)) (n * 2)) (n * 2 : Nat) n
      else .null := by
  have hspace : sizeT (n - xs.length) = n - xs.length := by
    rw [sizeT]
    omega
  rw [teamRecvLoop]
  simp only [hspace, Int.toNat_natCast]
  by_cases hfits : xs.length + packet.length < n
  · have htake : packet.take (n - xs.length) = packet := List.take_of_length_le (by omega)
    have hstore := Buffer.storeAll_filled none xs packet (Nat.le_of_lt hfits)
    have hlength : (xs ++ packet).length = xs.length + packet.length := List.length_append
    have hlen : toInt (xs.length + packet.length) = (xs ++ packet).length := by
      rw [hlength]
      exact toInt_eq (by omega)
    have hterm : (xs ++ packet).length < n := by omega
    rw [if_pos hfits, htake]
    split
    · rename_i hnil
      rw [hnil, List.append_nil, terminate_filled h]
    · rw [hstore]
      simp only [hlen, Int.toNat_natCast]
      rw [if_pos (by omega), terminate_filled hterm]
  · have hlength : (packet.take (n - xs.length)).length = n - xs.length := by
      rw [List.length_take]
      omega
    have hne : packet.take (n - xs.length) ≠ [] := by
      intro hnil
      rw [hnil, List.length_nil] at hlength
      omega
    have hroom : xs.length + (packet.take (n - xs.length)).length ≤ n := by omega
    have hstore := Buffer.storeAll_filled none xs (packet.take (n - xs.length)) hroom
    have hlen : toInt (xs.length + (packet.take (n - xs.length)).length) = n := by
      have hsum : (xs.length : Int) + (n - xs.length : Nat) = (n : Nat) := by omega
      rw [hlength, hsum]
      exact toInt_eq hn
    rw [if_neg hfits, if_neg hne, hstore]
    simp only [hlen, heap_double malloc hn]
    rw [if_neg (Int.lt_irrefl _)]
    by_cases hmalloc : n < 2 ^ 30 ∧ malloc (n * 2)
    · have hdouble := toInt_double hmalloc.1
      have hsize : sizeT (n * 2 : Nat) = n * 2 := sizeT_eq (by omega)
      have hrealloc : (Buffer.filled none (xs ++ packet.take (n - xs.length)) n).realloc (n * 2) =
          Buffer.filled none (xs ++ packet.take (n - xs.length)) (n * 2) :=
        Buffer.realloc_filled _ (by rw [List.length_append]; omega) (by omega)
      rw [if_pos hmalloc, hdouble, hsize, hrealloc, decide_eq_true hmalloc.1, hmalloc.2]
      rfl
    · rw [if_neg hmalloc, if_pos]
      simp only [not_and, Bool.not_eq_true, Bool.not_eq_eq_eq_not, Bool.not_true,
        Bool.and_eq_false_imp, decide_eq_true_eq] at hmalloc ⊢
      exact hmalloc

theorem teamRecvLoop_ne_outside (queue : List Read) (xs : List UInt8) {n : Nat}
    (h : xs.length < n) (hn : n < 2 ^ 31) :
    teamRecvLoop malloc closed queue (Buffer.filled none xs n) n xs.length ≠ .outside := by
  induction queue generalizing xs n with
  | nil =>
    rw [teamRecvLoop_nil malloc closed xs h]
    split
    · intro hout
      cases hout
    · intro hout
      cases hout
  | cons r queue ih =>
    rcases r with packet | _
    · rw [teamRecvLoop_cons malloc closed packet queue xs h hn]
      split
      · intro hout
        cases hout
      · split
        · rename_i hfull hmalloc
          have hlength : (xs ++ packet.take (n - xs.length)).length = n := by
            rw [List.length_append, List.length_take]
            omega
          have hnext := ih (xs ++ packet.take (n - xs.length)) (n := n * 2) (by omega) (by omega)
          rwa [hlength] at hnext
        · intro hout
          cases hout
    · intro hout
      cases hout

theorem teamRecv_eq (queue : List Read) : teamRecv malloc closed queue =
    if malloc 4096 then
      teamRecvLoop malloc closed queue (Buffer.filled none [] 4096) (4096 : Nat) (0 : Nat)
    else .null := by
  rw [teamRecv, heap]
  cases malloc 4096
  · rfl
  · rfl

theorem teamRecv_packet (reply : List UInt8) : teamRecv malloc closed [.data reply] =
    if malloc 4096 then
      if reply.length < 4096 then .string (Buffer.filled none (reply ++ [0]) 4096)
      else if malloc 8192 ∧ closed then
        .string (Buffer.filled none (reply.take 4096 ++ [0]) 8192)
      else .null
    else .null := by
  have hturn := teamRecvLoop_cons malloc closed reply [] [] (n := 4096) (by decide) (by decide)
  simp only [List.length_nil, Nat.zero_add, Nat.sub_zero, List.nil_append] at hturn
  rw [teamRecv_eq, hturn]
  congr 1
  by_cases hfits : reply.length < 4096
  · rw [if_pos hfits, if_pos hfits]
  · have hlength : (reply.take 4096).length = 4096 := by
      rw [List.length_take]
      omega
    have hnil := teamRecvLoop_nil malloc closed (reply.take 4096) (n := 8192)
      (by rw [hlength]; decide)
    rw [hlength] at hnil
    have hroom : (4096 < 2 ^ 30 ∧ malloc (4096 * 2) = true) ↔ malloc 8192 = true :=
      and_iff_right (by decide)
    rw [if_neg hfits, if_neg hfits, if_congr hroom rfl rfl, hnil]
    cases malloc 8192
    · rfl
    · cases closed
      · rfl
      · rfl

/-- Every store of `team_recv` lies inside its buffer, and a reply that is one packet is
returned whole exactly when it is shorter than the first buffer, or fills it and the peer
has closed. -/
theorem teamRecv_whole :
    (∀ queue, teamRecv malloc closed queue ≠ .outside) ∧
      ∀ reply, (teamRecv malloc closed [.data reply]).Returns reply ↔
        malloc 4096 ∧ (reply.length < 4096 ∨ reply.length = 4096 ∧ malloc 8192 ∧ closed) := by
  constructor
  · intro queue
    rw [teamRecv_eq]
    split
    · exact teamRecvLoop_ne_outside malloc closed queue [] (n := 4096) (by decide) (by decide)
    · intro hout
      cases hout
  · intro reply
    rw [teamRecv_packet]
    by_cases hmalloc : malloc 4096
    · rw [if_pos hmalloc, and_iff_right hmalloc]
      by_cases hfits : reply.length < 4096
      · rw [if_pos hfits, Recv.returns_string, or_iff_left (fun h => by omega)]
        exact ⟨fun _ => hfits, fun _ => rfl⟩
      · rw [if_neg hfits, or_iff_right hfits]
        by_cases hclosed : malloc 8192 ∧ closed
        · have hwhole : reply.take 4096 = reply ↔ reply.length ≤ 4096 := List.take_eq_self_iff _
          rw [if_pos hclosed, Recv.returns_string, hwhole, and_iff_left hclosed]
          omega
        · rw [if_neg hclosed]
          constructor
          · intro h
            exact absurd h (Recv.not_returns_null reply)
          · rintro ⟨-, h⟩
            exact absurd h hclosed
    · rw [if_neg hmalloc]
      constructor
      · intro h
        exact absurd h (Recv.not_returns_null reply)
      · rintro ⟨h, -⟩
        exact absurd h hmalloc

theorem teamRecv_loses :
    ¬ (teamRecv (fun _ => true) false [.data (List.replicate 4096 32)]).Returns
      (List.replicate 4096 32) := by
  have hfull : ¬ (List.replicate 4096 (32 : UInt8)).length < 4096 := by
    rw [List.length_replicate]
    exact Nat.lt_irrefl _
  rw [teamRecv_packet, if_pos rfl, if_neg hfull]
  exact Recv.not_returns_null _

end
end Plotnetcfg.Handlers
