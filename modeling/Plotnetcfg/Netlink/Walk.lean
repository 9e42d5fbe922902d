import Plotnetcfg.Netlink.Attr

/-! The loops over netlink attributes (`netlink.h`) with their pointers. A pointer is an offset
into the memory of the message, and reading outside that memory is a fault. -/

namespace Plotnetcfg.Netlink

open Bytes AlignedRecords

def loadU16 (mem : List UInt8) (p : Nat) : Option Nat :=
  if p + 2 ≤ mem.length then some (uint p 2 mem) else none

def nlaBufRemaining (iter buf : Nat) (len : Int) : Int := len - ((iter : Int) - buf)

/-- `for_each_nla_buf` from `iter` on: the attributes it visits. After a fault, and when the fuel
is used up, there are none. -/
def forEachNlaBuf (mem : List UInt8) (buf : Nat) (len : Int) : Nat → Nat → Option (List Nat)
  | 0, _ => none
  | fuel + 1, iter =>
    if NLA_HDRLEN ≤ nlaBufRemaining iter buf len then do
      let nlaLen ← loadU16 mem iter
      if NLA_HDRLEN ≤ nlaLen ∧ nlaLen ≤ nlaBufRemaining iter buf len then do
        let visited ← forEachNlaBuf mem buf len fuel (iter + align nlaLen)
        pure (iter :: visited)
      else pure []
    else pure []

/-- `for_each_nla`. The length is negative when the start is behind the end. -/
def forEachNla (msg : NlMsg) (fuel : Nat) : Option (List Nat) :=
  forEachNlaBuf msg.buf msg.start ((msg.buf.length : Int) - msg.start) fuel msg.start

/-- `for_each_nla_nested`. What `nla_len` gives for a length below the header is negative as an
`int`. -/
def forEachNlaNested (mem : List UInt8) (nla fuel : Nat) : Option (List Nat) := do
  let nlaLen ← loadU16 mem nla
  forEachNlaBuf mem (nla + NLA_HDRLEN) ((nlaLen : Int) - NLA_HDRLEN) fuel (nla + NLA_HDRLEN)

def storeSlot (tb : List (Option Nat)) (slot a : Nat) : Option (List (Option Nat)) :=
  if slot < tb.length then some (tb.set slot (some a)) else none

/-- The body of `nlmsg_attrs` and `nla_nested_attrs`, for each attribute. -/
def fillTable (mem : List UInt8) (max : Nat) : List Nat → List (Option Nat) →
    Option (List (Option Nat))
  | [], tb => some tb
  | a :: visited, tb => do
    let type ← loadU16 mem (a + 2)
    if type ≤ max then do
      let tb ← storeSlot tb type a
      fillTable mem max visited tb
    else fillTable mem max visited tb

def nlmsgAttrsTable (msg : NlMsg) (max fuel : Nat) : Option (List (Option Nat)) := do
  let visited ← forEachNla msg fuel
  fillTable msg.buf max visited (List.replicate (max + 1) none)

def nlaNestedAttrsTable (mem : List UInt8) (nla max fuel : Nat) : Option (List (Option Nat)) := do
  let visited ← forEachNlaNested mem nla fuel
  fillTable mem max visited (List.replicate (max + 1) none)

/-! ## What a walk visits -/

/-- The declared length and the type of the attribute at an offset. -/
def lenAt (mem : List UInt8) (a : Nat) : Nat := uint a 2 mem
def typeAt (mem : List UInt8) (a : Nat) : Nat := uint (a + 2) 2 mem

/-- Every attribute lies between `lo` and `hi`, with its header and all of its declared length,
and ends before the next one starts. -/
structure Walked (mem : List UInt8) (lo hi : Nat) (visited : List Nat) : Prop where
  header : ∀ a ∈ visited, lo ≤ a ∧ a + NLA_HDRLEN ≤ hi
  inside : ∀ a ∈ visited, NLA_HDRLEN ≤ lenAt mem a ∧ a + lenAt mem a ≤ hi
  apart : visited.Pairwise fun a b => a + lenAt mem a ≤ b

section
variable {mem : List UInt8} {lo hi : Nat} {visited : List Nat}

theorem walked_nil : Walked mem lo hi [] := ⟨nofun, nofun, .nil⟩

theorem Walked.cons {a next : Nat} (h : Walked mem next hi visited)
    (hlo : lo ≤ a) (hlen : NLA_HDRLEN ≤ lenAt mem a) (hhi : a + lenAt mem a ≤ hi)
    (hnext : a + lenAt mem a ≤ next) : Walked mem lo hi (a :: visited) := by
  refine ⟨?_, ?_, ?_⟩
  · intro b hb
    rcases List.mem_cons.mp hb with rfl | hb
    · exact ⟨hlo, by omega⟩
    · have hbound := h.header b hb
      exact ⟨by omega, hbound.2⟩
  · intro b hb
    rcases List.mem_cons.mp hb with rfl | hb
    · exact ⟨hlen, hhi⟩
    · exact h.inside b hb
  · refine List.pairwise_cons.mpr ⟨fun b hb => ?_, h.apart⟩
    exact hnext.trans (h.header b hb).1

theorem loadU16_eq {p : Nat} (h : p + 2 ≤ mem.length) : loadU16 mem p = some (uint p 2 mem) :=
  if_pos h

/-- The walk ends, whatever the bytes are, and never leaves what it was given. -/
theorem forEachNlaBuf_walked {buf : Nat} {len : Int} (hhi : (hi : Int) = buf + len)
    (hmem : hi ≤ mem.length) (fuel iter : Nat) (hfuel : hi - iter < fuel) :
    ∃ visited, forEachNlaBuf mem buf len fuel iter = some visited ∧
      Walked mem iter hi visited := by
  induction fuel generalizing iter with
  | zero => exact absurd hfuel (Nat.not_lt_zero _)
  | succ fuel ih =>
    have hrem : nlaBufRemaining iter buf len = (hi : Int) - iter := by
      unfold nlaBufRemaining
      omega
    unfold forEachNlaBuf
    rw [hrem]
    by_cases hroom : (NLA_HDRLEN : Int) ≤ (hi : Int) - iter
    · have hheader : iter + NLA_HDRLEN ≤ hi := by omega
      have hload : loadU16 mem iter = some (lenAt mem iter) := by
        apply loadU16_eq
        unfold NLA_HDRLEN at hheader
        omega
      rw [if_pos hroom, hload]
      by_cases hfits : NLA_HDRLEN ≤ lenAt mem iter ∧ (lenAt mem iter : Int) ≤ (hi : Int) - iter
      · have hadvance := le_align (lenAt mem iter)
        have hpos : 0 < NLA_HDRLEN := by decide
        obtain ⟨visited, hrun, hwalked⟩ := ih (iter + align (lenAt mem iter)) (by omega)
        refine ⟨iter :: visited, ?_, hwalked.cons le_rfl hfits.1 (by omega) (by omega)⟩
        show (if NLA_HDRLEN ≤ lenAt mem iter ∧ (lenAt mem iter : Int) ≤ (hi : Int) - iter then _
          else _) = _
        rw [if_pos hfits, hrun]
        rfl
      · refine ⟨[], ?_, walked_nil⟩
        show (if NLA_HDRLEN ≤ lenAt mem iter ∧ (lenAt mem iter : Int) ≤ (hi : Int) - iter then _
          else _) = _
        rw [if_neg hfits]
        rfl
    · rw [if_neg hroom]
      exact ⟨[], rfl, walked_nil⟩

theorem forEachNlaBuf_fuel {buf : Nat} {len : Int} {fuel iter : Nat}
    (h : forEachNlaBuf mem buf len fuel iter = some visited) {fuel' : Nat} (hle : fuel ≤ fuel') :
    forEachNlaBuf mem buf len fuel' iter = some visited := by
  induction fuel generalizing iter visited fuel' with
  | zero => cases h
  | succ fuel ih =>
    obtain ⟨n, rfl⟩ : ∃ n, fuel' = n + 1 := ⟨fuel' - 1, by omega⟩
    unfold forEachNlaBuf at h ⊢
    split_ifs at h ⊢ with hroom
    · obtain ⟨nlaLen, hload, h⟩ := Option.bind_eq_some_iff.mp h
      rw [hload]
      show (if NLA_HDRLEN ≤ nlaLen ∧ (nlaLen : Int) ≤ nlaBufRemaining iter buf len then _
        else _) = _
      split_ifs at h ⊢ with hfits
      · obtain ⟨rest, hrest, hvisited⟩ := Option.bind_eq_some_iff.mp h
        rw [ih hrest (Nat.le_of_succ_le_succ hle)]
        exact hvisited
      · exact h
    · exact h

theorem forEachNla_walked (msg : NlMsg) : ∃ visited,
    (∀ fuel, msg.buf.length < fuel → forEachNla msg fuel = some visited) ∧
    Walked msg.buf msg.start msg.buf.length visited := by
  have hhi : (msg.buf.length : Int) = msg.start + ((msg.buf.length : Int) - msg.start) := by omega
  obtain ⟨visited, hrun, hwalked⟩ := forEachNlaBuf_walked hhi le_rfl (msg.buf.length + 1) msg.start
    (by omega)
  exact ⟨visited, fun fuel hfuel => forEachNlaBuf_fuel hrun hfuel, hwalked⟩

theorem forEachNlaNested_walked {nla : Nat} (hheader : nla + NLA_HDRLEN ≤ mem.length)
    (hinside : nla + lenAt mem nla ≤ mem.length) : ∃ visited,
    (∀ fuel, mem.length < fuel → forEachNlaNested mem nla fuel = some visited) ∧
    Walked mem (nla + NLA_HDRLEN) (nla + lenAt mem nla) visited := by
  have hhi : ((nla + lenAt mem nla : Nat) : Int) =
      (nla + NLA_HDRLEN : Nat) + ((lenAt mem nla : Int) - NLA_HDRLEN) := by
    omega
  have hload : loadU16 mem nla = some (lenAt mem nla) := by
    apply loadU16_eq
    unfold NLA_HDRLEN at hheader
    omega
  obtain ⟨visited, hrun, hwalked⟩ := forEachNlaBuf_walked hhi hinside (mem.length + 1)
    (nla + NLA_HDRLEN) (by omega)
  refine ⟨visited, fun fuel hfuel => ?_, hwalked⟩
  unfold forEachNlaNested
  rw [hload]
  exact forEachNlaBuf_fuel hrun hfuel

/-! ## Tables -/

structure Filled (mem : List UInt8) (max : Nat) (visited : List Nat) (tb : List (Option Nat)) :
    Prop where
  length : tb.length = max + 1
  slot : ∀ t ≤ max, tb[t]? = some (visited.filter (typeAt mem · = t)).getLast?

theorem filled_nil (max : Nat) : Filled mem max [] (List.replicate (max + 1) none) := by
  refine ⟨List.length_replicate, fun t ht => ?_⟩
  rw [List.getElem?_replicate, if_pos (by omega)]
  rfl

theorem Filled.skip {max a : Nat} {before : List Nat} {tb : List (Option Nat)}
    (h : Filled mem max before tb) (htype : ¬ typeAt mem a ≤ max) :
    Filled mem max (before ++ [a]) tb := by
  refine ⟨h.length, fun t ht => ?_⟩
  have hne : typeAt mem a ≠ t := by omega
  rw [h.slot t ht, List.filter_append]
  simp [hne]

theorem Filled.store {max a : Nat} {before : List Nat} {tb : List (Option Nat)}
    (h : Filled mem max before tb) (htype : typeAt mem a ≤ max) :
    ∃ tb', storeSlot tb (typeAt mem a) a = some tb' ∧ Filled mem max (before ++ [a]) tb' := by
  have hlength := h.length
  refine ⟨tb.set (typeAt mem a) (some a), if_pos (by omega), ?_, fun t ht => ?_⟩
  · rw [List.length_set, h.length]
  · rw [List.getElem?_set, List.filter_append]
    by_cases heq : typeAt mem a = t
    · rw [if_pos heq, if_pos (by omega)]
      simp [heq]
    · rw [if_neg heq, h.slot t ht]
      simp [heq]

theorem fillTable_filled {max : Nat} (hheader : ∀ a ∈ visited, a + NLA_HDRLEN ≤ mem.length)
    {before : List Nat} {tb : List (Option Nat)} (h : Filled mem max before tb) :
    ∃ tb', fillTable mem max visited tb = some tb' ∧ Filled mem max (before ++ visited) tb' := by
  induction visited generalizing before tb with
  | nil =>
    rw [List.append_nil]
    exact ⟨tb, rfl, h⟩
  | cons a visited ih =>
    have hrest : ∀ b ∈ visited, b + NLA_HDRLEN ≤ mem.length :=
      fun b hb => hheader b (List.mem_cons_of_mem a hb)
    have ha := hheader a List.mem_cons_self
    have hload : loadU16 mem (a + 2) = some (typeAt mem a) := by
      apply loadU16_eq
      unfold NLA_HDRLEN at ha
      omega
    unfold fillTable
    rw [hload, List.append_cons]
    by_cases htype : typeAt mem a ≤ max
    · obtain ⟨tb₁, hstore, h₁⟩ := h.store htype
      obtain ⟨tb₂, hfill, h₂⟩ := ih hrest h₁
      refine ⟨tb₂, ?_, h₂⟩
      show (if typeAt mem a ≤ max then _ else _) = _
      rw [if_pos htype, hstore]
      exact hfill
    · obtain ⟨tb₂, hfill, h₂⟩ := ih hrest (h.skip htype)
      refine ⟨tb₂, ?_, h₂⟩
      show (if typeAt mem a ≤ max then _ else _) = _
      rw [if_neg htype]
      exact hfill

end

/-- A table of the attributes visited is filled without a fault, whatever there is to visit. -/
theorem table_filled {mem : List UInt8} {lo hi : Nat} {visited : List Nat}
    (h : Walked mem lo hi visited) (hhi : hi ≤ mem.length) (max : Nat) :
    ∃ tb, fillTable mem max visited (List.replicate (max + 1) none) = some tb ∧
      Filled mem max visited tb :=
  fillTable_filled (fun a ha => (h.header a ha).2.trans hhi) (filled_nil max)

/-! ## The walk as a list of buffers -/

section
variable {mem : List UInt8} {hi : Nat}

theorem nlaNlaLen_take {iter : Nat} (h : iter + 2 ≤ hi) :
    nlaNlaLen ((mem.take hi).drop iter) = lenAt mem iter := by
  have hmin : min 2 (hi - iter) = 2 := by omega
  unfold nlaNlaLen lenAt uint slice
  rw [List.drop_zero, List.drop_take, List.take_take, hmin]

/-- The records of the bytes that are left are what the pointers visit. -/
theorem forEachNlaBuf_records {buf : Nat} {len : Int} (hhi : (hi : Int) = buf + len)
    (hmem : hi ≤ mem.length) (fuel iter : Nat) (hiter : buf ≤ iter) {visited : List Nat}
    (hrun : forEachNlaBuf mem buf len fuel iter = some visited) :
    (records NLA_HDRLEN nlaNlaLen ((mem.take hi).drop iter)).map
      (fun s => (mem.drop buf).drop (hi - buf - s.length)) = visited.map (mem.drop ·) := by
  induction fuel generalizing iter visited with
  | zero => cases hrun
  | succ fuel ih =>
    have hlength : ((mem.take hi).drop iter).length = hi - iter := by
      rw [List.length_drop, List.length_take, Nat.min_eq_left hmem]
    have hrem : nlaBufRemaining iter buf len = (hi : Int) - iter := by
      unfold nlaBufRemaining
      omega
    unfold forEachNlaBuf at hrun
    rw [hrem] at hrun
    split_ifs at hrun with hroom
    · have hheader : iter + 2 ≤ hi := by
        unfold NLA_HDRLEN at hroom
        omega
      rw [loadU16_eq (hheader.trans hmem)] at hrun
      replace hrun : (if NLA_HDRLEN ≤ lenAt mem iter ∧ (lenAt mem iter : Int) ≤ (hi : Int) - iter
        then _ else _) = some visited := hrun
      split_ifs at hrun with hfits
      · obtain ⟨rest, hrest, hvisited⟩ := Option.bind_eq_some_iff.mp hrun
        obtain rfl := Option.some.inj hvisited
        have hpos : 0 < NLA_HDRLEN := by decide
        have hrecord : Fits NLA_HDRLEN nlaNlaLen ((mem.take hi).drop iter) := by
          unfold Fits
          rw [nlaNlaLen_take hheader, hlength]
          omega
        have hoffset : buf + (hi - buf - (hi - iter)) = iter := by omega
        rw [records_of_fits hpos hrecord, nlaNlaLen_take hheader, List.drop_drop, List.map_cons,
          List.map_cons, ih (iter + align (lenAt mem iter)) (by omega) hrest, hlength,
          List.drop_drop, hoffset]
      · obtain rfl := Option.some.inj hrun
        have hrecord : ¬ Fits NLA_HDRLEN nlaNlaLen ((mem.take hi).drop iter) := by
          unfold Fits
          rw [nlaNlaLen_take hheader, hlength]
          omega
        rw [records_of_not_fits hrecord]
        rfl
    · obtain rfl := Option.some.inj hrun
      have hpos : 0 < NLA_HDRLEN := by decide
      have hrecord : ¬ Fits NLA_HDRLEN nlaNlaLen ((mem.take hi).drop iter) := by
        unfold Fits
        rw [hlength]
        omega
      rw [records_of_not_fits hrecord]
      rfl

theorem nlasOf_eq {buf : Nat} {len : Int} (hhi : (hi : Int) = buf + len) (hmem : hi ≤ mem.length)
    {fuel : Nat} {visited : List Nat} (hrun : forEachNlaBuf mem buf len fuel buf = some visited) :
    nlasOf (mem.drop buf) (hi - buf) = visited.map (mem.drop ·) := by
  have hrecords := forEachNlaBuf_records hhi hmem fuel buf le_rfl hrun
  have hlength : ((mem.drop buf).take (hi - buf)).length = hi - buf := by
    rw [List.length_take, List.length_drop]
    omega
  unfold nlasOf
  rw [hlength, ← List.drop_take]
  exact hrecords

/-- The attributes of the list model are those at the offsets that the loop visits. -/
theorem nlas_eq {msg : NlMsg} {fuel : Nat} {visited : List Nat}
    (hrun : forEachNla msg fuel = some visited) : nlas msg = visited.map (msg.buf.drop ·) := by
  have hhi : (msg.buf.length : Int) = msg.start + ((msg.buf.length : Int) - msg.start) := by omega
  exact nlasOf_eq hhi le_rfl hrun

theorem nestedNlas_eq {nla fuel : Nat} (hheader : nla + NLA_HDRLEN ≤ mem.length)
    (hinside : nla + lenAt mem nla ≤ mem.length) {visited : List Nat}
    (hrun : forEachNlaNested mem nla fuel = some visited) :
    nestedNlas (mem.drop nla) = visited.map (mem.drop ·) := by
  have hhi : ((nla + lenAt mem nla : Nat) : Int) =
      (nla + NLA_HDRLEN : Nat) + ((lenAt mem nla : Int) - NLA_HDRLEN) := by
    omega
  have hload : loadU16 mem nla = some (lenAt mem nla) := by
    apply loadU16_eq
    unfold NLA_HDRLEN at hheader
    omega
  have hlen : nlaNlaLen (mem.drop nla) = lenAt mem nla := by
    unfold nlaNlaLen lenAt uint slice
    rw [List.drop_zero]
  have hrest : nla + lenAt mem nla - (nla + NLA_HDRLEN) = lenAt mem nla - NLA_HDRLEN := by omega
  unfold forEachNlaNested at hrun
  rw [hload] at hrun
  have hall := nlasOf_eq hhi hinside hrun
  rw [hrest] at hall
  unfold nestedNlas nlaLen nlaRead
  rw [hlen, List.drop_drop]
  exact hall

theorem attrTable_eq {max : Nat} {visited : List Nat} {tb : List (Option Nat)}
    (h : Filled mem max visited tb) (t : Nat) :
    attrTable (visited.map (mem.drop ·)) max t = (tb[t]?.join).map (mem.drop ·) := by
  have htype : ∀ a, nlaType (mem.drop a) = typeAt mem a := by
    intro a
    unfold nlaType typeAt uint slice
    rw [List.drop_drop]
  unfold attrTable
  split_ifs with ht
  · rw [h.slot t ht, Option.join_some, ← List.map_reverse, List.find?_map, List.getLast?_filter]
    congr 2
    funext a
    show (nlaType (mem.drop a) == t) = _
    rw [htype]
    rfl
  · rw [List.getElem?_eq_none (by have := h.length; omega)]
    rfl

end

theorem nlmsgAttrs_eq (msg : NlMsg) (max : Nat) : ∃ tb,
    (∀ fuel, msg.buf.length < fuel → nlmsgAttrsTable msg max fuel = some tb) ∧
    ∀ t, nlmsgAttrs msg max t = (tb[t]?.join).map (msg.buf.drop ·) := by
  obtain ⟨visited, hrun, hwalked⟩ := forEachNla_walked msg
  obtain ⟨tb, hfill, hfilled⟩ := table_filled hwalked le_rfl max
  refine ⟨tb, fun fuel hfuel => ?_, fun t => ?_⟩
  · unfold nlmsgAttrsTable
    rw [hrun fuel hfuel]
    exact hfill
  · unfold nlmsgAttrs
    rw [nlas_eq (hrun _ (Nat.lt_succ_self _)), attrTable_eq hfilled]

theorem nlaNestedAttrs_eq {mem : List UInt8} {nla : Nat} (hheader : nla + NLA_HDRLEN ≤ mem.length)
    (hinside : nla + lenAt mem nla ≤ mem.length) (max : Nat) : ∃ tb,
    (∀ fuel, mem.length < fuel → nlaNestedAttrsTable mem nla max fuel = some tb) ∧
    ∀ t, nlaNestedAttrs (mem.drop nla) max t = (tb[t]?.join).map (mem.drop ·) := by
  obtain ⟨nested, hrun, hnested⟩ := forEachNlaNested_walked hheader hinside
  obtain ⟨tb, hfill, hfilled⟩ := table_filled hnested hinside max
  refine ⟨tb, fun fuel hfuel => ?_, fun t => ?_⟩
  · unfold nlaNestedAttrsTable
    rw [hrun fuel hfuel]
    exact hfill
  · unfold nlaNestedAttrs
    rw [nestedNlas_eq hheader hinside (hrun _ (Nat.lt_succ_self _)), attrTable_eq hfilled]

theorem nlmsgAttrsTable_filled {msg : NlMsg} {visited : List Nat}
    (hwalked : Walked msg.buf msg.start msg.buf.length visited)
    (hrun : ∀ fuel, msg.buf.length < fuel → forEachNla msg fuel = some visited) (max : Nat) :
    ∃ tb, Filled msg.buf max visited tb ∧
      ∀ fuel, msg.buf.length < fuel → nlmsgAttrsTable msg max fuel = some tb := by
  obtain ⟨tb, hfill, hfilled⟩ := table_filled hwalked le_rfl max
  refine ⟨tb, hfilled, fun fuel hfuel => ?_⟩
  unfold nlmsgAttrsTable
  rw [hrun fuel hfuel]
  exact hfill

/-- Over any bytes the loops end, and stay where they should; the tables have the last attribute
of each type up to `max`. -/
theorem walk_safe (msg : NlMsg) : ∃ visited,
    Walked msg.buf msg.start msg.buf.length visited ∧
    (∀ fuel, msg.buf.length < fuel → forEachNla msg fuel = some visited) ∧
    (∀ max, ∃ tb, Filled msg.buf max visited tb ∧
      ∀ fuel, msg.buf.length < fuel → nlmsgAttrsTable msg max fuel = some tb) ∧
    ∀ a ∈ visited, ∃ nested,
      Walked msg.buf (a + NLA_HDRLEN) (a + lenAt msg.buf a) nested ∧
      (∀ fuel, msg.buf.length < fuel → forEachNlaNested msg.buf a fuel = some nested) ∧
      ∀ max, ∃ tb, Filled msg.buf max nested tb ∧
        ∀ fuel, msg.buf.length < fuel → nlaNestedAttrsTable msg.buf a max fuel = some tb := by
  obtain ⟨visited, hrun, hwalked⟩ := forEachNla_walked msg
  refine ⟨visited, hwalked, hrun, nlmsgAttrsTable_filled hwalked hrun, fun a ha => ?_⟩
  · obtain ⟨-, hinside⟩ := hwalked.inside a ha
    obtain ⟨nested, hrun', hnested⟩ :=
      forEachNlaNested_walked (hwalked.header a ha).2 hinside
    refine ⟨nested, hnested, hrun', fun max => ?_⟩
    obtain ⟨tb, hfill, hfilled⟩ := table_filled hnested hinside max
    refine ⟨tb, hfilled, fun fuel hfuel => ?_⟩
    unfold nlaNestedAttrsTable
    rw [hrun' fuel hfuel]
    exact hfill

end Plotnetcfg.Netlink
