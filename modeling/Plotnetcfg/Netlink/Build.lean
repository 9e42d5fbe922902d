import Plotnetcfg.Netlink.Walk

/-! Building a message (`netlink.c`): `nlmsg_put` and `nla_put`, and what the loops over
attributes find in a message that was built with them. -/

namespace Plotnetcfg.Netlink

open Bytes AlignedRecords

def NLM_F_REQUEST : Nat := 1

def NLMSG_BASIC_SIZE : Nat := 16384

structure OutMsg where
  msg : NlMsg
  allocated : Nat
  header : NLMSG_HDRLEN ≤ msg.buf.length
  room : msg.buf.length ≤ allocated

/-- The loop of `nlmsg_realloc`, on an `unsigned int`; without a result it does not end. -/
def growAlloc (minLen : Nat) : Nat → Nat → Option Nat
  | 0, _ => none
  | fuel + 1, newAlloc =>
    if minLen ≤ newAlloc then some newAlloc else growAlloc minLen fuel (newAlloc * 2 % 2 ^ 32)

theorem growAlloc_le {minLen fuel newAlloc n : Nat}
    (h : growAlloc minLen fuel newAlloc = some n) : minLen ≤ n := by
  induction fuel generalizing newAlloc with
  | zero => cases h
  | succ fuel ih =>
    rw [growAlloc] at h
    split at h
    · rename_i hle
      exact Option.some.inj h ▸ hle
    · exact ih h

def setNlmsgLen (buf : List UInt8) : List UInt8 := leBytes 4 buf.length ++ buf.drop 4

theorem length_setNlmsgLen {buf : List UInt8} (h : NLMSG_HDRLEN ≤ buf.length) :
    (setNlmsgLen buf).length = buf.length := by
  unfold NLMSG_HDRLEN at h
  rw [setNlmsgLen, List.length_append, length_leBytes, List.length_drop]
  omega

section
-- whether `realloc` to so many bytes succeeds
variable (realloc : Nat → Bool)

def nlmsgRealloc (allocated minLen : Nat) : Option Nat :=
  if minLen ≤ allocated then some allocated
  else (growAlloc minLen 33 allocated).filter realloc

theorem nlmsgRealloc_le {allocated minLen n : Nat}
    (h : nlmsgRealloc realloc allocated minLen = some n) : minLen ≤ n := by
  rw [nlmsgRealloc] at h
  split at h
  · rename_i hle
    exact Option.some.inj h ▸ hle
  · exact growAlloc_le (Option.filter_eq_some_iff.mp h).1

theorem length_nlmsgPutRaw (msg : NlMsg) (data : List UInt8) :
    (nlmsgPutRaw msg data 0).buf.length = align msg.buf.length + data.length := by
  have hle := le_align msg.buf.length
  simp only [nlmsgPutRaw, zeros, List.length_append, List.length_replicate]
  omega

/-- `nlmsg_put`; without a result it returns `ENOMEM`. -/
def nlmsgPut (m : OutMsg) (data : List UInt8) : Option OutMsg :=
  match h : nlmsgRealloc realloc m.allocated (nlmsgPutRaw m.msg data 0).buf.length with
  | none => none
  | some allocated =>
    have hheader : NLMSG_HDRLEN ≤ (nlmsgPutRaw m.msg data 0).buf.length := by
      have hle := le_align m.msg.buf.length
      have hheader := m.header
      rw [length_nlmsgPutRaw]
      omega
    some
      { msg := { m.msg with buf := setNlmsgLen (nlmsgPutRaw m.msg data 0).buf }
        allocated := allocated
        header := by rwa [length_setNlmsgLen hheader]
        room := by
          rw [length_setNlmsgLen hheader]
          exact nlmsgRealloc_le realloc h }

def nlaPut (m : OutMsg) (type : UInt16) (data : List UInt8) : Option OutMsg :=
  (nlmsgPut realloc m (leBytes 2 (data.length + NLA_HDRLEN) ++ leBytes 2 type.toNat)).bind
    fun m => nlmsgPut realloc m data

def nlaPutStr (m : OutMsg) (type : UInt16) (str : CStr) : Option OutMsg :=
  nlaPut realloc m type (str ++ [0])

def nlaPuts : OutMsg → List (UInt16 × List UInt8) → Option OutMsg
  | m, [] => some m
  | m, p :: puts => (nlaPut realloc m p.1 p.2).bind fun m => nlaPuts m puts

end

def nlmsgNew (type flags : UInt16) : OutMsg where
  msg := { buf := setNlmsgLen (zeros 4 ++ leBytes 2 type.toNat ++
    leBytes 2 (flags.toNat ||| NLM_F_REQUEST) ++ zeros 8) }
  allocated := NLMSG_BASIC_SIZE
  header := by simp [setNlmsgLen, zeros, NLMSG_HDRLEN]
  room := by simp [setNlmsgLen, zeros, NLMSG_BASIC_SIZE]

/-! ## The bytes of a message -/

def attrBytes (p : UInt16 × List UInt8) : List UInt8 :=
  leBytes 2 (p.2.length + NLA_HDRLEN) ++ leBytes 2 p.1.toNat ++ p.2

/-- The alignment gap behind `n` bytes. -/
def gap (n : Nat) : List UInt8 := zeros (align n - n)

/-- The attributes one behind the other; the last one is not padded. -/
def attrsBytes : List (UInt16 × List UInt8) → List UInt8
  | [] => []
  | p :: puts =>
    attrBytes p ++ (if puts = [] then [] else gap (attrBytes p).length) ++ attrsBytes puts

theorem length_attrBytes (p : UInt16 × List UInt8) :
    (attrBytes p).length = p.2.length + NLA_HDRLEN := by
  simp only [attrBytes, List.length_append, length_leBytes, NLA_HDRLEN]
  omega

def behind (n : Nat) (puts : List (UInt16 × List UInt8)) : List UInt8 :=
  if puts = [] then [] else gap n ++ attrsBytes puts

section
variable {realloc : Nat → Bool} {m m' : OutMsg}

theorem nlmsgPut_eq {data : List UInt8} (h : nlmsgPut realloc m data = some m') :
    m'.msg.buf = setNlmsgLen (m.msg.buf ++ gap m.msg.buf.length ++ data) := by
  rw [nlmsgPut] at h
  split at h
  · cases h
  · rw [← Option.some.inj h]
    simp only [nlmsgPutRaw, gap, zeros, List.replicate_zero, List.append_nil]

theorem drop_setNlmsgLen (buf : List UInt8) : (setNlmsgLen buf).drop 4 = buf.drop 4 := by
  rw [setNlmsgLen, List.drop_left' (length_leBytes 4 _)]

theorem gap_align (n : Nat) (k : Nat) : gap (align n + k) = gap k := by
  have h : align (align n + k) - (align n + k) = align k - k := by
    unfold align
    omega
  rw [gap, gap, h]

theorem length_gap (n : Nat) : n + (gap n).length = align n := by
  have hle := le_align n
  rw [gap, zeros, List.length_replicate]
  omega

theorem nlmsgPut_bytes {data : List UInt8} (h : nlmsgPut realloc m data = some m') :
    m'.msg.buf.drop 4 = m.msg.buf.drop 4 ++ gap m.msg.buf.length ++ data ∧
      m'.msg.buf.length = align m.msg.buf.length + data.length ∧
      nlmsgLen m'.msg.buf = m'.msg.buf.length % 2 ^ 32 := by
  have hheader := m.header
  have hlength : (m.msg.buf ++ gap m.msg.buf.length ++ data).length =
      align m.msg.buf.length + data.length := by
    rw [List.length_append, List.length_append, length_gap]
  have hle := le_align m.msg.buf.length
  have hset : (setNlmsgLen (m.msg.buf ++ gap m.msg.buf.length ++ data)).length =
      (m.msg.buf ++ gap m.msg.buf.length ++ data).length := length_setNlmsgLen (by omega)
  have hread : nlmsgLen (setNlmsgLen (m.msg.buf ++ gap m.msg.buf.length ++ data)) =
      (m.msg.buf ++ gap m.msg.buf.length ++ data).length % 2 ^ 32 := by
    have hpow : 256 ^ 4 = 2 ^ 32 := by decide
    rw [nlmsgLen, setNlmsgLen, uint_append_left (by rw [length_leBytes]), uint, slice,
      List.drop_zero, List.take_of_length_le (by rw [length_leBytes]), readLE_leBytes, hpow]
  unfold NLMSG_HDRLEN at hheader
  rw [nlmsgPut_eq h, drop_setNlmsgLen, hset, hread, hlength]
  refine ⟨?_, rfl, rfl⟩
  rw [List.append_assoc, List.drop_append_of_le_length (by omega), ← List.append_assoc]

theorem nlaPut_bytes {type : UInt16} {data : List UInt8}
    (h : nlaPut realloc m type data = some m') :
    m'.msg.buf.drop 4 =
        m.msg.buf.drop 4 ++ (gap m.msg.buf.length ++ attrBytes (type, data)) ∧
      m'.msg.buf.length = align m.msg.buf.length + (attrBytes (type, data)).length ∧
      nlmsgLen m'.msg.buf = m'.msg.buf.length % 2 ^ 32 := by
  obtain ⟨m₁, h₁, h₂⟩ := Option.bind_eq_some_iff.mp h
  obtain ⟨hdrop₁, hlength₁, -⟩ := nlmsgPut_bytes h₁
  obtain ⟨hdrop₂, hlength₂, hlen⟩ := nlmsgPut_bytes h₂
  have hhdr : (leBytes 2 (data.length + NLA_HDRLEN) ++ leBytes 2 type.toNat).length = 4 := by
    rw [List.length_append, length_leBytes, length_leBytes]
  rw [hhdr] at hlength₁
  -- the payload follows its header without a gap
  have hnogap : gap m₁.msg.buf.length = [] := by
    rw [hlength₁, gap_align]
    rfl
  refine ⟨?_, ?_, hlen⟩
  · rw [hdrop₂, hnogap, hdrop₁, attrBytes]
    simp only [List.append_assoc, List.nil_append]
  · have haligned : align (align m.msg.buf.length + 4) = align m.msg.buf.length + 4 := by
      unfold align
      omega
    have hattr : (attrBytes (type, data)).length = data.length + 4 := length_attrBytes _
    rw [hlength₂, hlength₁, haligned, hattr]
    omega

theorem nlaPuts_bytes {puts : List (UInt16 × List UInt8)} (h : nlaPuts realloc m puts = some m')
    (hm : nlmsgLen m.msg.buf = m.msg.buf.length % 2 ^ 32) :
    m'.msg.buf.drop 4 = m.msg.buf.drop 4 ++ behind m.msg.buf.length puts ∧
      nlmsgLen m'.msg.buf = m'.msg.buf.length % 2 ^ 32 := by
  induction puts generalizing m with
  | nil =>
    rw [← Option.some.inj h, behind, if_pos rfl, List.append_nil]
    exact ⟨rfl, hm⟩
  | cons p puts ih =>
    obtain ⟨m₁, h₁, h₂⟩ := Option.bind_eq_some_iff.mp h
    obtain ⟨hdrop, hlength, hlen⟩ := nlaPut_bytes h₁
    obtain ⟨hrest, hlen'⟩ := ih h₂ hlen
    refine ⟨?_, hlen'⟩
    rw [hrest, hdrop, hlength, List.append_assoc]
    congr 1
    by_cases hputs : puts = []
    · subst hputs
      simp [behind, attrsBytes]
    · simp [behind, attrsBytes, hputs, gap_align]

end

/-! ## Reading it back -/

/-- The attribute `p` starts the bytes `s`, with zeros up to the next multiple of four. -/
def Encodes (s : List UInt8) (p : UInt16 × List UInt8) : Prop :=
  p.2.length ≤ 65531 ∧ ∃ rest, s = attrBytes p ++ rest ∧
    ∀ b ∈ rest.take (align (attrBytes p).length - (attrBytes p).length), b = 0

section
variable {p : UInt16 × List UInt8} (rest : List UInt8)

theorem nlaNlaLen_attrBytes (h : p.2.length ≤ 65531) :
    nlaNlaLen (attrBytes p ++ rest) = p.2.length + NLA_HDRLEN := by
  have hlen : p.2.length + NLA_HDRLEN < 256 ^ 2 := by
    unfold NLA_HDRLEN
    omega
  have h := uint_prefix_leBytes [] (leBytes 2 p.1.toNat ++ p.2 ++ rest) hlen
  simpa [nlaNlaLen, attrBytes] using h

theorem nlaType_attrBytes : nlaType (attrBytes p ++ rest) = p.1.toNat := by
  have h := uint_prefix_leBytes (leBytes 2 (p.2.length + NLA_HDRLEN)) (p.2 ++ rest) (k := 2)
    p.1.toNat_lt
  simpa [nlaType, attrBytes] using h

theorem nlaRead_attrBytes : nlaRead (attrBytes p ++ rest) = p.2 ++ rest := by
  have hlength : (leBytes 2 (p.2.length + NLA_HDRLEN) ++ leBytes 2 p.1.toNat).length = 4 := by
    rw [List.length_append, length_leBytes, length_leBytes]
  rw [nlaRead, attrBytes, List.append_assoc]
  exact List.drop_left' hlength

end

theorem records_attrsBytes {puts : List (UInt16 × List UInt8)}
    (hputs : ∀ p ∈ puts, p.2.length ≤ 65531) :
    List.Forall₂ Encodes (records NLA_HDRLEN nlaNlaLen (attrsBytes puts)) puts := by
  induction puts with
  | nil =>
    have hno : ¬ Fits NLA_HDRLEN nlaNlaLen (attrsBytes []) := fun h => absurd h.1 (by decide)
    rw [records_of_not_fits hno]
    exact .nil
  | cons p puts ih =>
    have hp := hputs p List.mem_cons_self
    have hrest := ih fun q hq => hputs q (List.mem_cons_of_mem _ hq)
    have hbytes : attrsBytes (p :: puts) =
        attrBytes p ++ ((if puts = [] then [] else gap (attrBytes p).length) ++ attrsBytes puts) := by
      rw [attrsBytes, List.append_assoc]
    have hlen := nlaNlaLen_attrBytes (p := p)
      ((if puts = [] then [] else gap (attrBytes p).length) ++ attrsBytes puts) hp
    rw [← hbytes, ← length_attrBytes] at hlen
    have hfits : Fits NLA_HDRLEN nlaNlaLen (attrsBytes (p :: puts)) := by
      have hhdr := length_attrBytes p
      have hle : (attrBytes p).length ≤ (attrsBytes (p :: puts)).length := by
        rw [hbytes, List.length_append]
        exact Nat.le_add_right _ _
      unfold Fits
      omega
    have hgap := length_gap (attrBytes p).length
    have hdrop : (attrsBytes (p :: puts)).drop (align (nlaNlaLen (attrsBytes (p :: puts)))) =
        attrsBytes puts := by
      rw [hlen, hbytes]
      by_cases hnil : puts = []
      · subst hnil
        exact List.drop_eq_nil_of_le (by simpa [attrsBytes] using le_align _)
      · rw [if_neg hnil, ← List.append_assoc, List.drop_left']
        rw [List.length_append, hgap]
    rw [records_of_fits (by decide) hfits, hdrop]
    apply List.Forall₂.cons _ hrest
    refine ⟨hp, _, hbytes, ?_⟩
    intro b hb
    by_cases hnil : puts = []
    · subst hnil
      simp [attrsBytes] at hb
    · have hlength : (gap (attrBytes p).length).length =
          align (attrBytes p).length - (attrBytes p).length := by omega
      rw [if_neg hnil, List.take_left' hlength] at hb
      exact List.eq_of_mem_replicate hb

structure AttrAt (mem : List UInt8) (a : Nat) (p : UInt16 × List UInt8) : Prop where
  len : lenAt mem a = p.2.length + NLA_HDRLEN
  type : typeAt mem a = p.1.toNat
  payload : slice (a + NLA_HDRLEN) p.2.length mem = p.2
  gap : ∀ i, a + lenAt mem a ≤ i → i < a + align (lenAt mem a) → ∀ b ∈ mem[i]?, b = 0

theorem Encodes.attrAt {mem : List UInt8} {a : Nat} {p : UInt16 × List UInt8}
    (h : Encodes (mem.drop a) p) : AttrAt mem a p := by
  obtain ⟨hp, rest, hrest, hzero⟩ := h
  have hlen : lenAt mem a = p.2.length + NLA_HDRLEN := by
    rw [← nlaNlaLen_attrBytes rest hp, ← hrest, nlaNlaLen, lenAt, uint, uint, slice, slice,
      List.drop_zero]
  constructor
  · exact hlen
  · rw [← nlaType_attrBytes rest, ← hrest, nlaType, typeAt, uint, uint, slice, slice,
      List.drop_drop]
  · have hread := nlaRead_attrBytes (p := p) rest
    rw [← hrest, nlaRead, List.drop_drop] at hread
    rw [slice, hread, List.take_left]
  · intro i hlo hhi b hb
    obtain ⟨j, rfl⟩ : ∃ j, i = a + j := ⟨i - a, by omega⟩
    rw [hlen, ← length_attrBytes] at hlo hhi
    rw [← List.getElem?_drop, hrest, List.getElem?_append_right (by omega)] at hb
    apply hzero b
    apply List.mem_of_getElem? (i := j - (attrBytes p).length)
    rw [List.getElem?_take_of_lt (by omega)]
    exact hb

theorem nlasOf_append (b rest : List UInt8) :
    nlasOf (b ++ rest) b.length = (records NLA_HDRLEN nlaNlaLen b).map (· ++ rest) := by
  rw [nlasOf, List.take_left]
  apply List.map_congr_left
  intro s hs
  obtain ⟨before, hbefore⟩ := suffix_of_mem_records hs
  rw [← hbefore, List.length_append, Nat.add_sub_cancel, List.append_assoc, List.drop_left]

theorem map_filter_forall₂ {α β γ : Type} {R : α → β → Prop} {p : α → Bool} {q : β → Bool}
    {f : α → γ} {g : β → γ} (hpq : ∀ x y, R x y → p x = q y)
    (hfg : ∀ x y, R x y → p x = true → f x = g y) {xs : List α} {ys : List β}
    (h : List.Forall₂ R xs ys) :
    (xs.filter p).map f = (ys.filter q).map g := by
  induction h with
  | nil => rfl
  | @cons x y xs ys hxy _ ih =>
    rw [List.filter_cons, List.filter_cons, ← hpq x y hxy]
    by_cases hp : p x = true
    · rw [if_pos hp, if_pos hp, List.map_cons, List.map_cons, ih, hfg x y hxy hp]
    · rw [if_neg hp, if_neg hp, ih]

def payloadAt (mem : List UInt8) (a : Nat) : List UInt8 :=
  slice (a + NLA_HDRLEN) (lenAt mem a - NLA_HDRLEN) mem

theorem AttrAt.payloadAt {mem : List UInt8} {a : Nat} {p : UInt16 × List UInt8}
    (h : AttrAt mem a p) : payloadAt mem a = p.2 := by
  rw [Netlink.payloadAt, h.len, Nat.add_sub_cancel]
  exact h.payload

theorem drop_align_behind {b b' : List UInt8} {puts : List (UInt16 × List UInt8)}
    (hb : NLMSG_HDRLEN ≤ b.length) (h : b'.drop 4 = b.drop 4 ++ behind b.length puts) :
    b'.drop (align b.length) = attrsBytes puts := by
  have hle := le_align b.length
  have hgap := length_gap b.length
  unfold NLMSG_HDRLEN at hb
  have hoff : align b.length = 4 + (align b.length - 4) := by omega
  rw [hoff, ← List.drop_drop, h]
  by_cases hputs : puts = []
  · subst hputs
    apply List.drop_eq_nil_of_le
    simp only [behind, if_true, List.append_nil, List.length_drop]
    omega
  · rw [behind, if_neg hputs, ← List.append_assoc, List.drop_left']
    rw [List.length_append, List.length_drop]
    omega

theorem gap_behind {b b' : List UInt8} {puts : List (UInt16 × List UInt8)}
    (hb : NLMSG_HDRLEN ≤ b.length) (h : b'.drop 4 = b.drop 4 ++ behind b.length puts) :
    ∀ i, b.length ≤ i → i < align b.length → ∀ x ∈ b'[i]?, x = 0 := by
  intro i hlo hhi x hx
  unfold NLMSG_HDRLEN at hb
  have hgap := length_gap b.length
  have hdrop : (b.drop 4).length = b.length - 4 := List.length_drop
  obtain ⟨j, rfl⟩ : ∃ j, i = 4 + j := ⟨i - 4, by omega⟩
  rw [← List.getElem?_drop, h, List.getElem?_append_right (by omega)] at hx
  by_cases hputs : puts = []
  · subst hputs
    cases hx
  · rw [behind, if_neg hputs, List.getElem?_append_left (by omega)] at hx
    exact List.eq_of_mem_replicate (List.mem_of_getElem? hx)

/-- Decoding undoes encoding: behind a message of any length the loops find the attributes
that were put, the tables the last one of each type, and the gaps are zero. -/
theorem nlaPuts_decode {realloc : Nat → Bool} {m m' : OutMsg} {puts : List (UInt16 × List UInt8)}
    (hm : nlmsgLen m.msg.buf = m.msg.buf.length) (hputs : ∀ p ∈ puts, p.2.length ≤ 65531)
    (h : nlaPuts realloc m puts = some m') (htotal : m'.msg.buf.length < 2 ^ 30) :
    ∃ msg : NlMsg, msg = { m'.msg with start := align m.msg.buf.length } ∧
      (∃ visited, (∀ fuel, msg.buf.length < fuel → forEachNla msg fuel = some visited) ∧
        List.Forall₂ (AttrAt msg.buf) visited puts) ∧
      (∀ max, ∃ tb, (∀ fuel, msg.buf.length < fuel → nlmsgAttrsTable msg max fuel = some tb) ∧
        ∀ t ≤ max, ∃ slot, tb[t]? = some slot ∧
          slot.map (payloadAt msg.buf) =
            (puts.filter fun p => p.1.toNat = t).getLast?.map Prod.snd) ∧
      (∀ i, m.msg.buf.length ≤ i → i < align m.msg.buf.length → ∀ b ∈ msg.buf[i]?, b = 0) ∧
      nlmsgLen msg.buf = msg.buf.length := by
  refine ⟨_, rfl, ?_⟩
  have hlt := uint_lt 0 4 m.msg.buf
  have hmod : nlmsgLen m.msg.buf = m.msg.buf.length % 2 ^ 32 := by
    rw [hm, Nat.mod_eq_of_lt]
    rw [← hm]
    exact hlt
  obtain ⟨hdrop, hlen⟩ := nlaPuts_bytes h hmod
  obtain ⟨visited, hrun, hwalked⟩ :=
    forEachNla_walked { m'.msg with start := align m.msg.buf.length }
  have hvisited : List.Forall₂ (AttrAt m'.msg.buf) visited puts := by
    have hnlas := nlas_eq (hrun _ (Nat.lt_succ_self _))
    have hlength : (m'.msg.buf.drop (align m.msg.buf.length)).length =
      m'.msg.buf.length - align m.msg.buf.length := List.length_drop
    have hwhole := nlasOf_append (m'.msg.buf.drop (align m.msg.buf.length)) []
    simp only [List.append_nil, List.map_id'] at hwhole
    rw [nlas, ← hlength, hwhole, drop_align_behind m.header hdrop] at hnlas
    have hrecords := records_attrsBytes hputs
    rw [hnlas, List.forall₂_map_left_iff] at hrecords
    exact hrecords.imp fun _ _ hencodes => hencodes.attrAt
  refine ⟨⟨visited, hrun, hvisited⟩, fun max => ?_, ?_, ?_⟩
  · obtain ⟨tb, hfilled, htable⟩ := nlmsgAttrsTable_filled hwalked hrun max
    refine ⟨tb, htable, fun t ht => ⟨_, hfilled.slot t ht, ?_⟩⟩
    have hmap := map_filter_forall₂ (p := fun a => typeAt m'.msg.buf a = t)
      (q := fun p => p.1.toNat = t) (f := payloadAt m'.msg.buf) (g := Prod.snd)
      (fun _ _ hat => by rw [hat.type]) (fun _ _ hat _ => hat.payloadAt) hvisited
    rw [← List.getLast?_map, ← List.getLast?_map, hmap]
  · exact gap_behind m.header hdrop
  · show nlmsgLen m'.msg.buf = m'.msg.buf.length
    rw [hlen, Nat.mod_eq_of_lt (by omega)]

theorem nlaPuts_decode_two : ∃ m', ∃ visited,
    nlaPuts (fun _ => true) (nlmsgNew 18 768) [(3, [108, 111, 0]), (29, [])] = some m' ∧
      List.Forall₂ (AttrAt m'.msg.buf) visited [(3, [108, 111, 0]), (29, [])] := by
  have hputs : ∃ m', nlaPuts (fun _ => true) (nlmsgNew 18 768) [(3, [108, 111, 0]), (29, [])] =
      some m' ∧ m'.msg.buf.length = 28 := by
    apply Option.map_eq_some_iff.mp
    decide +kernel
  obtain ⟨m', hrun, hlength⟩ := hputs
  obtain ⟨msg, rfl, ⟨visited, -, hvisited⟩, -⟩ :=
    nlaPuts_decode (by decide) (by decide) hrun (by omega)
  exact ⟨m', visited, hrun, hvisited⟩

end Plotnetcfg.Netlink
