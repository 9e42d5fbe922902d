import Plotnetcfg.Core.Match
import Plotnetcfg.Netlink.Request
import Plotnetcfg.Netns.Scan

/-! The ids that the kernel gives name spaces in each other (`netns_get_id` and
`netns_get_all_ids` in `netns.c`). Whatever happens on the socket, an id on record is the one of
its name space. -/

namespace Plotnetcfg.Netns

open Plotnetcfg.Netlink Bytes AlignedRecords

def RTM_GETNSID : UInt16 := 90
def AF_UNSPEC : UInt8 := 0
def NETNSA_NSID : UInt16 := 1
def NETNSA_FD : UInt16 := 3

def RTGENMSG_LEN : Nat := 1

/-- The outcomes of the calls `netns_get_all_ids` makes in one name space. The functions give
the outcome for the n-th entry of the list. -/
structure IdsEnv where
  setns : SysResult := none
  rtnlOpen : Option NlHandle
  nlmsgNew : Nat → Bool := fun _ => true
  realloc : Nat → Bool := fun _ => true
  sock : Nat → SockEnv := fun _ => {}
  malloc : Nat → Bool := fun _ => true
  evs : List SockEvent

def IdsEnv.opened (env : IdsEnv) : Option Session :=
  if env.setns.isSome then none else env.rtnlOpen.map fun hnd => ⟨hnd, env.evs, []⟩

section
-- `descriptor` is the number of the file the entry keeps open
variable (env : IdsEnv) (descriptor : NsPtr → UInt32)

def nsidRequest (i : Nat) (entry : NsPtr) : Option OutMsg :=
  (rtnlmsgNew (env.nlmsgNew i) env.realloc RTM_GETNSID AF_UNSPEC 0 RTGENMSG_LEN).bind fun req =>
    nlaPut env.realloc req NETNSA_FD (leBytes 4 (descriptor entry).toNat)

/-- `netns_get_id`; without a result the program is killed. -/
def netnsGetId (i : Nat) (entry : NsPtr) (s : Session) : Option Int × Session :=
  let (a, s) := askAttr (env.sock i) (nsidRequest env descriptor i entry) RTGENMSG_LEN
    NETNSA_NSID.toNat s
  (a.map fun a => (a.map nlaReadS32).getD (-1), s)

/-- The loop of `netns_get_all_ids` from the n-th entry on: the records it appends. -/
def getIds : Nat → List NsPtr → Session → Option (List NetnsId) × Session
  | _, [], s => (some [], s)
  | i, entry :: list, s =>
    match netnsGetId env descriptor i entry s with
    | (none, s) => (none, s)
    | (some id, s) =>
      if id < 0 then getIds (i + 1) list s
      else if !env.malloc i then (some [], s)
      else
        let (ids, s) := getIds (i + 1) list s
        (ids.map (⟨entry, id⟩ :: ·), s)

def netnsGetAllIds (current : NsPtr) (w : World) : Option World :=
  match env.opened with
  | none => some w
  | some s =>
    (getIds env descriptor 0 w.nsList s).1.map fun ids =>
      w.modifyNs current fun x => { x with ids := x.ids ++ ids }

end

def fillAllIds (env : NsPtr → IdsEnv) (descriptor : NsPtr → UInt32) :
    List NsPtr → World → Option World
  | [], w => some w
  | current :: list, w =>
    (netnsGetAllIds (env current) descriptor current w).bind (fillAllIds env descriptor list)

theorem IdsEnv.opened_new {env : IdsEnv} {s : Session} (h : env.opened = some s) :
    Session.Reached s.hnd s.evs s ∧ s.turns = [] := by
  unfold IdsEnv.opened at h
  split at h
  · cases h
  · obtain ⟨hnd, -, rfl⟩ := Option.map_eq_some_iff.mp h
    exact ⟨.opened, rfl⟩

/-! ## The question -/

def requestedFd (src : NlMsg) : Option UInt32 :=
  (firstAttr { src with start := 16 } RTGENMSG_LEN NETNSA_FD.toNat).map nlaReadU32

section
variable {env : IdsEnv} {descriptor : NsPtr → UInt32} {i : Nat} {entry : NsPtr} {req : OutMsg}

theorem nsidRequest_spec (h : nsidRequest env descriptor i entry = some req) :
    isDump req.msg = false ∧ requestedFd req.msg = some (descriptor entry) := by
  obtain ⟨m, hm, hput⟩ := Option.bind_eq_some_iff.mp h
  unfold rtnlmsgNew at hm
  split at hm
  swap
  · cases hm
  have hdata : (leBytes 4 (descriptor entry).toNat).length ≤ 65531 := by simp
  obtain ⟨hdump, hattrs⟩ := question_spec rfl hm hput hdata
  refine ⟨hdump, ?_⟩
  -- the request is long enough for its own header
  have hlen : ¬ req.msg.buf.length - 16 < RTGENMSG_LEN := by
    have hlength := (nlaPut_bytes hput).2.1
    have hheader := m.header
    have hle := le_align m.msg.buf.length
    rw [length_attrBytes] at hlength
    unfold NLMSG_HDRLEN at hheader
    unfold RTGENMSG_LEN NLA_HDRLEN at *
    omega
  have hget : firstAttr { req.msg with start := 16 } RTGENMSG_LEN NETNSA_FD.toNat =
      (nlas { req.msg with start := 20 }).find? (nlaType · == NETNSA_FD.toNat) := by
    simp only [firstAttr, nlmsgGet, if_neg hlen, Option.bind_some]
    rfl
  have hstart : 16 + align ([AF_UNSPEC] ++ zeros (RTGENMSG_LEN - [AF_UNSPEC].length)).length = 20 :=
    rfl
  rw [hstart] at hattrs
  rw [requestedFd, hget]
  generalize nlas { req.msg with start := 20 } = as at hattrs ⊢
  cases hattrs with
  | cons hfd hnil =>
    cases hnil
    obtain ⟨-, rest, rfl, -⟩ := hfd
    rw [List.find?_cons_of_pos (by simp [nlaType_attrBytes]), Option.map_some, Option.some.injEq,
      nlaReadU32]
    have hread := uint_prefix_leBytes (leBytes 2 (4 + NLA_HDRLEN) ++ leBytes 2 NETNSA_FD.toNat) rest
      (k := 4) (descriptor entry).toNat_lt
    have hvalue : uint NLA_HDRLEN 4 (attrBytes (NETNSA_FD,
        leBytes 4 (descriptor entry).toNat) ++ rest) = (descriptor entry).toNat := by
      simpa [attrBytes, NLA_HDRLEN] using hread
    rw [hvalue, UInt32.ofNat_toNat]

theorem nsidRequest_isSome (descriptor : NsPtr → UInt32) (entry : NsPtr) (h : env.nlmsgNew i = true) :
    ∃ req, nsidRequest env descriptor i entry = some req := by
  have hnew : (nlmsgNew RTM_GETNSID 0).msg.buf.length = 16 := by simp [nlmsgNew, setNlmsgLen, zeros]
  obtain ⟨m, hm, halloc⟩ := nlmsgPut_isSome env.realloc (nlmsgNew RTM_GETNSID 0)
    ([AF_UNSPEC] ++ zeros (RTGENMSG_LEN - [AF_UNSPEC].length)) (by rw [hnew]; decide)
  have hlength := (nlmsgPut_bytes hm).2.1
  rw [hnew] at hlength
  have hlength : m.msg.buf.length = 17 := hlength
  have halloc : m.allocated = 16384 := halloc
  obtain ⟨m₁, hm₁, halloc₁⟩ := nlmsgPut_isSome env.realloc m
    (leBytes 2 ((leBytes 4 (descriptor entry).toNat).length + NLA_HDRLEN) ++
      leBytes 2 NETNSA_FD.toNat)
    (by rw [hlength, halloc, List.length_append, length_leBytes, length_leBytes]; decide)
  have hlength₁ := (nlmsgPut_bytes hm₁).2.1
  rw [hlength, List.length_append, length_leBytes, length_leBytes] at hlength₁
  have hlength₁ : m₁.msg.buf.length = 24 := hlength₁
  obtain ⟨m₂, hm₂, -⟩ := nlmsgPut_isSome env.realloc m₁
    (leBytes 4 (descriptor entry).toNat)
    (by rw [hlength₁, halloc₁, halloc, length_leBytes]; decide)
  refine ⟨m₂, ?_⟩
  simp only [nsidRequest, rtnlmsgNew, h, if_true, nlmsgPutPadded, hm, Option.bind_some, nlaPut, hm₁,
    hm₂]

end

/-! ## The answers -/

/-- What the kernel tells about a request: the id of the name space that the descriptor in it
refers to. -/
def nsidValue (file : UInt32 → Option KernelNs) (nsid : KernelNs → Int32) (src : NlMsg) :
    Option (List UInt8) :=
  ((requestedFd src).bind file).map fun ns => leBytes 4 (nsid ns).toUInt32.toNat

theorem nlaReadS32_leBytes {a rest : List UInt8} {v : Int32}
    (h : nlaRead a = leBytes 4 v.toUInt32.toNat ++ rest) : nlaReadS32 a = v.toInt := by
  have hread := uint_prefix_leBytes [] rest (k := 4) v.toUInt32.toNat_lt
  have huint : uint NLA_HDRLEN 4 a = v.toUInt32.toNat := by
    rw [List.nil_append, ← h, nlaRead, uint, slice, List.length_nil, List.drop_zero] at hread
    rwa [uint, slice]
  rw [nlaReadS32, sint, huint]
  exact (BitVec.toInt_eq_toNat_bmod v.toBitVec).symm

section
variable {env : IdsEnv} {descriptor : NsPtr → UInt32} {file : UInt32 → Option KernelNs}
  {nsid : KernelNs → Int32} {hnd : NlHandle} {evs : List SockEvent}

theorem netnsGetId_session (env : IdsEnv) (descriptor : NsPtr → UInt32) (i : Nat) (entry : NsPtr) (s : Session) :
    (netnsGetId env descriptor i entry s).2 = s ∨
      ∃ req, nsidRequest env descriptor i entry = some req ∧
        (netnsGetId env descriptor i entry s).2 = s.exchange (env.sock i) req.msg := by
  unfold netnsGetId
  cases hreq : nsidRequest env descriptor i entry with
  | none => exact .inl rfl
  | some req => exact .inr ⟨req, rfl, askAttr_session⟩

theorem netnsGetId_reached (env : IdsEnv) (descriptor : NsPtr → UInt32) (i : Nat) (entry : NsPtr) {s : Session}
    (hs : Session.Reached hnd evs s) :
    Session.Reached hnd evs (netnsGetId env descriptor i entry s).2 := by
  rcases netnsGetId_session env descriptor i entry s with h | ⟨req, -, h⟩
  · rw [h]
    exact hs
  · rw [h]
    exact hs.exchange _ _

theorem getIds_reached (env : IdsEnv) (descriptor : NsPtr → UInt32) (list : List NsPtr) (i : Nat) {s : Session}
    (hs : Session.Reached hnd evs s) :
    Session.Reached hnd evs (getIds env descriptor i list s).2 ∧
      s.turns ⊆ (getIds env descriptor i list s).2.turns ∧
      (getIds env descriptor i list s).2.turns.length ≤ s.turns.length + list.length := by
  induction list generalizing i s with
  | nil => exact ⟨hs, List.Subset.refl _, le_rfl⟩
  | cons entry list ih =>
    have hs₁ := netnsGetId_reached env descriptor i entry hs
    have hstep : s.turns ⊆ (netnsGetId env descriptor i entry s).2.turns ∧
        (netnsGetId env descriptor i entry s).2.turns.length ≤ s.turns.length + 1 := by
      rcases netnsGetId_session env descriptor i entry s with h | ⟨req, -, h⟩
      · rw [h]
        exact ⟨List.Subset.refl _, Nat.le_succ _⟩
      · rw [h]
        exact ⟨List.subset_append_left _ _, by simp [Session.exchange]⟩
    rw [getIds]
    cases hget : netnsGetId env descriptor i entry s with
    | mk id s₁ =>
      rw [hget] at hs₁ hstep
      obtain ⟨hsub, hlen⟩ := hstep
      dsimp only at hs₁ hsub hlen
      have hdone : s₁.turns.length ≤ s.turns.length + (entry :: list).length :=
        hlen.trans (Nat.add_le_add_left (by simp) _)
      obtain ⟨hlast, hsub', hlen'⟩ := ih (i + 1) hs₁
      have hmore : (getIds env descriptor (i + 1) list s₁).2.turns.length ≤
          s.turns.length + (entry :: list).length := by
        rw [List.length_cons]
        omega
      cases id with
      | none => exact ⟨hs₁, hsub, hdone⟩
      | some id =>
        simp only
        split_ifs
        · exact ⟨hlast, List.Subset.trans hsub hsub', hmore⟩
        · exact ⟨hs₁, hsub, hdone⟩
        · exact ⟨hlast, List.Subset.trans hsub hsub', hmore⟩

/-- Memory suffices and the kernel answers every request in time. -/
structure Served (env : IdsEnv) (S : Session) : Prop where
  nlmsgNew : ∀ i, env.nlmsgNew i = true
  malloc : ∀ i, env.malloc i = true
  answered : ∀ turn ∈ S.turns, turn.2.err = 0

theorem netnsGetId_told {S : Session} (hS : Session.Reached hnd evs S)
    (hfew : NL_RETRY_COUNT * S.turns.length < 2 ^ 32) {net : Net}
    (hrun : Net.Run (Tells RTGENMSG_LEN NETNSA_NSID.toNat (nsidValue file nsid)) hnd.pid S.trace
      net) {i : Nat} {entry : NsPtr} {s : Session} {ns : KernelNs}
    (hfile : file (descriptor entry) = some ns)
    (hsub : (netnsGetId env descriptor i entry s).2.turns ⊆ S.turns) :
    ∃ id, (netnsGetId env descriptor i entry s).1 = some id ∧
      (id = (nsid ns).toInt ∨ id = -1 ∧ ¬ Served env S) := by
  cases hreq : nsidRequest env descriptor i entry with
  | none =>
    refine ⟨-1, by simp [netnsGetId, hreq, askAttr], .inr ⟨rfl, fun hserved => ?_⟩⟩
    obtain ⟨req, hsome⟩ := nsidRequest_isSome descriptor entry
      (hserved.nlmsgNew i)
    rw [hreq] at hsome
    cases hsome
  | some req =>
    obtain ⟨hdump, hfd⟩ := nsidRequest_spec hreq
    have hturn : (req.msg, nlExchange (env.sock i) s.hnd req.msg s.evs) ∈ S.turns := by
      apply hsub
      have hsession : (netnsGetId env descriptor i entry s).2 =
          s.exchange (env.sock i) req.msg := by
        rw [netnsGetId, hreq]
        exact askAttr_session
      rw [hsession]
      exact List.mem_append_right _ (List.mem_singleton.mpr rfl)
    obtain ⟨a, hask, htold⟩ := askAttr_tells hS hfew hrun hturn hdump
    have hid : (netnsGetId env descriptor i entry s).1 =
        some ((a.map nlaReadS32).getD (-1)) := by
      simp [netnsGetId, hreq, hask]
    refine ⟨_, hid, ?_⟩
    rcases htold with ⟨herr, rfl⟩ | htold
    · exact .inr ⟨rfl, fun hserved => herr (hserved.answered _ hturn)⟩
    · have hvalue : nsidValue file nsid req.msg = some (leBytes 4 (nsid ns).toUInt32.toNat) := by
        rw [nsidValue, hfd, Option.bind_some, hfile, Option.map_some]
      rw [hvalue] at htold
      cases htold with
      | some hread =>
        obtain ⟨rest, hread⟩ := hread
        refine .inl ?_
        rw [Option.map_some, Option.getD_some]
        exact nlaReadS32_leBytes hread

/-- The records of one name space: none is wrong, and where all goes well none is missing. -/
structure Told (file : UInt32 → Option KernelNs) (nsid : KernelNs → Int32)
    (descriptor : NsPtr → UInt32) (list : List NsPtr) (all : Prop) (ids : List NetnsId) : Prop where
  sound : ∀ r ∈ ids, r.ns ∈ list ∧ 0 ≤ r.id ∧
    ∃ ns, file (descriptor r.ns) = some ns ∧ r.id = (nsid ns).toInt
  complete : all → ∀ n ∈ list, ∀ ns, file (descriptor n) = some ns → 0 ≤ (nsid ns).toInt →
    ⟨n, (nsid ns).toInt⟩ ∈ ids

theorem told_nil {list : List NsPtr} {all : Prop} (h : ¬ all) :
    Told file nsid descriptor list all [] :=
  ⟨fun _ hr => absurd hr List.not_mem_nil, fun hall => absurd hall h⟩

theorem getIds_told {S : Session} (hS : Session.Reached hnd evs S)
    (hfew : NL_RETRY_COUNT * S.turns.length < 2 ^ 32) {net : Net}
    (hrun : Net.Run (Tells RTGENMSG_LEN NETNSA_NSID.toNat (nsidValue file nsid)) hnd.pid S.trace
      net) (list : List NsPtr) (hfile : ∀ n ∈ list, (file (descriptor n)).isSome) (i : Nat)
    {s : Session} (hs : Session.Reached hnd evs s)
    (hsub : (getIds env descriptor i list s).2.turns ⊆ S.turns) :
    ∃ ids, (getIds env descriptor i list s).1 = some ids ∧
      Told file nsid descriptor list (Served env S) ids := by
  induction list generalizing i s with
  | nil =>
    refine ⟨[], rfl, fun r hr => absurd hr List.not_mem_nil, fun _ n hn => ?_⟩
    exact absurd hn List.not_mem_nil
  | cons entry list ih =>
    obtain ⟨ns, hns⟩ := Option.isSome_iff_exists.mp (hfile entry List.mem_cons_self)
    have hrest : ∀ n ∈ list, (file (descriptor n)).isSome :=
      fun n hn => hfile n (List.mem_cons_of_mem _ hn)
    have hs₁ := netnsGetId_reached env descriptor i entry hs
    have hturns : (netnsGetId env descriptor i entry s).2.turns ⊆
        (getIds env descriptor i (entry :: list) s).2.turns := by
      have hnext := (getIds_reached env descriptor list (i + 1) hs₁).2.1
      rw [getIds]
      cases hget : netnsGetId env descriptor i entry s with
      | mk id s₁ =>
        rw [hget] at hnext
        cases id with
        | none => exact List.Subset.refl _
        | some id =>
          simp only
          split_ifs
          · exact hnext
          · exact List.Subset.refl _
          · exact hnext
    obtain ⟨id, hid, htold⟩ := netnsGetId_told hS hfew hrun (s := s) (i := i) hns
      (List.Subset.trans hturns hsub)
    rw [getIds] at hsub ⊢
    cases hget : netnsGetId env descriptor i entry s with
    | mk id' s₁ =>
      rw [hget] at hid hsub hs₁
      obtain rfl : id' = some id := hid
      simp only at hsub ⊢
      split_ifs at hsub ⊢ with hneg hmalloc
      · obtain ⟨ids, hids, hspec⟩ := ih hrest (i + 1) hs₁ hsub
        refine ⟨ids, hids, fun r hr => ?_, fun hall n hn m hm hpos => ?_⟩
        · obtain ⟨hmem, hr⟩ := hspec.sound r hr
          exact ⟨List.mem_cons_of_mem _ hmem, hr⟩
        · rcases List.mem_cons.mp hn with rfl | hn
          · obtain rfl := Option.some.inj (hns.symm.trans hm)
            rcases htold with rfl | ⟨-, hno⟩
            · exact absurd hneg (by omega)
            · exact absurd hall hno
          · exact hspec.complete hall n hn m hm hpos
      · refine ⟨[], rfl, told_nil fun hall => ?_⟩
        rw [hall.malloc i] at hmalloc
        cases hmalloc
      · obtain ⟨ids, hids, hspec⟩ := ih hrest (i + 1) hs₁ hsub
        have hidns : id = (nsid ns).toInt := by
          rcases htold with h | ⟨rfl, -⟩
          · exact h
          · exact absurd hneg (by decide)
        refine ⟨⟨entry, id⟩ :: ids, by rw [hids]; rfl, fun r hr => ?_, fun hall n hn m hm hpos => ?_⟩
        · rcases List.mem_cons.mp hr with rfl | hr
          · exact ⟨List.mem_cons_self, by simpa using hneg, ns, hns, hidns⟩
          · obtain ⟨hmem, hr⟩ := hspec.sound r hr
            exact ⟨List.mem_cons_of_mem _ hmem, hr⟩
        · rcases List.mem_cons.mp hn with rfl | hn
          · obtain rfl := Option.some.inj (hns.symm.trans hm)
            rw [hidns]
            exact List.mem_cons_self
          · exact List.mem_cons_of_mem _ (hspec.complete hall n hn m hm hpos)

end

/-! ## All name spaces -/

def AsksKernel (env : IdsEnv) (descriptor : NsPtr → UInt32) (list : List NsPtr)
    (file : UInt32 → Option KernelNs) (nsid : KernelNs → Int32) : Prop :=
  ∀ s, env.opened = some s → ∃ net, Net.Run
    (Tells RTGENMSG_LEN NETNSA_NSID.toNat (nsidValue file nsid)) s.hnd.pid
    (getIds env descriptor 0 list s).2.trace net

def AllServed (env : IdsEnv) (descriptor : NsPtr → UInt32) (list : List NsPtr) : Prop :=
  ∃ s, env.opened = some s ∧ Served env (getIds env descriptor 0 list s).2

section
variable {descriptor : NsPtr → UInt32} {file : UInt32 → Option KernelNs}

theorem netnsGetAllIds_told {env : IdsEnv} {nsid : KernelNs → Int32} (current : NsPtr) {w : World}
    (hfew : NL_RETRY_COUNT * w.nsList.length < 2 ^ 32)
    (hfile : ∀ n ∈ w.nsList, (file (descriptor n)).isSome)
    (hkernel : AsksKernel env descriptor w.nsList file nsid) :
    ∃ ids, netnsGetAllIds env descriptor current w =
        some (w.modifyNs current fun x => { x with ids := x.ids ++ ids }) ∧
      Told file nsid descriptor w.nsList (AllServed env descriptor w.nsList) ids := by
  cases hopen : env.opened with
  | none =>
    refine ⟨[], ?_, told_nil ?_⟩
    · have hsame : (w.modifyNs current fun x => { x with ids := x.ids ++ [] }) = w := by
        simp [World.modifyNs]
      rw [netnsGetAllIds, hopen, hsame]
    · rintro ⟨s, hs, -⟩
      rw [hopen] at hs
      cases hs
  | some s =>
    obtain ⟨net, hrun⟩ := hkernel s hopen
    obtain ⟨hs, hturns⟩ := IdsEnv.opened_new hopen
    obtain ⟨hS, -, hlen⟩ := getIds_reached env descriptor w.nsList 0 hs
    rw [hturns, List.length_nil, Nat.zero_add] at hlen
    have hfew' := (Nat.mul_le_mul_left NL_RETRY_COUNT hlen).trans_lt hfew
    obtain ⟨ids, hids, htold⟩ := getIds_told hS hfew' hrun w.nsList hfile 0 hs
      (List.Subset.refl _)
    refine ⟨ids, by rw [netnsGetAllIds, hopen]; simp [hids], htold.sound, fun hall => ?_⟩
    obtain ⟨s', hs', hserved⟩ := hall
    obtain rfl := Option.some.inj (hopen.symm.trans hs')
    exact htold.complete hserved

/-- The name spaces of `done` have their records, the others have none yet. -/
structure FilledUpTo (env : NsPtr → IdsEnv) (descriptor : NsPtr → UInt32)
    (file : UInt32 → Option KernelNs) (nsid : NsPtr → KernelNs → Int32) (w₀ : World)
    (done : List NsPtr) (w : World) : Prop where
  ifs : w.ifs = w₀.ifs
  nsList : w.nsList = w₀.nsList
  free : w.free = w₀.free
  nss : ∀ n, { w.nss n with ids := [] } = { w₀.nss n with ids := [] }
  told : ∀ c ∈ done, Told file (nsid c) descriptor w₀.nsList
    (AllServed (env c) descriptor w₀.nsList) (w.nss c).ids
  later : ∀ c, c ∉ done → (w.nss c).ids = (w₀.nss c).ids

variable {env : NsPtr → IdsEnv} {nsid : NsPtr → KernelNs → Int32} {w₀ : World}

theorem fillAllIds_upTo (hempty : ∀ n ∈ w₀.nsList, (w₀.nss n).ids = [])
    (hfew : NL_RETRY_COUNT * w₀.nsList.length < 2 ^ 32)
    (hfile : ∀ n ∈ w₀.nsList, (file (descriptor n)).isSome)
    (hkernel : ∀ c ∈ w₀.nsList, AsksKernel (env c) descriptor w₀.nsList file (nsid c))
    (list done : List NsPtr) {w : World} (hsplit : (done ++ list).Nodup)
    (hlist : ∀ c ∈ list, c ∈ w₀.nsList)
    (h : FilledUpTo env descriptor file nsid w₀ done w) :
    ∃ w', fillAllIds env descriptor list w = some w' ∧
      FilledUpTo env descriptor file nsid w₀ (done ++ list) w' := by
  induction list generalizing done w with
  | nil => exact ⟨w, rfl, (List.append_nil done).symm ▸ h⟩
  | cons current list ih =>
    have hcur := hlist current List.mem_cons_self
    have hnew : current ∉ done := by
      intro hmem
      exact (List.nodup_append.mp hsplit).2.2 _ hmem _ List.mem_cons_self rfl
    have hasks : AsksKernel (env current) descriptor w.nsList file (nsid current) := by
      rw [h.nsList]
      exact hkernel current hcur
    obtain ⟨ids, hget, htold⟩ := netnsGetAllIds_told current (by rwa [h.nsList])
      (by rwa [h.nsList]) hasks
    rw [h.nsList] at htold
    have hids : (w.nss current).ids = [] := by rw [h.later current hnew, hempty current hcur]
    have hstep : FilledUpTo env descriptor file nsid w₀ (done ++ [current])
        (w.modifyNs current fun x => { x with ids := x.ids ++ ids }) := by
      refine ⟨h.ifs, h.nsList, h.free, fun n => ?_, fun c hc => ?_, fun c hc => ?_⟩
      · rw [World.modifyNs_nss]
        split_ifs
        · exact h.nss n
        · exact h.nss n
      · rw [World.modifyNs_nss]
        rcases List.mem_append.mp hc with hc | hc
        · have hne : c ≠ current := fun heq => hnew (heq ▸ hc)
          rw [if_neg hne]
          exact h.told c hc
        · obtain rfl := List.mem_singleton.mp hc
          rw [if_pos rfl, hids]
          exact htold
      · rw [List.mem_append, List.mem_singleton, not_or] at hc
        rw [World.modifyNs_nss, if_neg hc.2]
        exact h.later c hc.1
    obtain ⟨w', hrun, hfilled⟩ := ih (done ++ [current])
      (by rw [List.append_assoc]; exact hsplit) (fun c hc => hlist c (List.mem_cons_of_mem _ hc))
      hstep
    refine ⟨w', by rw [fillAllIds, hget, Option.bind_some, hrun], ?_⟩
    rw [List.append_assoc] at hfilled
    exact hfilled

/-- No kernel answer can come too late to be told apart: looking up an id yields its name space
or nothing, and where the answers arrive in time it yields the name space. -/
theorem fillAllIds_matchNetnsid (hnodup : w₀.nsList.Nodup)
    (hempty : ∀ n ∈ w₀.nsList, (w₀.nss n).ids = [])
    (hfew : NL_RETRY_COUNT * w₀.nsList.length < 2 ^ 32)
    (hfile : ∀ n ∈ w₀.nsList, file (descriptor n) = some (w₀.nss n).fd)
    (hkernel : ∀ c ∈ w₀.nsList, AsksKernel (env c) descriptor w₀.nsList file (nsid c)) :
    ∃ w, fillAllIds env descriptor w₀.nsList w₀ = some w ∧ ∀ c ∈ w₀.nsList, ∀ id,
      (∀ n, matchNetnsid id (w.nss c) = some n →
        n ∈ w₀.nsList ∧ 0 ≤ id ∧ id = (nsid c (w₀.nss n).fd).toInt) ∧
      (AllServed (env c) descriptor w₀.nsList → 0 ≤ id →
        ∀ n ∈ w₀.nsList, (∀ m ∈ w₀.nsList, (nsid c (w₀.nss m).fd).toInt = id ↔ m = n) →
          matchNetnsid id (w.nss c) = some n) := by
  have hstart : FilledUpTo env descriptor file nsid w₀ [] w₀ :=
    ⟨rfl, rfl, rfl, fun _ => rfl, fun c hc => absurd hc List.not_mem_nil, fun _ _ => rfl⟩
  obtain ⟨w, hrun, hfilled⟩ := fillAllIds_upTo hempty hfew
    (fun n hn => by rw [hfile n hn]; rfl) hkernel w₀.nsList [] hnodup (fun _ => id) hstart
  refine ⟨w, hrun, fun c hc id => ?_⟩
  have htold := hfilled.told c hc
  have hsound : ∀ n, matchNetnsid id (w.nss c) = some n →
      n ∈ w₀.nsList ∧ 0 ≤ id ∧ id = (nsid c (w₀.nss n).fd).toInt := by
    intro n hmatch
    obtain ⟨r, hfind, rfl⟩ := Option.map_eq_some_iff.mp hmatch
    have hid : r.id = id := by simpa using List.find?_some hfind
    obtain ⟨hmem, hpos, ns, hns, hrid⟩ := htold.sound r (List.mem_of_find?_eq_some hfind)
    obtain rfl := Option.some.inj ((hfile r.ns hmem).symm.trans hns)
    exact ⟨hmem, hid ▸ hpos, hid ▸ hrid⟩
  refine ⟨hsound, fun hserved hpos n hn hunique => ?_⟩
  have hrecord := htold.complete hserved n hn (w₀.nss n).fd (hfile n hn)
  rw [(hunique n hn).mpr rfl] at hrecord
  have hsome : (matchNetnsid id (w.nss c)).isSome := by
    rw [matchNetnsid, Option.isSome_map, List.find?_isSome]
    exact ⟨_, hrecord hpos, by simp⟩
  obtain ⟨m, hm⟩ := Option.isSome_iff_exists.mp hsome
  obtain ⟨hmem, -, hid⟩ := hsound m hm
  rw [hm, (hunique m hmem).mp hid.symm]

end

/-! Two name spaces, of which the kernel has given the second one an id in the first. -/

def nsidMsg (seq : UInt32) (id : Nat) : Msg where
  type := 88
  flags := 0
  seq := seq
  pid := 7
  payload := zeros 4 ++ attrsBytes [(NETNSA_NSID, leBytes 4 id)]
  pad := []
  fits := by
    simp [zeros, attrsBytes, attrBytes]
  aligned := by
    simp [zeros, attrsBytes, attrBytes, align]

def twoNamespaces : World where
  ifs _ := {}
  nss n := { fd := if n = 0 then 10 else 11 }
  nsList := [0, 1]
  free := []

def twoDescriptors (n : NsPtr) : UInt32 := if n = 0 then 3 else 4

def twoFiles (fd : UInt32) : Option KernelNs :=
  if fd = 3 then some 10 else if fd = 4 then some 11 else none

def twoNsids (_ : NsPtr) (ns : KernelNs) : Int32 := if ns = 11 then 0 else -1

def twoAnswers : List NetEvent :=
  [.kernel [nsidMsg 1 (2 ^ 32 - 1)] (by decide) (by decide),
    .kernel [nsidMsg 2 0] (by decide) (by decide)]

def twoEnvs (n : NsPtr) : IdsEnv where
  setns := if n = 0 then none else some EINVAL
  rtnlOpen := some ⟨7, 0⟩
  evs := twoAnswers.map NetEvent.sock

def twoRequest (fd : UInt32) : NlMsg :=
  ⟨leBytes 4 28 ++ leBytes 2 90 ++ leBytes 2 1 ++ zeros 12 ++ attrBytes (NETNSA_FD,
    leBytes 4 fd.toNat), 0⟩

def twoTrace : List WireOp :=
  [.send 1 (twoRequest 3), .event (.datagram 0 (wire [nsidMsg 1 (2 ^ 32 - 1)])),
    .send 2 (twoRequest 4), .event (.datagram 0 (wire [nsidMsg 2 0]))]

theorem twoTrace_run : ∃ net, Net.Run (Tells RTGENMSG_LEN NETNSA_NSID.toNat
    (nsidValue twoFiles (twoNsids 0))) 7 twoTrace net := by
  have hstart : Net.Run (Tells RTGENMSG_LEN NETNSA_NSID.toNat (nsidValue twoFiles (twoNsids 0))) 7
      [] {} := .start
  have hfirst := hstart.step (.send {} 1 (twoRequest 3))
  have hanswer := hfirst.step (.reply _ (twoRequest 3) (nsidMsg 1 (2 ^ 32 - 1))
    (by simp [nsidMsg]) rfl (.inr ⟨by decide, zeros 4, [(NETNSA_NSID, leBytes 4 (2 ^ 32 - 1))],
      by decide, by decide, by decide, by decide +kernel⟩))
  have harrived := hanswer.step (.event _ (.kernel [nsidMsg 1 (2 ^ 32 - 1)] (by decide) (by decide))
    (by simp [NetEvent.msgs]))
  have hsecond := harrived.step (.send _ 2 (twoRequest 4))
  have hanswer' := hsecond.step (.reply _ (twoRequest 4) (nsidMsg 2 0)
    (by simp [nsidMsg]) rfl (.inr ⟨by decide, zeros 4, [(NETNSA_NSID, leBytes 4 0)],
      by decide, by decide, by decide, by decide +kernel⟩))
  exact ⟨_, hanswer'.step (.event _ (.kernel [nsidMsg 2 0] (by decide) (by decide))
    (by simp [NetEvent.msgs]))⟩

theorem twoEnvs_asks : AsksKernel (twoEnvs 0) twoDescriptors [0, 1] twoFiles (twoNsids 0) := by
  intro s hs
  obtain rfl := Option.some.inj hs
  have htrace : (getIds (twoEnvs 0) twoDescriptors 0 [0, 1]
      ⟨⟨7, 0⟩, (twoEnvs 0).evs, []⟩).2.trace = twoTrace := rfl
  obtain ⟨net, hrun⟩ := twoTrace_run
  rw [← htrace] at hrun
  exact ⟨net, hrun⟩

theorem twoEnvs_served : AllServed (twoEnvs 0) twoDescriptors [0, 1] := by
  refine ⟨⟨⟨7, 0⟩, (twoEnvs 0).evs, []⟩, rfl, fun _ => rfl, fun _ => rfl, ?_⟩
  decide +kernel

theorem fillAllIds_matchNetnsid_two : ∃ w,
    fillAllIds twoEnvs twoDescriptors [0, 1] twoNamespaces = some w ∧
      matchNetnsid 0 (w.nss 0) = some 1 := by
  have hasks : ∀ c ∈ twoNamespaces.nsList,
      AsksKernel (twoEnvs c) twoDescriptors twoNamespaces.nsList twoFiles (twoNsids c) := by
    intro c hc
    rcases List.mem_cons.mp hc with rfl | hc
    · exact twoEnvs_asks
    · obtain rfl := List.mem_singleton.mp hc
      -- the second name space cannot be entered
      intro s hs
      cases hs
  obtain ⟨w, hrun, hmatch⟩ := fillAllIds_matchNetnsid (by decide) (fun _ _ => rfl) (by decide)
    (by decide) hasks
  exact ⟨w, hrun, (hmatch 0 (by decide) 0).2 twoEnvs_served le_rfl 1 (by decide) (by decide)⟩

end Plotnetcfg.Netns
