import Plotnetcfg.Handlers.Addresses
import Plotnetcfg.Handlers.PrivateUse

/-! Reading the interfaces of a name space with their addresses (`if.c`). The messages of the
address dump are one list with a cursor in each message, which every interface goes through. -/

namespace Plotnetcfg.Handlers

open Plotnetcfg.Netlink Bytes AlignedRecords

def RTM_NEWADDR : Nat := 20

def IFADDRMSG_LEN : Nat := 8

def IFA_ADDRESS : Nat := 1
def IFA_LOCAL : Nat := 2
def IFA_MAX : Nat := 11

/-! The fields of `struct ifaddrmsg`. -/

def ifaFamily (ifa : List UInt8) : Int := uint 0 1 ifa
def ifaPrefixlen (ifa : List UInt8) : Int := uint 1 1 ifa
def ifaIndex (ifa : List UInt8) : UInt32 := UInt32.ofNat (uint 4 4 ifa)

/-! ## Addresses -/

def addIfAddr (dest : IfPtr) (entry : IfAddr) : HandlerProg Unit :=
  modifyWorld (·.modifyIf dest fun x => { x with addr := x.addr ++ [entry] })

def addrInitNetlink (ifa nla : List UInt8) : HandlerProg (Int × Addr) := do
  let mallocOk ← malloc
  let strdupOk ← mallocNext mallocOk
  pure (addrInit (ifaFamily ifa) (ifaPrefixlen ifa) (nlaRead nla) mallocOk strdupOk)

def addrBytes (ifa nla : List UInt8) : List UInt8 := (nlaRead nla).take (addrLen (ifaFamily ifa))

/-- The new entry is in the list before it is filled, and stays there when this fails. -/
def fillEntry (dest : IfPtr) (ifa loc : List UInt8) (address : Option (List UInt8)) :
    HandlerProg Unit := do
  allocate
  let (err, addr) ← addrInitNetlink ifa loc
  if err ≠ 0 then do
    addIfAddr dest ⟨addr, {}⟩
    fail err
  else
    match address with
    | none => addIfAddr dest ⟨addr, {}⟩
    | some address =>
      if addrBytes ifa address = addrBytes ifa loc then addIfAddr dest ⟨addr, {}⟩
      else do
        let (err, peer) ← addrInitNetlink ifa address
        addIfAddr dest ⟨addr, peer⟩
        if err ≠ 0 then fail err else pure ()

def fillIfAddrMsg (dest : IfPtr) (ifa : List UInt8) (ainfo : NlMsg) : HandlerProg Unit := do
  let s ← Prog.get
  if ifaIndex ifa ≠ (s.world.ifs dest).ifIndex then pure ()
  else if nlmsgType ainfo.buf ≠ RTM_NEWADDR then pure ()
  else if ifaFamily ifa ≠ AF_INET ∧ ifaFamily ifa ≠ AF_INET6 then pure ()
  else do
    allocate
    let rtaTb := nlmsgAttrs ainfo IFA_MAX
    match rtaTb IFA_LOCAL, rtaTb IFA_ADDRESS with
    -- broadcast and anycast addresses
    | none, none => pure ()
    | none, some address => fillEntry dest ifa address none
    | some loc, address => fillEntry dest ifa loc address

/-- `ainfo` is the address dump, `aborted` tells whether an assertion has failed. -/
structure ListState where
  scan : ScanState
  ainfo : List NlMsg
  aborted : Bool := false

abbrev ListProg := Prog Stop ListState

def onScan {α : Type} (p : HandlerProg α) : ListProg α :=
  Prog.zoom ListState.scan (fun t s => { s with scan := t }) p

def setMsg (i : Nat) (msg : NlMsg) : ListProg Unit :=
  Prog.modify fun s => { s with ainfo := s.ainfo.set i msg }

def ungetMsg (i len : Nat) : ListProg Unit := do
  let s ← Prog.get
  let msg ← Prog.deref s.ainfo[i]?
  match nlmsgUnget msg len with
  | some msg => setMsg i msg
  | none => do
    Prog.modify fun s => { s with aborted := true }
    Prog.throw .crash

def fillIfAddrTurn (dest : IfPtr) (i : Nat) : ListProg Unit := do
  let s ← Prog.get
  let ainfo ← Prog.deref s.ainfo[i]?
  match nlmsgGet ainfo IFADDRMSG_LEN with
  | none => Prog.throw (.err ENOENT)
  | some (ifa, ainfo) => do
    setMsg i ainfo
    let r ← Prog.attempt (onScan (fillIfAddrMsg dest ifa ainfo))
    ungetMsg i IFADDRMSG_LEN
    match r with
    | .ok () => pure ()
    | .error stop => Prog.throw stop

def fillIfAddr (dest : IfPtr) : ListProg Unit := do
  let s ← Prog.get
  Prog.forEach (List.range s.ainfo.length) (fillIfAddrTurn dest)

/-! ## Interfaces -/

/-- `if_create`, where no private block is allocated yet. -/
def createEntry : HandlerProg IfPtr := fun s =>
  match ifCreate s.world with
  | none => some (.error (.err ENOMEM), s)
  | some (entry, w) =>
    some (.ok entry, { s with world := w, priv := Function.update s.priv entry .unset })

section
variable (env : HandlerEnv) (ns : NsPtr)

def newLink (l : NlMsg) : HandlerProg IfPtr := do
  let entry ← createEntry
  modifyWorld (·.modifyNs ns fun n => { n with ifaces := n.ifaces ++ [entry] })
  modifyWorld (·.modifyIf entry fun x => { x with ns := ns })
  fillIfLink env entry l
  pure entry

def ifListTurn (l : NlMsg) : ListProg Unit := do
  let entry ← onScan (newLink env ns l)
  fillIfAddr entry
  onScan (ifHandlerScan (ifHandlers env) entry)

structure IfListCalls where
  rtnlOpen : Int := 0
  linkDump : Except Int (List NlMsg)
  addrDump : Except Int (List NlMsg)

def listStart (ainfo : List NlMsg) (s : ListState) : ListState where
  scan := { s.scan with world := s.scan.world.modifyNs ns fun n => { n with ifaces := [] } }
  ainfo := ainfo
  aborted := s.aborted

def ifList (calls : IfListCalls) : ListProg Unit := do
  onScan (modifyWorld (·.modifyNs ns fun n => { n with ifaces := [] }))
  if calls.rtnlOpen ≠ 0 then Prog.throw (.err calls.rtnlOpen)
  else
    match calls.linkDump, calls.addrDump with
    | .error err, _ => Prog.throw (.err err)
    | .ok _, .error err => Prog.throw (.err err)
    | .ok linfo, .ok ainfo => do
      Prog.modify fun s => { s with ainfo := ainfo }
      Prog.forEach linfo (ifListTurn env ns)

end

/-! ## The addresses of a dump -/

def addrHeader (m : NlMsg) : List UInt8 := m.buf.drop m.start

def addrAttrs (m : NlMsg) : Attrs :=
  nlmsgAttrs { m with start := m.start + align IFADDRMSG_LEN } IFA_MAX

structure Concerns (index : UInt32) (m : NlMsg) : Prop where
  type : nlmsgType m.buf = RTM_NEWADDR
  index : ifaIndex (addrHeader m) = index
  family : ifaFamily (addrHeader m) = AF_INET ∨ ifaFamily (addrHeader m) = AF_INET6
  attr : (addrAttrs m IFA_LOCAL).isSome ∨ (addrAttrs m IFA_ADDRESS).isSome

instance (index : UInt32) (m : NlMsg) : Decidable (Concerns index m) :=
  decidable_of_iff (nlmsgType m.buf = RTM_NEWADDR ∧ ifaIndex (addrHeader m) = index ∧
      (ifaFamily (addrHeader m) = AF_INET ∨ ifaFamily (addrHeader m) = AF_INET6) ∧
      ((addrAttrs m IFA_LOCAL).isSome ∨ (addrAttrs m IFA_ADDRESS).isSome))
    ⟨fun h => ⟨h.1, h.2.1, h.2.2.1, h.2.2.2⟩, fun h => ⟨h.type, h.index, h.family, h.attr⟩⟩

def ifaAddr (ifa nla : List UInt8) : Addr where
  family := ifaFamily ifa
  prefixlen := ifaPrefixlen ifa
  raw := some (addrBytes ifa nla)
  formatted := some (fits 64 (((inetNtop (ifaFamily ifa) (nlaRead nla)).toOption.getD []) ++
    cstr "/" ++ decimalInt (ifaPrefixlen ifa)))

/-- The interface has a peer at the other end of the link. -/
def HasPeer (m : NlMsg) (address : List UInt8) : Prop :=
  addrAttrs m IFA_ADDRESS = some address ∧ ∃ loc, addrAttrs m IFA_LOCAL = some loc ∧
    addrBytes (addrHeader m) address ≠ addrBytes (addrHeader m) loc

/-- The entry for a message: its address is `IFA_LOCAL`, or `IFA_ADDRESS` when there is no other,
and a peer is `IFA_ADDRESS`. -/
structure Describes (m : NlMsg) (entry : IfAddr) : Prop where
  loc : ∀ loc, addrAttrs m IFA_LOCAL = some loc → entry.addr = ifaAddr (addrHeader m) loc
  address : addrAttrs m IFA_LOCAL = none → ∀ address, addrAttrs m IFA_ADDRESS = some address →
    entry.addr = ifaAddr (addrHeader m) address
  peer : ∀ address, HasPeer m address → entry.peer = ifaAddr (addrHeader m) address
  noPeer : (¬ ∃ address, HasPeer m address) → entry.peer = {}

theorem addrInit_ip {family prefixlen : Int} {raw : List UInt8} {mallocOk strdupOk : Bool}
    {addr : Addr} (hfamily : family = AF_INET ∨ family = AF_INET6) (hnonneg : 0 ≤ prefixlen)
    (h : addrInit family prefixlen raw mallocOk strdupOk = (0, addr)) :
    addr = { family := family, prefixlen := prefixlen, raw := some (raw.take (addrLen family))
             formatted := some (fits 64 (((inetNtop family raw).toOption.getD []) ++
               cstr "/" ++ decimalInt prefixlen)) } := by
  have htext : ∃ text, inetNtop family raw = .ok text := by
    rcases hfamily with rfl | rfl
    · exact ⟨inetNtop4 raw, rfl⟩
    · exact ⟨inetNtop6 raw, rfl⟩
  obtain ⟨text, htext⟩ := htext
  have hnomem : (ENOMEM : Int) ≠ 0 := by decide
  rw [htext]
  unfold addrInit at h
  cases mallocOk with
  | false => exact absurd (congrArg Prod.fst h) hnomem
  | true =>
    cases strdupOk with
    | false =>
      simp only [htext] at h
      exact absurd (congrArg Prod.fst h) hnomem
    | true =>
      simp only [htext, if_pos hnonneg] at h
      exact (congrArg Prod.snd h).symm

structure Gains (w₀ : World) (dest : IfPtr) (entries : List IfAddr) (w : World) : Prop where
  addr : (w.ifs dest).addr = (w₀.ifs dest).addr ++ entries
  others : ∀ e, e ≠ dest → (w.ifs e).addr = (w₀.ifs e).addr
  ifIndex : ∀ e, (w.ifs e).ifIndex = (w₀.ifs e).ifIndex
  ifaces : ∀ ns, (w.nss ns).ifaces = (w₀.nss ns).ifaces
  free : w.free = w₀.free

section
variable {w₀ : World} {dest : IfPtr} {entries : List IfAddr}

theorem Gains.nil (w : World) (dest : IfPtr) : Gains w dest [] w where
  addr := (List.append_nil _).symm
  others _ _ := rfl
  ifIndex _ := rfl
  ifaces _ := rfl
  free := rfl

theorem addIfAddr_triple (entry : IfAddr) {E : Stop → ScanState → Prop} :
    Prog.Triple (fun s => Gains w₀ dest entries s.world) (addIfAddr dest entry)
      (fun _ s => Gains w₀ dest (entries ++ [entry]) s.world) E := by
  apply modifyWorld_triple
  intro w hw
  constructor
  · rw [World.modifyIf_ifs, if_pos rfl, ← List.append_assoc, ← hw.addr]
  · intro e he
    rw [World.modifyIf_ifs, if_neg he]
    exact hw.others e he
  · intro e
    rw [World.modifyIf_ifs]
    split_ifs
    · exact hw.ifIndex e
    · exact hw.ifIndex e
  · exact hw.ifaces
  · exact hw.free

theorem addrInitNetlink_triple {P : World → Prop} {ifa : List UInt8} (nla : List UInt8)
    (hfamily : ifaFamily ifa = AF_INET ∨ ifaFamily ifa = AF_INET6) :
    Prog.Runs (fun s => P s.world) (addrInitNetlink ifa nla)
      (fun r s => (r.1 = 0 → r.2 = ifaAddr ifa nla) ∧ P s.world) fun s => P s.world := by
  apply Prog.Triple.bind malloc_world
  intro mallocOk
  apply Prog.Triple.bind (Q := fun _ s => P s.world)
  · unfold mallocNext
    exact Prog.Triple.ite (fun _ => malloc_world) fun _ => Prog.Triple.pure fun _ => id
  · intro strdupOk
    apply Prog.Triple.pure
    intro s hs
    refine ⟨fun herr => ?_, hs⟩
    exact addrInit_ip hfamily (Int.natCast_nonneg _) (Prod.ext herr rfl)

structure EntryFor (ifa loc : List UInt8) (address : Option (List UInt8)) (entry : IfAddr) :
    Prop where
  addr : entry.addr = ifaAddr ifa loc
  peer : ∀ a, address = some a → addrBytes ifa a ≠ addrBytes ifa loc → entry.peer = ifaAddr ifa a
  noPeer : (∀ a, address = some a → addrBytes ifa a = addrBytes ifa loc) → entry.peer = {}

theorem fillEntry_triple {ifa : List UInt8} (loc : List UInt8) (address : Option (List UInt8))
    (hfamily : ifaFamily ifa = AF_INET ∨ ifaFamily ifa = AF_INET6) :
    Prog.Runs (fun s => Gains w₀ dest entries s.world) (fillEntry dest ifa loc address)
      (fun _ s => ∃ entry, Gains w₀ dest (entries ++ [entry]) s.world ∧
        EntryFor ifa loc address entry) fun _ => True := by
  unfold fillEntry
  apply Prog.Triple.bind (allocate_world.weakenError fun _ _ _ => trivial)
  intro _
  apply Prog.Triple.bind ((addrInitNetlink_triple loc hfamily).weakenError fun _ _ _ => trivial)
  rintro ⟨err, addr⟩
  apply Prog.Triple.of_and
  intro haddr
  apply Prog.Triple.ite
  · intro _
    apply Prog.Triple.bind (addIfAddr_triple _)
    exact fun _ => Prog.Triple.throw fun _ _ => trivial
  · intro herr
    have haddr := haddr (not_not.mp herr)
    have hlone (hsame : ∀ a, address = some a → addrBytes ifa a = addrBytes ifa loc) :
        Prog.Runs (fun s => Gains w₀ dest entries s.world) (addIfAddr dest ⟨addr, {}⟩)
          (fun _ s => ∃ entry, Gains w₀ dest (entries ++ [entry]) s.world ∧
            EntryFor ifa loc address entry) fun _ => True := by
      apply (addIfAddr_triple _).weaken
      · exact fun _ => id
      · intro _ s hs
        exact ⟨_, hs, haddr, fun a ha hne => absurd (hsame a ha) hne, fun _ => rfl⟩
    cases address with
    | none =>
      apply hlone
      intro a ha
      cases ha
    | some address =>
      apply Prog.Triple.ite
      · intro hbytes
        apply hlone
        intro a ha
        rw [← Option.some.inj ha]
        exact hbytes
      · intro hbytes
        apply Prog.Triple.bind
          ((addrInitNetlink_triple address hfamily).weakenError fun _ _ _ => trivial)
        rintro ⟨err, peer⟩
        apply Prog.Triple.of_and
        intro hpeer
        apply Prog.Triple.bind (addIfAddr_triple _)
        intro _
        apply Prog.Triple.ite
        · exact fun _ => Prog.Triple.throw fun _ _ => trivial
        · intro herr
          apply Prog.Triple.pure
          intro s hs
          refine ⟨_, hs, haddr, ?_, ?_⟩
          · intro a ha _
            rw [← Option.some.inj ha]
            exact hpeer (not_not.mp herr)
          · exact fun hsame => absurd (hsame _ rfl) hbytes

theorem EntryFor.describes {m : NlMsg} {loc : List UInt8} {entry : IfAddr}
    (h : EntryFor (addrHeader m) loc (addrAttrs m IFA_ADDRESS) entry)
    (hloc : addrAttrs m IFA_LOCAL = some loc) : Describes m entry where
  loc loc' hloc' := by
    rw [hloc] at hloc'
    rw [← Option.some.inj hloc']
    exact h.addr
  address hnone := by
    rw [hloc] at hnone
    cases hnone
  peer address := by
    rintro ⟨haddress, loc', hloc', hbytes⟩
    rw [hloc] at hloc'
    rw [← Option.some.inj hloc'] at hbytes
    exact h.peer address haddress hbytes
  noPeer hnone := by
    apply h.noPeer
    intro a ha
    by_contra hbytes
    exact hnone ⟨a, ha, loc, hloc, hbytes⟩

theorem EntryFor.describes_address {m : NlMsg} {address : List UInt8} {entry : IfAddr}
    (h : EntryFor (addrHeader m) address none entry) (hloc : addrAttrs m IFA_LOCAL = none)
    (haddress : addrAttrs m IFA_ADDRESS = some address) : Describes m entry where
  loc loc' hloc' := by
    rw [hloc] at hloc'
    cases hloc'
  address _ address' haddress' := by
    rw [haddress] at haddress'
    rw [← Option.some.inj haddress']
    exact h.addr
  peer address' := by
    rintro ⟨-, loc', hloc', -⟩
    rw [hloc] at hloc'
    cases hloc'
  noPeer _ := by
    apply h.noPeer
    intro a ha
    cases ha

/-- What a message adds: an entry, when it is about the interface. -/
def Adds (w₀ : World) (dest : IfPtr) (entries : List IfAddr) (m : NlMsg) (w : World) : Prop :=
  ∃ more, Gains w₀ dest (entries ++ more) w ∧
    List.Forall₂ Describes ([m].filter (Concerns (w₀.ifs dest).ifIndex)) more

theorem Gains.adds_none {w : World} {m : NlMsg} (h : Gains w₀ dest entries w)
    (hnot : ¬ Concerns (w₀.ifs dest).ifIndex m) : Adds w₀ dest entries m w := by
  apply Exists.intro []
  rw [List.append_nil, List.filter_cons_of_neg (by simpa using hnot)]
  exact ⟨h, .nil⟩

theorem Gains.adds_one {w : World} {m : NlMsg} {entry : IfAddr}
    (h : Gains w₀ dest (entries ++ [entry]) w) (hm : Concerns (w₀.ifs dest).ifIndex m)
    (hentry : Describes m entry) : Adds w₀ dest entries m w := by
  apply Exists.intro [entry]
  rw [List.filter_cons_of_pos (by simpa using hm)]
  exact ⟨h, .cons hentry .nil⟩

theorem fillIfAddrMsg_triple {m m' : NlMsg} {ifa : List UInt8}
    (hget : nlmsgGet m IFADDRMSG_LEN = some (ifa, m')) :
    Prog.Runs (fun s => Gains w₀ dest entries s.world) (fillIfAddrMsg dest ifa m')
      (fun _ s => Adds w₀ dest entries m s.world) fun _ => True := by
  unfold nlmsgGet at hget
  split_ifs at hget
  obtain ⟨rfl, rfl⟩ := Prod.mk.inj (Option.some.inj hget)
  have hskip (hnot : ¬ Concerns (w₀.ifs dest).ifIndex m) :
      Prog.Runs (fun s => Gains w₀ dest entries s.world) (pure () : HandlerProg Unit)
        (fun _ s => Adds w₀ dest entries m s.world) fun _ => True :=
    Prog.Triple.pure fun _ hs => hs.adds_none hnot
  unfold fillIfAddrMsg
  apply Prog.Triple.bind (Q := fun (s₀ s : ScanState) =>
    (s₀.world.ifs dest).ifIndex = (w₀.ifs dest).ifIndex ∧ Gains w₀ dest entries s.world)
  · exact Prog.Triple.get fun s hs => ⟨hs.ifIndex dest, hs⟩
  intro s₀
  apply Prog.Triple.of_and
  intro hindex
  rw [hindex]
  apply Prog.Triple.ite
  · exact fun hne => hskip fun h => hne h.index
  intro hidx
  apply Prog.Triple.ite
  · exact fun hne => hskip fun h => hne h.type
  intro htype
  apply Prog.Triple.ite
  · exact fun hne => hskip fun h => h.family.elim hne.1 hne.2
  intro hfam
  have hfamily : ifaFamily (addrHeader m) = AF_INET ∨ ifaFamily (addrHeader m) = AF_INET6 := by
    rw [not_and_or, not_not, not_not] at hfam
    exact hfam
  have hconcerns (hattr : (addrAttrs m IFA_LOCAL).isSome ∨ (addrAttrs m IFA_ADDRESS).isSome) :
      Concerns (w₀.ifs dest).ifIndex m :=
    ⟨not_not.mp htype, not_not.mp hidx, hfamily, hattr⟩
  apply Prog.Triple.bind (allocate_world.weakenError fun _ _ _ => trivial)
  intro _
  show Prog.Triple _ (match addrAttrs m IFA_LOCAL, addrAttrs m IFA_ADDRESS with
    | none, none => pure ()
    | none, some address => fillEntry dest (addrHeader m) address none
    | some loc, address => fillEntry dest (addrHeader m) loc address) _ _
  rcases hloc : addrAttrs m IFA_LOCAL with _ | loc
  · rcases haddress : addrAttrs m IFA_ADDRESS with _ | address
    · apply hskip
      intro h
      have hattr := h.attr
      rw [hloc, haddress] at hattr
      exact hattr.elim Bool.false_ne_true Bool.false_ne_true
    · apply (fillEntry_triple address none hfamily).weaken
      · exact fun _ => id
      · rintro _ s ⟨entry, hgains, hentry⟩
        apply hgains.adds_one (hconcerns (Or.inr (by rw [haddress]; rfl)))
        exact hentry.describes_address hloc haddress
  · apply (fillEntry_triple loc (addrAttrs m IFA_ADDRESS) hfamily).weaken
    · exact fun _ => id
    · rintro _ s ⟨entry, hgains, hentry⟩
      exact hgains.adds_one (hconcerns (Or.inl (by rw [hloc]; rfl))) (hentry.describes hloc)

/-! ## The cursors -/

def Msgs (msgs : List NlMsg) (aborted : Bool) (s : ListState) : Prop :=
  s.ainfo = msgs ∧ s.aborted = aborted

variable {msgs : List NlMsg} {aborted : Bool}

theorem onScan_triple {α : Type} {p : HandlerProg α} {P : ScanState → Prop}
    {Q : α → ScanState → Prop} {E : Stop → ScanState → Prop} (h : Prog.Triple P p Q E) :
    Prog.Triple (fun s => Msgs msgs aborted s ∧ P s.scan) (onScan p)
      (fun a s => Msgs msgs aborted s ∧ Q a s.scan)
      fun stop s => Msgs msgs aborted s ∧ E stop s.scan := by
  apply Prog.Triple.zoom
  rintro s ⟨hmsgs, hs⟩ _ rfl r t hrun
  have hpost := h _ hs r t hrun
  cases r with
  | ok a => exact ⟨hmsgs, hpost⟩
  | error stop => exact ⟨hmsgs, hpost⟩

/-- A message that was read is put back, and no assertion fails. -/
theorem ungetMsg_triple {i len : Nat} {m m' : NlMsg} {b : List UInt8} (hm : msgs[i]? = some m)
    (hget : nlmsgGet m len = some (b, m')) {P : ScanState → Prop}
    {E : Stop → ListState → Prop} :
    Prog.Triple (fun s => Msgs (msgs.set i m') aborted s ∧ P s.scan) (ungetMsg i len)
      (fun _ s => Msgs msgs aborted s ∧ P s.scan) E := by
  obtain ⟨hi, hmi⟩ := List.getElem?_eq_some_iff.mp hm
  apply Prog.Triple.bind (Q := fun (s₀ s : ListState) => s₀.ainfo = msgs.set i m' ∧
    Msgs (msgs.set i m') aborted s ∧ P s.scan)
  · exact Prog.Triple.get fun s hs => ⟨hs.1.1, hs⟩
  intro s₀
  apply Prog.Triple.of_and
  intro hainfo
  rw [hainfo, List.getElem?_set_self hi]
  apply Prog.Triple.bind (Q := fun msg s => msg = m' ∧ Msgs (msgs.set i m') aborted s ∧ P s.scan)
  · exact Prog.Triple.deref fun msg hmsg s hs => ⟨(Option.some.inj hmsg).symm, hs⟩
  intro msg
  apply Prog.Triple.of_and
  rintro rfl
  rw [nlmsgUnget_nlmsgGet hget]
  apply Prog.Triple.modify
  rintro s ⟨⟨hs, haborted⟩, hP⟩
  refine ⟨⟨?_, haborted⟩, hP⟩
  rw [hs, List.set_set, ← hmi, List.set_getElem_self]

theorem fillIfAddrTurn_triple {i : Nat} {m : NlMsg} (hm : msgs[i]? = some m) :
    Prog.Runs (fun s => Msgs msgs aborted s ∧ Gains w₀ dest entries s.scan.world)
      (fillIfAddrTurn dest i)
      (fun _ s => Msgs msgs aborted s ∧ Adds w₀ dest entries m s.scan.world)
      fun s => Msgs msgs aborted s := by
  apply Prog.Triple.bind (Q := fun (s₀ s : ListState) => s₀.ainfo = msgs ∧
    Msgs msgs aborted s ∧ Gains w₀ dest entries s.scan.world)
  · exact Prog.Triple.get fun s hs => ⟨hs.1.1, hs⟩
  intro s₀
  apply Prog.Triple.of_and
  intro hainfo
  rw [hainfo, hm]
  apply Prog.Triple.bind (Q := fun msg s => msg = m ∧
    Msgs msgs aborted s ∧ Gains w₀ dest entries s.scan.world)
  · exact Prog.Triple.deref fun msg hmsg s hs => ⟨(Option.some.inj hmsg).symm, hs⟩
  intro msg
  apply Prog.Triple.of_and
  rintro rfl
  rcases hget : nlmsgGet msg IFADDRMSG_LEN with _ | ⟨ifa, m'⟩
  · exact Prog.Triple.throw fun _ hs => hs.1
  apply Prog.Triple.bind (Q := fun _ s => Msgs (msgs.set i m') aborted s ∧
    Gains w₀ dest entries s.scan.world)
  · apply Prog.Triple.modify
    rintro s ⟨⟨hs, haborted⟩, hgains⟩
    exact ⟨⟨by rw [hs], haborted⟩, hgains⟩
  intro _
  apply Prog.Triple.bind (Q := fun (r : Except Stop Unit) s => Msgs (msgs.set i m') aborted s ∧
    (r.isOk = true → Adds w₀ dest entries msg s.scan.world))
  · apply Prog.Triple.attempt (Q := fun (r : Except Stop Unit) s =>
      Msgs (msgs.set i m') aborted s ∧ (r.isOk = true → Adds w₀ dest entries msg s.scan.world))
    have hmsg : Prog.Runs (fun t => Gains w₀ dest entries t.world) (fillIfAddrMsg dest ifa m')
        (fun _ t => Adds w₀ dest entries msg t.world) fun _ => True := fillIfAddrMsg_triple hget
    apply ((onScan_triple hmsg).weaken (fun _ => id) fun _ s hs => ⟨hs.1, fun _ => hs.2⟩).weakenError
    intro stop s hs
    exact ⟨hs.1, fun hok => nomatch hok⟩
  intro r
  apply Prog.Triple.bind
    (ungetMsg_triple hm hget (P := fun t => r.isOk = true → Adds w₀ dest entries msg t.world))
  intro _
  cases r with
  | ok u => exact Prog.Triple.pure fun s hs => ⟨hs.1, hs.2 rfl⟩
  | error stop => exact Prog.Triple.throw fun s hs => hs.1

theorem range_split {n x : Nat} {mid post : List Nat} (h : List.range n = mid ++ x :: post) :
    x = mid.length ∧ mid.length < n := by
  have hlt : mid.length < n := by
    have hlength := congrArg List.length h
    rw [List.length_range, List.length_append, List.length_cons] at hlength
    omega
  have hget := congrArg (·[mid.length]?) h
  simp only [List.getElem?_range hlt, List.getElem?_append_right (Nat.le_refl _), Nat.sub_self,
    List.getElem?_cons_zero] at hget
  exact ⟨(Option.some.inj hget).symm, hlt⟩

theorem fillIfAddr_triple :
    Prog.Runs (fun s => Msgs msgs aborted s ∧ s.scan.world = w₀) (fillIfAddr dest)
      (fun _ s => Msgs msgs aborted s ∧ ∃ entries, Gains w₀ dest entries s.scan.world ∧
        List.Forall₂ Describes (msgs.filter (Concerns (w₀.ifs dest).ifIndex)) entries)
      fun s => Msgs msgs aborted s := by
  let I (pre : List Nat) (s : ListState) : Prop := Msgs msgs aborted s ∧
    ∃ entries, Gains w₀ dest entries s.scan.world ∧ List.Forall₂ Describes
      ((msgs.take pre.length).filter (Concerns (w₀.ifs dest).ifIndex)) entries
  apply Prog.Triple.bind (Q := fun (s₀ s : ListState) => s₀.ainfo = msgs ∧ I [] s)
  · apply Prog.Triple.get
    rintro s ⟨hmsgs, rfl⟩
    exact ⟨hmsgs.1, hmsgs, [], Gains.nil _ dest, .nil⟩
  intro s₀
  apply Prog.Triple.of_and
  intro hainfo
  rw [hainfo]
  have hloop : Prog.Runs (I []) (Prog.forEach (List.range msgs.length) (fillIfAddrTurn dest))
      (fun _ => I ([] ++ List.range msgs.length)) fun s => Msgs msgs aborted s := by
    apply Prog.Triple.forEachAfter
    intro mid x post hsplit
    obtain ⟨rfl, hlt⟩ := range_split hsplit
    have hm : msgs[mid.length]? = some msgs[mid.length] := List.getElem?_eq_getElem hlt
    rintro s ⟨hmsgs, entries, hgains, hentries⟩ r s' hrun
    have hturn := fillIfAddrTurn_triple hm s ⟨hmsgs, hgains⟩ r s' hrun
    cases r with
    | error stop => exact hturn
    | ok u =>
      obtain ⟨hmsgs', more, hgains', hmore⟩ := hturn
      refine ⟨hmsgs', entries ++ more, hgains', ?_⟩
      rw [List.nil_append, List.length_append, List.length_singleton, List.take_add_one, hm,
        List.filter_append]
      exact List.rel_append hentries hmore
  apply hloop.weaken
  · exact fun _ => id
  · rintro _ s ⟨hmsgs, entries, hgains, hentries⟩
    rw [List.nil_append, List.length_range, List.take_length] at hentries
    exact ⟨hmsgs, entries, hgains, hentries⟩

end

/-! ## The loop over the link dump -/

section
variable {ns : NsPtr} {ainfo : List NlMsg}

/-- The list of an interface is what the address dump has for its index. -/
def Listed (ainfo : List NlMsg) (x : IfEntry) : Prop :=
  List.Forall₂ Describes (ainfo.filter (Concerns x.ifIndex)) x.addr

structure Distributed (ns : NsPtr) (ainfo links : List NlMsg) (w : World) : Prop where
  free : w.free.Nodup
  fresh : ∀ e ∈ (w.nss ns).ifaces, e ∉ w.free
  indexes : (w.nss ns).ifaces.map (fun e => (w.ifs e).ifIndex) = links.map linkIndexOf
  listed : ∀ e ∈ (w.nss ns).ifaces, Listed ainfo (w.ifs e)

theorem Distributed.sameAddresses {links : List NlMsg} {w w' : World}
    (h : Distributed ns ainfo links w) (hsame : SameAddresses w w') :
    Distributed ns ainfo links w' where
  free := by
    rw [hsame.free]
    exact h.free
  fresh := by
    rw [hsame.ifaces, hsame.free]
    exact h.fresh
  indexes := by
    rw [hsame.ifaces, ← h.indexes]
    exact List.map_congr_left fun e _ => hsame.ifIndex e
  listed := by
    intro e he
    rw [hsame.ifaces] at he
    rw [Listed, hsame.addr, hsame.ifIndex]
    exact h.listed e he

structure Adding (ns : NsPtr) (ainfo links : List NlMsg) (l : NlMsg) (e : IfPtr) (w : World) :
    Prop where
  free : w.free.Nodup
  fresh : ∀ x ∈ (w.nss ns).ifaces, x ∉ w.free
  indexes : (w.nss ns).ifaces.map (fun e => (w.ifs e).ifIndex) = (links ++ [l]).map linkIndexOf
  listed : ∀ x ∈ (w.nss ns).ifaces, x ≠ e → Listed ainfo (w.ifs x)
  addr : (w.ifs e).addr = []

theorem Adding.distributed {links : List NlMsg} {l : NlMsg} {e : IfPtr} {w w' : World}
    (h : Adding ns ainfo links l e w) {entries : List IfAddr} (hgains : Gains w e entries w')
    (hentries : List.Forall₂ Describes (ainfo.filter (Concerns (w.ifs e).ifIndex)) entries) :
    Distributed ns ainfo (links ++ [l]) w' where
  free := by
    rw [hgains.free]
    exact h.free
  fresh := by
    rw [hgains.ifaces, hgains.free]
    exact h.fresh
  indexes := by
    rw [hgains.ifaces, ← h.indexes]
    exact List.map_congr_left fun x _ => hgains.ifIndex x
  listed := by
    intro x hx
    rw [hgains.ifaces] at hx
    rw [Listed, hgains.ifIndex]
    by_cases hxe : x = e
    · subst hxe
      rw [hgains.addr, h.addr, List.nil_append]
      exact hentries
    · rw [hgains.others x hxe]
      exact h.listed x hx hxe

def withEntry (ns : NsPtr) (w : World) (e : IfPtr) (free : List IfPtr) : World :=
  ((({ w with free := free } : World).modifyIf e fun _ => {}).modifyNs ns fun n =>
    { n with ifaces := n.ifaces ++ [e] }).modifyIf e fun x => { x with ns := ns }

theorem Distributed.adding {links : List NlMsg} {w w' : World} (h : Distributed ns ainfo links w)
    {l : NlMsg} {e : IfPtr} {free : List IfPtr} (hfree : w.free = e :: free)
    (hsame : SameAddresses (withIndex (withEntry ns w e free) e (linkIndexOf l)) w') :
    Adding ns ainfo links l e w' := by
  have hnodup := h.free
  rw [hfree, List.nodup_cons] at hnodup
  have hifaces : (w'.nss ns).ifaces = (w.nss ns).ifaces ++ [e] := by
    rw [hsame.ifaces]
    simp [withIndex, withEntry]
  have hfree' : w'.free = free := hsame.free
  have hne : ∀ x ∈ (w.nss ns).ifaces, x ≠ e := by
    rintro x hx rfl
    exact h.fresh x hx (by rw [hfree]; exact List.mem_cons_self)
  have hold : ∀ x, x ≠ e → (w'.ifs x).addr = (w.ifs x).addr ∧
      (w'.ifs x).ifIndex = (w.ifs x).ifIndex := by
    intro x hx
    rw [hsame.addr, hsame.ifIndex]
    simp [withIndex, withEntry, hx]
  constructor
  · rw [hfree']
    exact hnodup.2
  · intro x hx
    rw [hifaces] at hx
    rw [hfree']
    rcases List.mem_append.mp hx with hx | hx
    · intro hmem
      exact h.fresh x hx (by rw [hfree]; exact List.mem_cons_of_mem _ hmem)
    · rw [List.mem_singleton.mp hx]
      exact hnodup.1
  · rw [hifaces, List.map_append, List.map_append, ← h.indexes]
    congr 1
    · exact List.map_congr_left fun x hx => (hold x (hne x hx)).2
    · rw [List.map_singleton, List.map_singleton, hsame.ifIndex]
      simp [withIndex]
  · intro x hx hxe
    rw [hifaces] at hx
    have hmem : x ∈ (w.nss ns).ifaces :=
      (List.mem_append.mp hx).resolve_right fun hx => hxe (List.mem_singleton.mp hx)
    rw [Listed, (hold x hxe).1, (hold x hxe).2]
    exact h.listed x hmem
  · rw [hsame.addr]
    simp [withIndex, withEntry]

variable (env : HandlerEnv)

theorem newLink_triple {links : List NlMsg} (l : NlMsg) :
    Prog.Runs (fun s => Distributed ns ainfo links s.world) (newLink env ns l)
      (fun e s => Adding ns ainfo links l e s.world) fun _ => True := by
  intro s hs r s' hrun
  unfold newLink at hrun
  cases hfree : s.world.free with
  | nil =>
    have hnomem : createEntry s = some (.error (.err ENOMEM), s) := by
      unfold createEntry ifCreate
      rw [hfree]
    rw [Prog.bind_error s hnomem] at hrun
    obtain ⟨rfl, rfl⟩ := Prod.mk.inj (Option.some.inj hrun)
    trivial
  | cons e free =>
    let s₁ : ScanState := { s with
      world := ({ s.world with free := free } : World).modifyIf e fun _ => {}
      priv := Function.update s.priv e .unset }
    have hcreate : createEntry s = some (.ok e, s₁) := by
      unfold createEntry ifCreate
      rw [hfree]
    rw [Prog.bind_ok s hcreate, Prog.bind_ok _ (modifyWorld_run _ _),
      Prog.bind_ok _ (modifyWorld_run _ _)] at hrun
    have hlink : Prog.Runs (fun t => SameAddresses (withEntry ns s.world e free) t.world)
        (do
          fillIfLink env e l
          pure e) (fun e s => Adding ns ainfo links l e s.world) fun _ => True := by
      apply Prog.Triple.bind (fillIfLink_triple env e l)
      exact fun _ => Prog.Triple.pure fun t ht => hs.adding hfree ht
    exact hlink _ (SameAddresses.refl _) r s' hrun

theorem ifListTurn_triple {links : List NlMsg} {aborted : Bool} (l : NlMsg) :
    Prog.Runs (fun s => Msgs ainfo aborted s ∧ Distributed ns ainfo links s.scan.world)
      (ifListTurn env ns l)
      (fun _ s => Msgs ainfo aborted s ∧ Distributed ns ainfo (links ++ [l]) s.scan.world)
      fun s => Msgs ainfo aborted s := by
  apply Prog.Triple.bind
    ((onScan_triple (newLink_triple env l)).weakenError fun _ _ hs => hs.1)
  intro e
  apply Prog.Triple.bind
  · show Prog.Runs _ (fillIfAddr e)
      (fun _ s => Msgs ainfo aborted s ∧ Distributed ns ainfo (links ++ [l]) s.scan.world) _
    rintro s ⟨hmsgs, hadding⟩ r s' hrun
    have hfill := fillIfAddr_triple s ⟨hmsgs, rfl⟩ r s' hrun
    cases r with
    | error stop => exact hfill
    | ok u =>
      obtain ⟨hmsgs', entries, hgains, hentries⟩ := hfill
      exact ⟨hmsgs', hadding.distributed hgains hentries⟩
  · intro _ s hs r s' hrun
    have hscan := onScan_triple (spares_ifHandlerScan env e) s ⟨hs.1, SameAddresses.refl _⟩ r s' hrun
    cases r with
    | error stop => exact hscan.1
    | ok u => exact ⟨hscan.1, hs.2.sameAddresses hscan.2⟩

theorem ifListLoop_triple {aborted : Bool} (links : List NlMsg) :
    Prog.Runs (fun s => Msgs ainfo aborted s ∧ Distributed ns ainfo [] s.scan.world)
      (Prog.forEach links (ifListTurn env ns))
      (fun _ s => Msgs ainfo aborted s ∧ Distributed ns ainfo links s.scan.world)
      fun s => Msgs ainfo aborted s := by
  let I (pre : List NlMsg) (s : ListState) : Prop :=
    Msgs ainfo aborted s ∧ Distributed ns ainfo pre s.scan.world
  have hloop : Prog.Runs (I []) (Prog.forEach links (ifListTurn env ns)) (fun _ => I ([] ++ links))
      fun s => Msgs ainfo aborted s := by
    apply Prog.Triple.forEachAfter
    exact fun mid l post _ => ifListTurn_triple env l
  exact hloop

theorem listStart_distributed {s : ListState} (hfree : s.scan.world.free.Nodup) :
    Distributed ns ainfo [] (listStart ns ainfo s).scan.world := by
  have hifaces : ((listStart ns ainfo s).scan.world.nss ns).ifaces = [] := by
    simp [listStart]
  constructor
  · exact hfree
  · rw [hifaces]
    simp
  · rw [hifaces]
    rfl
  · rw [hifaces]
    simp

theorem ifList_loop {calls : IfListCalls} {linfo : List NlMsg} (hlinks : calls.linkDump = .ok linfo)
    (haddrs : calls.addrDump = .ok ainfo) {s s' : ListState}
    (h : ifList env ns calls s = some (.ok (), s')) :
    Prog.forEach linfo (ifListTurn env ns) (listStart ns ainfo s) = some (.ok (), s') := by
  unfold ifList at h
  rw [hlinks, haddrs] at h
  obtain ⟨_, t, hempty, hrest⟩ := (Prog.bind_eq_ok s).mp h
  obtain ⟨-, rfl⟩ := Prod.mk.inj (Option.some.inj hempty)
  split_ifs at hrest
  · cases hrest
  · exact hrest

/-- Every interface of a link dump gets the addresses that the address dump has for its index, in
order; it sees the address dump unchanged and leaves it so, without a failed assertion. -/
theorem ifList_addresses (ns : NsPtr) {calls : IfListCalls} {linfo : List NlMsg}
    (hlinks : calls.linkDump = .ok linfo) (haddrs : calls.addrDump = .ok ainfo) {s : ListState}
    (hfree : s.scan.world.free.Nodup) :
    (∀ s', ifList env ns calls s = some (.ok (), s') →
      (s'.scan.world.nss ns).ifaces.map (fun e => (s'.scan.world.ifs e).ifIndex) =
        linfo.map linkIndexOf ∧
      ∀ e ∈ (s'.scan.world.nss ns).ifaces, List.Forall₂ Describes
        (ainfo.filter (Concerns (s'.scan.world.ifs e).ifIndex)) (s'.scan.world.ifs e).addr) ∧
    ∀ pre l post e t, linfo = pre ++ l :: post →
      (Prog.forEach pre (ifListTurn env ns) >>= fun _ => onScan (newLink env ns l))
        (listStart ns ainfo s) = some (.ok e, t) →
      t.ainfo = ainfo ∧ ∀ r t', fillIfAddr e t = some (r, t') →
        t'.ainfo = ainfo ∧ t'.aborted = s.aborted := by
  have hstart : Msgs ainfo s.aborted (listStart ns ainfo s) ∧
      Distributed ns ainfo [] (listStart ns ainfo s).scan.world :=
    ⟨⟨rfl, rfl⟩, listStart_distributed hfree⟩
  constructor
  · intro s' hrun
    have hloop := ifListLoop_triple env linfo _ hstart (.ok ()) s' (ifList_loop env hlinks haddrs hrun)
    exact ⟨hloop.2.indexes, hloop.2.listed⟩
  · intro pre l post e t _ hrun
    obtain ⟨_, u, hpre, hlink⟩ := (Prog.bind_eq_ok _).mp hrun
    have hpre := ifListLoop_triple env pre _ hstart (.ok ()) u hpre
    have hmsgs := (onScan_triple (newLink_triple env l)) u hpre (.ok e) t hlink
    apply And.intro hmsgs.1.1
    intro r t' hfill
    have hfilled := fillIfAddr_triple t ⟨hmsgs.1, rfl⟩ r t' hfill
    cases r with
    | error stop => exact hfilled
    | ok u => exact hfilled.1

end

/-! ## Two dumps -/

def addrMsg (index : UInt32) (attrs : List UInt8) : NlMsg where
  buf := leBytes 4 (24 + attrs.length) ++ leBytes 2 RTM_NEWADDR ++ zeros 10 ++
    ([2, 24, 0, 0] ++ leBytes 4 index.toNat) ++ attrs
  start := NLMSG_HDRLEN

def tunLinks : List NlMsg := [linkMsg (attrBytes IFLA_IFNAME (cstr "tun0" ++ [0]))]

/-- The interface 7 has the address 10.0.0.1 and the peer 10.0.0.2, and 8 has 10.0.0.3. -/
def tunAddrs : List NlMsg :=
  [addrMsg 8 (attrBytes IFA_LOCAL [10, 0, 0, 3]),
    addrMsg 7 (attrBytes IFA_ADDRESS [10, 0, 0, 2] ++ attrBytes IFA_LOCAL [10, 0, 0, 1])]

def tunCalls : IfListCalls := ⟨0, .ok tunLinks, .ok tunAddrs⟩

def emptyList : ListState where
  scan :=
    { world := ⟨fun _ => {}, fun _ => {}, [0], [0]⟩
      priv := fun _ => .unset }
  ainfo := []

theorem ifList_addresses_tun :
    ∃ s', ifList plainEnv 0 tunCalls emptyList = some (.ok (), s') ∧
      (s'.scan.world.ifs 0).addr.map (fun a => (a.addr.formatted, a.peer.formatted)) =
        [(some (cstr "10.0.0.1/24"), some (cstr "10.0.0.2/24"))] ∧
      (s'.scan.world.nss 0).ifaces.map (fun e => (s'.scan.world.ifs e).ifIndex) =
        tunLinks.map linkIndexOf ∧
      ∀ e ∈ (s'.scan.world.nss 0).ifaces, List.Forall₂ Describes
        (tunAddrs.filter (Concerns (s'.scan.world.ifs e).ifIndex)) (s'.scan.world.ifs e).addr := by
  have hlinks : tunCalls.linkDump = .ok tunLinks := rfl
  have haddrs : tunCalls.addrDump = .ok tunAddrs := rfl
  have hfree : emptyList.scan.world.free.Nodup := by decide
  have hends : ((ifList plainEnv 0 tunCalls emptyList).map fun r => (r.1.isOk,
      (r.2.scan.world.ifs 0).addr.map fun a => (a.addr.formatted, a.peer.formatted))) =
        some (true, [(some (cstr "10.0.0.1/24"), some (cstr "10.0.0.2/24"))]) := by decide +kernel
  obtain ⟨⟨r, s'⟩, hrun, hresult⟩ := Option.map_eq_some_iff.mp hends
  obtain ⟨hok, haddr⟩ := Prod.mk.inj hresult
  cases r with
  | error stop => cases hok
  | ok u =>
    have haddresses := (ifList_addresses plainEnv 0 hlinks haddrs hfree).1 s' hrun
    exact ⟨s', hrun, haddr, haddresses⟩

end Plotnetcfg.Handlers
