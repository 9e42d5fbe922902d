import Plotnetcfg.Netns.IfList

/-! Every message of the link dump becomes an interface of the name space, in the order of the dump
(`if_list` in `if.c`). -/

namespace Plotnetcfg

namespace World

structure Grown (ns : NsPtr) (e : IfPtr) (w w' : World) : Prop where
  free : w.free = e :: w'.free
  others : ∀ x ≠ e, w'.ifs x = w.ifs x
  unwarned : ∀ n, (w'.nss n).unwarned =
    if n = ns then { (w.nss n).unwarned with ifaces := (w.nss n).ifaces ++ [e] }
    else (w.nss n).unwarned
  nsList : w'.nsList = w.nsList

theorem Grown.beside {ns : NsPtr} {e : IfPtr} {w w' w'' : World} (h : Grown ns e w w')
    (h' : Beside e w' w'') : Grown ns e w w'' where
  free := by rw [h.free, h'.free]
  others x hx := (h'.others x hx).trans (h.others x hx)
  unwarned n := (h'.unwarned n).trans (h.unwarned n)
  nsList := h'.nsList.trans h.nsList

theorem Grown.ifaces {ns : NsPtr} {e : IfPtr} {w w' : World} (h : Grown ns e w w') (n : NsPtr) :
    (w'.nss n).ifaces = if n = ns then (w.nss n).ifaces ++ [e] else (w.nss n).ifaces := by
  have hifaces := congrArg NetnsEntry.ifaces (h.unwarned n)
  split_ifs at hifaces ⊢
  · exact hifaces
  · exact hifaces

end World

namespace Handlers

open Plotnetcfg.Netlink Bytes

/-! ## The addresses -/

def FillsOnly (w : World) (dest : IfPtr) (w' : World) : Prop :=
  ∃ addr, w' = w.modifyIf dest fun x => { x with addr := addr }

section
variable {w : World} {dest : IfPtr}

theorem fillsOnly_refl (w : World) (dest : IfPtr) : FillsOnly w dest w := by
  refine ⟨(w.ifs dest).addr, ?_⟩
  rw [World.modifyIf_eq_setIf]
  exact (w.setIf_self dest).symm

theorem addIfAddr_fillsOnly (entry : IfAddr) :
    Prog.Runs (fun s => FillsOnly w dest s.world) (addIfAddr dest entry)
      (fun _ s => FillsOnly w dest s.world) fun s => FillsOnly w dest s.world := by
  apply modifyWorld_triple (P := FillsOnly w dest) (Q := FillsOnly w dest)
  rintro _ ⟨addr, rfl⟩
  refine ⟨addr ++ [entry], ?_⟩
  rw [World.modifyIf_eq_setIf w, World.setIf_modifyIf, World.modifyIf_eq_setIf w]

theorem addrInitNetlink_fillsOnly (ifa nla : List UInt8) :
    Prog.Runs (fun s => FillsOnly w dest s.world) (addrInitNetlink ifa nla)
      (fun _ s => FillsOnly w dest s.world) fun s => FillsOnly w dest s.world := by
  apply Prog.Triple.bind malloc_world
  intro mallocOk
  apply Prog.Triple.bind (Q := fun _ s => FillsOnly w dest s.world)
  · exact Prog.Triple.ite (fun _ => malloc_world) fun _ => Prog.Triple.pure fun _ => id
  · exact fun _ => Prog.Triple.pure fun _ => id

theorem fillEntry_fillsOnly (ifa loc : List UInt8) (address : Option (List UInt8)) :
    Prog.Runs (fun s => FillsOnly w dest s.world) (fillEntry dest ifa loc address)
      (fun _ s => FillsOnly w dest s.world) fun s => FillsOnly w dest s.world := by
  apply Prog.Triple.bind allocate_world
  intro _
  apply Prog.Triple.bind (addrInitNetlink_fillsOnly ifa loc)
  rintro ⟨err, addr⟩
  apply Prog.Triple.ite
  · exact fun _ => Prog.Triple.bind (addIfAddr_fillsOnly _)
      fun _ => Prog.Triple.throw fun _ => id
  intro _
  cases address with
  | none => exact addIfAddr_fillsOnly _
  | some address =>
    apply Prog.Triple.ite
    · exact fun _ => addIfAddr_fillsOnly _
    intro _
    apply Prog.Triple.bind (addrInitNetlink_fillsOnly ifa address)
    rintro ⟨err, peer⟩
    apply Prog.Triple.bind (addIfAddr_fillsOnly _)
    intro _
    apply Prog.Triple.ite
    · exact fun _ => Prog.Triple.throw fun _ => id
    · exact fun _ => Prog.Triple.pure fun _ => id

theorem fillIfAddrMsg_fillsOnly (ifa : List UInt8) (ainfo : NlMsg) :
    Prog.Runs (fun s => FillsOnly w dest s.world) (fillIfAddrMsg dest ifa ainfo)
      (fun _ s => FillsOnly w dest s.world) fun s => FillsOnly w dest s.world := by
  have hskip : Prog.Runs (fun s => FillsOnly w dest s.world) (pure () : HandlerProg Unit)
      (fun _ s => FillsOnly w dest s.world) fun s => FillsOnly w dest s.world :=
    Prog.Triple.pure fun _ => id
  apply Prog.Triple.bind (Q := fun _ s => FillsOnly w dest s.world)
  · exact Prog.Triple.get fun _ => id
  intro s
  apply Prog.Triple.ite (fun _ => hskip)
  intro _
  apply Prog.Triple.ite (fun _ => hskip)
  intro _
  apply Prog.Triple.ite (fun _ => hskip)
  intro _
  apply Prog.Triple.bind allocate_world
  intro _
  dsimp only
  split
  · exact hskip
  · exact fillEntry_fillsOnly _ _ _
  · exact fillEntry_fillsOnly _ _ _

theorem modify_fillsOnly {f : ListState → ListState} (hf : ∀ s, (f s).scan = s.scan) :
    Prog.Runs (fun s => FillsOnly w dest s.scan.world) (Prog.modify f : ListProg Unit)
      (fun _ s => FillsOnly w dest s.scan.world) fun s => FillsOnly w dest s.scan.world := by
  apply Prog.Triple.modify
  intro s hs
  rwa [hf]

theorem ungetMsg_fillsOnly (i len : Nat) :
    Prog.Runs (fun s => FillsOnly w dest s.scan.world) (ungetMsg i len)
      (fun _ s => FillsOnly w dest s.scan.world) fun s => FillsOnly w dest s.scan.world := by
  unfold ungetMsg
  apply Prog.Triple.bind (Q := fun _ (s : ListState) => FillsOnly w dest s.scan.world)
  · exact Prog.Triple.get fun _ => id
  intro s
  apply Prog.Triple.bind (Q := fun _ (s : ListState) => FillsOnly w dest s.scan.world)
  · exact Prog.Triple.deref fun _ _ _ => id
  intro msg
  cases nlmsgUnget msg len with
  | some msg => exact modify_fillsOnly fun _ => rfl
  | none =>
    apply Prog.Triple.bind (Q := fun _ (s : ListState) => FillsOnly w dest s.scan.world)
    · exact modify_fillsOnly fun _ => rfl
    · exact fun _ => Prog.Triple.throw fun _ => id

theorem fillIfAddrTurn_fillsOnly (i : Nat) :
    Prog.Runs (fun s => FillsOnly w dest s.scan.world) (fillIfAddrTurn dest i)
      (fun _ s => FillsOnly w dest s.scan.world) fun s => FillsOnly w dest s.scan.world := by
  unfold fillIfAddrTurn
  apply Prog.Triple.bind (Q := fun _ (s : ListState) => FillsOnly w dest s.scan.world)
  · exact Prog.Triple.get fun _ => id
  intro s
  apply Prog.Triple.bind (Q := fun _ (s : ListState) => FillsOnly w dest s.scan.world)
  · exact Prog.Triple.deref fun _ _ _ => id
  intro ainfo
  cases nlmsgGet ainfo IFADDRMSG_LEN with
  | none => exact Prog.Triple.throw fun _ => id
  | some got =>
    obtain ⟨ifa, ainfo⟩ := got
    apply Prog.Triple.bind (Q := fun _ (s : ListState) => FillsOnly w dest s.scan.world)
    · exact modify_fillsOnly fun _ => rfl
    intro _
    apply Prog.Triple.bind (Q := fun _ (s : ListState) => FillsOnly w dest s.scan.world)
    · apply Prog.Triple.attempt (Q := fun _ (s : ListState) => FillsOnly w dest s.scan.world)
      apply Prog.Triple.zoom
      rintro s hs _ rfl r t hrun
      have hpost := fillIfAddrMsg_fillsOnly ifa ainfo s.scan hs r t hrun
      cases r with
      | ok u => exact hpost
      | error stop => exact hpost
    intro r
    apply Prog.Triple.bind (ungetMsg_fillsOnly i IFADDRMSG_LEN)
    intro _
    cases r with
    | ok u => exact Prog.Triple.pure fun _ => id
    | error stop => exact Prog.Triple.throw fun _ => id

theorem fillIfAddr_fillsOnly :
    Prog.Runs (fun s => FillsOnly w dest s.scan.world) (fillIfAddr dest)
      (fun _ s => FillsOnly w dest s.scan.world) fun s => FillsOnly w dest s.scan.world := by
  unfold fillIfAddr
  apply Prog.Triple.bind (Q := fun _ (s : ListState) => FillsOnly w dest s.scan.world)
  · exact Prog.Triple.get fun _ => id
  intro s
  exact Prog.Triple.forEach fun i _ => fillIfAddrTurn_fillsOnly i

end

/-! ## One message -/

section
variable (env : HandlerEnv) (ns : NsPtr) (ainfo : List NlMsg)

/-- The interface `x` at `e` is what the message of the link dump tells, with its addresses, and
what the scan of the interface adds. -/
structure ToldBy (msg : NlMsg) (e : IfPtr) (x : IfEntry) : Prop where
  type : nlmsgType msg.buf = RTM_NEWLINK
  fields : ∃ ifi tb ifname mac, linkOf msg = some (ifi, tb) ∧ tb IFLA_IFNAME = some ifname ∧
    mac.Same (macOf {} (tb IFLA_ADDRESS)) ∧
    x.undecorated = { (linkEntry env e ifi tb ifname { ns := ns }).undecorated with
      macAddr := mac
      addr := x.addr } ∧
    x.Points (scannedIndexes env (linkEntry env e ifi tb ifname { ns := ns }))
  listed : Listed ainfo x

def Told (msg : NlMsg) (w w' : World) : Prop :=
  ∃ e, w.Grown ns e w' ∧ ToldBy env ns ainfo msg e (w'.ifs e)

variable {env ns ainfo} {w : World} {aborted : Bool}

theorem newLink_grown (l : NlMsg) :
    Prog.Runs (fun s => s.world = w) (newLink env ns l)
      (fun e s => w.Grown ns e s.world ∧ LinkRead env e l { ns := ns } (s.world.ifs e))
      fun _ => True := by
  rintro s rfl r s' hrun
  unfold newLink at hrun
  cases hfree : s.world.free with
  | nil =>
    have hnomem : createEntry s = some (.error (.err ENOMEM), s) := by
      unfold createEntry ifCreate
      rw [hfree]
    rw [Prog.bind_error s hnomem] at hrun
    obtain ⟨rfl, rfl⟩ := Prod.mk.inj (Option.some.inj hrun)
    trivial
  | cons e free =>
    let s₁ : ScanState := { s with
      world := ({ s.world with free := free } : World).modifyIf e fun _ => {}
      priv := Function.update s.priv e .unset }
    have hcreate : createEntry s = some (.ok e, s₁) := by
      unfold createEntry ifCreate
      rw [hfree]
    rw [Prog.bind_ok s hcreate, Prog.bind_ok _ (modifyWorld_run _ _),
      Prog.bind_ok _ (modifyWorld_run _ _)] at hrun
    have hentry : (withEntry ns s.world e free).ifs e = { ns := ns } := by
      simp [withEntry]
    have hgrown : s.world.Grown ns e (withEntry ns s.world e free) := by
      refine ⟨hfree, fun x hx => ?_, fun n => ?_, rfl⟩
      · simp [withEntry, hx]
      · by_cases hn : n = ns
        · simp [withEntry, hn, NetnsEntry.unwarned]
        · simp [withEntry, hn]
    have hlink : Prog.Runs (fun t => t.world = withEntry ns s.world e free)
        (do
          fillIfLink env e l
          pure e)
        (fun e s' => s.world.Grown ns e s'.world ∧ LinkRead env e l { ns := ns } (s'.world.ifs e))
        fun _ => True := by
      apply Prog.Triple.bind (fillIfLink_read env l)
      intro _
      apply Prog.Triple.pure
      rintro t ⟨hread, y, hdecorated⟩
      rw [hentry] at hread
      exact ⟨(hgrown.beside (.modifyIf _ e _)).beside hdecorated.toBeside, hread⟩
    exact hlink _ rfl r s' hrun

theorem LinkRead.told {l : NlMsg} {e : IfPtr} {x y z : IfEntry} {entries : List IfAddr}
    (h : LinkRead env e l { ns := ns } x) (hy : y = { x with addr := x.addr ++ entries })
    (hentries : List.Forall₂ Describes (ainfo.filter (Concerns x.ifIndex)) entries)
    (hz : z.undecorated = y.undecorated) (hpoints : z.Points (scannedIndexes env y)) :
    ToldBy env ns ainfo l e z := by
  obtain ⟨htype, ifi, tb, ifname, mac, hlink, hname, hmac, hread, hpoints'⟩ := h
  let x₀ := linkEntry env e ifi tb ifname { ns := ns }
  have hfield {α : Type} (field : IfEntry → α) (hfield : ∀ v, field v.undecorated = field v)
      (hmac : ∀ v mac, field { v with macAddr := mac } = field v) : field x = field x₀ := by
    rw [← hfield x, hread, hmac, hfield]
  have haddr : x.addr = [] := hfield IfEntry.addr (fun _ => rfl) fun _ _ => rfl
  have hzaddr : z.addr = y.addr := IfEntry.field_eq hz IfEntry.addr fun _ => rfl
  refine ⟨htype, ⟨ifi, tb, ifname, mac, hlink, hname, hmac, ?_, ?_⟩, ?_⟩
  · have hadd : y.undecorated = { x.undecorated with addr := y.addr } := by
      rw [hy]
      rfl
    rw [hz, hadd, hread, hzaddr]
  · have hnamed : y.ifName = x₀.ifName := by
      rw [hy]
      exact hfield IfEntry.ifName (fun _ => rfl) fun _ _ => rfl
    have hdriver : y.driver = x₀.driver := by
      rw [hy]
      exact hfield IfEntry.driver (fun _ => rfl) fun _ _ => rfl
    have hbefore : y.Points x₀.indexes := by
      rw [hy]
      exact ⟨hpoints'.unlinked, hpoints'.indexes⟩
    exact scannedIndexes_congr env hnamed hdriver hbefore
      (IfEntry.field_eq hz IfEntry.driver fun _ => rfl) hpoints
  · have hindex : z.ifIndex = x.ifIndex := by
      rw [IfEntry.field_eq hz IfEntry.ifIndex fun _ => rfl, hy]
    rw [Listed, hzaddr, hindex, hy, haddr]
    exact hentries

theorem ifListTurn_told (l : NlMsg) :
    Prog.Runs (fun s => Msgs ainfo aborted s ∧ s.scan.world = w) (ifListTurn env ns l)
      (fun _ s => Msgs ainfo aborted s ∧ Told env ns ainfo l w s.scan.world) fun _ => True := by
  apply Prog.Triple.bind
    ((onScan_triple (newLink_grown (w := w) l)).weakenError fun _ _ _ => trivial)
  intro e
  rintro s ⟨hmsgs, hgrown, hread⟩ r s' hrun
  have hrest : Prog.Runs (· = s)
      (do
        fillIfAddr e
        onScan (ifHandlerScan (ifHandlers env) e))
      (fun _ s => Msgs ainfo aborted s ∧ Told env ns ainfo l w s.scan.world) fun _ => True := by
    apply Prog.Triple.bind (Q := fun _ t => Msgs ainfo aborted t ∧ ∃ entries,
      t.scan.world = s.scan.world.modifyIf e (fun x => { x with addr := x.addr ++ entries }) ∧
      List.Forall₂ Describes (ainfo.filter (Concerns (s.scan.world.ifs e).ifIndex)) entries)
    · intro s₁ hs₁ r t hrun
      rw [hs₁] at hrun
      have hfill := fillIfAddr_triple s ⟨hmsgs, rfl⟩ r t hrun
      have honly := fillIfAddr_fillsOnly s (fillsOnly_refl s.scan.world e) r t hrun
      cases r with
      | error stop => trivial
      | ok u =>
        obtain ⟨hmsgs', entries, hgains, hentries⟩ := hfill
        obtain ⟨addr, hworld⟩ := honly
        have haddr : addr = (s.scan.world.ifs e).addr ++ entries := by
          rw [← hgains.addr, hworld, World.modifyIf_ifs, if_pos rfl]
        refine ⟨hmsgs', entries, ?_, hentries⟩
        rw [hworld, haddr, World.modifyIf_eq_setIf, World.modifyIf_eq_setIf]
    · rintro _ t ⟨hmsgs', entries, hworld, hentries⟩ r t' hrun
      have hscan := onScan_triple (ifHandlerScan_indexed env t.scan.world e) t ⟨hmsgs', rfl⟩ r t' hrun
      cases r with
      | error stop => trivial
      | ok u =>
        obtain ⟨hmsgs'', htouched, hpoints⟩ := hscan
        refine ⟨hmsgs'', e, ?_, ?_⟩
        · apply hgrown.beside
          have hbeside := World.Beside.modifyIf s.scan.world e fun x =>
            { x with addr := x.addr ++ entries }
          rw [← hworld] at hbeside
          exact hbeside.trans htouched.toBeside
        · have hy : t.scan.world.ifs e = { s.scan.world.ifs e with
              addr := (s.scan.world.ifs e).addr ++ entries } := by
            rw [hworld, World.modifyIf_ifs, if_pos rfl]
          exact hread.told hy hentries htouched.undecorated hpoints
  exact hrest s rfl r s' hrun

/-! ## The whole dump -/

/-- The interfaces of `ns` are those of the link messages, at the next free addresses. -/
structure Dumped (env : HandlerEnv) (ns : NsPtr) (ainfo links : List NlMsg) (w₀ w : World) :
    Prop where
  nsList : w.nsList = w₀.nsList
  taken : w₀.free = (w.nss ns).ifaces ++ w.free
  others : ∀ e ∉ (w.nss ns).ifaces, w.ifs e = w₀.ifs e
  unwarned : ∀ n, (w.nss n).unwarned =
    if n = ns then { (w₀.nss n).unwarned with ifaces := (w.nss n).ifaces }
    else (w₀.nss n).unwarned
  told : List.Forall₂ (fun m e => ToldBy env ns ainfo m e (w.ifs e)) links (w.nss ns).ifaces

theorem forall₂_imp_of_mem {α β : Type} {R S : α → β → Prop} {as : List α} {bs : List β}
    (h : List.Forall₂ R as bs) (himp : ∀ a, ∀ b ∈ bs, R a b → S a b) : List.Forall₂ S as bs := by
  induction h with
  | nil => exact .nil
  | cons hab _ ih =>
    apply List.Forall₂.cons
    · exact himp _ _ List.mem_cons_self hab
    · exact ih fun a b hb => himp a b (List.mem_cons_of_mem _ hb)

theorem Dumped.step {links : List NlMsg} {l : NlMsg} {w₀ w' : World} (hnodup : w₀.free.Nodup)
    (h : Dumped env ns ainfo links w₀ w) (htold : Told env ns ainfo l w w') :
    Dumped env ns ainfo (links ++ [l]) w₀ w' := by
  obtain ⟨e, hgrown, htold⟩ := htold
  have hifaces : (w'.nss ns).ifaces = (w.nss ns).ifaces ++ [e] := by
    rw [hgrown.ifaces, if_pos rfl]
  have htaken : w₀.free = (w'.nss ns).ifaces ++ w'.free := by
    rw [h.taken, hgrown.free, hifaces, List.append_cons]
  have hnew : e ∉ (w.nss ns).ifaces := by
    rw [htaken, hifaces] at hnodup
    have hdisjoint := (List.nodup_append.mp (List.nodup_append.mp hnodup).1).2.2
    exact fun he => hdisjoint e he e (List.mem_singleton.mpr rfl) rfl
  refine ⟨hgrown.nsList.trans h.nsList, htaken, fun x hx => ?_, fun n => ?_, ?_⟩
  · rw [hifaces, List.mem_append, List.mem_singleton, not_or] at hx
    rw [hgrown.others x hx.2, h.others x hx.1]
  · rw [hgrown.unwarned, hgrown.ifaces, h.unwarned]
    split_ifs
    · rfl
    · rfl
  · rw [hifaces]
    apply List.rel_append
    · apply forall₂_imp_of_mem h.told
      intro m x hx hm
      rw [hgrown.others x fun hxe => hnew (hxe ▸ hx)]
      exact hm
    · exact .cons htold .nil

theorem ifListLoop_dumped {w₀ : World} (hnodup : w₀.free.Nodup) (links : List NlMsg) :
    Prog.Runs (fun s => Msgs ainfo aborted s ∧ Dumped env ns ainfo [] w₀ s.scan.world)
      (Prog.forEach links (ifListTurn env ns))
      (fun _ s => Msgs ainfo aborted s ∧ Dumped env ns ainfo links w₀ s.scan.world)
      fun _ => True := by
  let I (pre : List NlMsg) (s : ListState) : Prop :=
    Msgs ainfo aborted s ∧ Dumped env ns ainfo pre w₀ s.scan.world
  have hloop : Prog.Runs (I []) (Prog.forEach links (ifListTurn env ns)) (fun _ => I ([] ++ links))
      fun _ => True := by
    apply Prog.Triple.forEachAfter
    rintro mid l post - s ⟨hmsgs, hdumped⟩ r s' hrun
    have hturn := ifListTurn_told l s ⟨hmsgs, rfl⟩ r s' hrun
    cases r with
    | error stop => trivial
    | ok u => exact ⟨hturn.1, hdumped.step hnodup hturn.2⟩
  exact hloop

/-- Where `if_list` succeeds, the interfaces of the name space are those of the two dumps. -/
theorem ifList_dumped {calls : IfListCalls} {s s' : ListState} (hnodup : s.scan.world.free.Nodup)
    (hrun : ifList env ns calls s = some (.ok (), s')) :
    ∃ linfo ainfo, calls.linkDump = .ok linfo ∧ calls.addrDump = .ok ainfo ∧
      Dumped env ns ainfo linfo s.scan.world s'.scan.world := by
  have hdumps : ∃ linfo ainfo, calls.linkDump = .ok linfo ∧ calls.addrDump = .ok ainfo := by
    unfold ifList at hrun
    obtain ⟨_, t, -, hrest⟩ := (Prog.bind_eq_ok s).mp hrun
    split_ifs at hrest
    · cases hrest
    cases hlinks : calls.linkDump with
    | error err =>
      rw [hlinks] at hrest
      cases hrest
    | ok linfo =>
      cases haddrs : calls.addrDump with
      | error err =>
        rw [hlinks, haddrs] at hrest
        cases hrest
      | ok ainfo => exact ⟨linfo, ainfo, rfl, rfl⟩
  obtain ⟨linfo, ainfo, hlinks, haddrs⟩ := hdumps
  refine ⟨linfo, ainfo, hlinks, haddrs, ?_⟩
  have hempty : ((listStart ns ainfo s).scan.world.nss ns).ifaces = [] := by
    simp [listStart]
  have hstart : Dumped env ns ainfo [] s.scan.world (listStart ns ainfo s).scan.world := by
    refine ⟨rfl, ?_, fun _ _ => rfl, fun n => ?_, ?_⟩
    · rw [hempty]
      rfl
    · rw [listStart, World.modifyNs_nss]
      split_ifs
      · rfl
      · rfl
    · rw [hempty]
      exact .nil
  exact (ifListLoop_dumped hnodup linfo _ ⟨⟨rfl, rfl⟩, hstart⟩ _ s'
    (ifList_loop env hlinks haddrs hrun)).2

end

end Handlers

end Plotnetcfg
