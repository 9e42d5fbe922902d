import Plotnetcfg.Core.Tunnel
import Plotnetcfg.Lib.TwoRuns

/-! Two topologies that differ in the subdrivers of some interfaces and in the warnings, and what
does not tell them apart: searches, the setters and labels. -/

namespace Plotnetcfg

/-! ## Searches -/

section
variable {R : World → World → Prop} {callback : MatchCallback}
  (hcallback : ∀ e, Prog.Alike R (callback e) (callback e))
include hcallback

theorem matchEntries_alike (l : List IfPtr) (d : MatchDesc) :
    Prog.Alike R (matchEntries callback l d) (matchEntries callback l d) := by
  induction l generalizing d with
  | nil => exact Prog.Alike.pure d
  | cons entry rest ih =>
    unfold matchEntries
    apply Prog.Alike.ite Iff.rfl
    · exact fun _ => ih d
    intro _
    apply Prog.Alike.bind (hcallback entry)
    intro res
    apply Prog.Alike.ite Iff.rfl
    · exact fun _ => Prog.Alike.throw _
    intro _
    apply Prog.Alike.ite Iff.rfl
    · intro _
      apply Prog.Alike.ite Iff.rfl
      · exact fun _ => Prog.Alike.pure _
      · exact fun _ => ih _
    · intro _
      apply Prog.Alike.ite Iff.rfl
      · exact fun _ => ih _
      · exact fun _ => ih d

variable (hifaces : ∀ w w', R w w' → ∀ n, (w'.nss n).ifaces = (w.nss n).ifaces)
include hifaces

theorem matchIfNs_alike (d : MatchDesc) :
    Prog.Alike R (matchIfNs d callback) (matchIfNs d callback) := by
  unfold matchIfNs
  apply Prog.Alike.bind (Prog.Alike.deref d.ns)
  intro ns
  apply Prog.Alike.get_bind
  intro w w' hR
  rw [hifaces w w' hR]
  exact matchEntries_alike hcallback _ d

theorem matchNetns_alike (l : List NsPtr) (d : MatchDesc) :
    Prog.Alike R (matchNetns callback l d) (matchNetns callback l d) := by
  induction l generalizing d with
  | nil => exact Prog.Alike.pure _
  | cons ns rest ih => exact Prog.Alike.bind (matchIfNs_alike hcallback hifaces _) ih

theorem matchIf_alike (desc : MatchDesc) :
    Prog.Alike R (matchIf desc callback) (matchIf desc callback) := by
  unfold matchIf
  cases desc.netnsList with
  | some l => exact matchNetns_alike hcallback hifaces l desc
  | none => exact matchIfNs_alike hcallback hifaces desc

end

/-! ## Topologies -/

/-- `w'` is `w` but for warnings and for the subdrivers of the interfaces in `marked`. -/
structure World.Twins (marked : IfPtr → Prop) (w w' : World) : Prop where
  nsList : w'.nsList = w.nsList
  free : w'.free = w.free
  nss : ∀ n, ∃ warnings, w'.nss n = { w.nss n with warnings := warnings }
  ifs : ∀ x, ∃ d, w'.ifs x = { w.ifs x with subDriver := d }
  same : ∀ x, ¬ marked x → w'.ifs x = w.ifs x

namespace World.Twins
variable {marked : IfPtr → Prop} {w w' : World} (h : World.Twins marked w w')
include h

theorem ifaces (n : NsPtr) : (w'.nss n).ifaces = (w.nss n).ifaces := by
  obtain ⟨warnings, hn⟩ := h.nss n
  rw [hn]

theorem listed : w'.listed = w.listed := World.listed_congr h.nsList h.ifaces

theorem master (x : IfPtr) : (w'.ifs x).master = (w.ifs x).master := by
  obtain ⟨d, hx⟩ := h.ifs x
  rw [hx]

theorem ifName (x : IfPtr) : (w'.ifs x).ifName = (w.ifs x).ifName := by
  obtain ⟨d, hx⟩ := h.ifs x
  rw [hx]

theorem driver (x : IfPtr) : (w'.ifs x).driver = (w.ifs x).driver := by
  obtain ⟨d, hx⟩ := h.ifs x
  rw [hx]

theorem modifyIf (e : IfPtr) {f : IfEntry → IfEntry}
    (hf : ∀ x d, f { x with subDriver := d } = { f x with subDriver := d }) :
    World.Twins marked (w.modifyIf e f) (w'.modifyIf e f) := by
  refine ⟨h.nsList, h.free, h.nss, fun x => ?_, fun x hx => ?_⟩
  · obtain ⟨d, hd⟩ := h.ifs x
    rw [World.modifyIf_ifs, World.modifyIf_ifs, hd]
    split_ifs
    · exact ⟨d, hf _ d⟩
    · exact ⟨d, rfl⟩
  · rw [World.modifyIf_ifs, World.modifyIf_ifs, h.same x hx]

/-- An interface that is the same in both may be marked. -/
theorem mark {e : IfPtr} (he : ¬ marked e) (d : Option CStr) :
    World.Twins marked (w.modifyIf e fun x => { x with subDriver := d })
      (w'.modifyIf e fun x => { x with subDriver := d }) := by
  refine ⟨h.nsList, h.free, h.nss, fun x => ?_, fun x hx => ?_⟩
  · obtain ⟨d', hd⟩ := h.ifs x
    rw [World.modifyIf_ifs, World.modifyIf_ifs]
    split_ifs with hx
    · subst hx
      exact ⟨d, by rw [h.same x he]⟩
    · exact ⟨d', hd⟩
  · rw [World.modifyIf_ifs, World.modifyIf_ifs, h.same x hx]

theorem replace (e : IfPtr) (y : IfEntry) :
    World.Twins marked (w.modifyIf e fun _ => y) (w'.modifyIf e fun _ => y) := by
  refine ⟨h.nsList, h.free, h.nss, fun x => ?_, fun x hx => ?_⟩
  · obtain ⟨d, hd⟩ := h.ifs x
    rw [World.modifyIf_ifs, World.modifyIf_ifs]
    split_ifs
    · exact ⟨y.subDriver, rfl⟩
    · exact ⟨d, hd⟩
  · rw [World.modifyIf_ifs, World.modifyIf_ifs, h.same x hx]

theorem modifyNs (n : NsPtr) {f g : NetnsEntry → NetnsEntry}
    (hfg : ∀ x warnings, ∃ warnings', g { x with warnings := warnings } =
      { f x with warnings := warnings' }) :
    World.Twins marked (w.modifyNs n f) (w'.modifyNs n g) := by
  refine ⟨h.nsList, h.free, fun x => ?_, h.ifs, h.same⟩
  obtain ⟨warnings, hx⟩ := h.nss x
  rw [World.modifyNs_nss, World.modifyNs_nss, hx]
  split_ifs
  · exact hfg _ _
  · exact ⟨_, rfl⟩

theorem labelAdd (n : NsPtr) (text text' : CStr) :
    World.Twins marked (w.modifyNs n (·.labelAdd text)) (w'.modifyNs n (·.labelAdd text')) :=
  h.modifyNs n fun _ _ => ⟨_, rfl⟩

theorem masterSet (master : Option IfPtr) (e : IfPtr) :
    World.Twins marked (masterSet master e w) (masterSet master e w') := by
  unfold Plotnetcfg.masterSet
  rw [h.master]
  have hset : ∀ v v', World.Twins marked v v' → World.Twins marked
      (v.modifyIf e fun x => { x with master := master })
      (v'.modifyIf e fun x => { x with master := master }) :=
    fun v v' hv => hv.modifyIf e fun _ _ => rfl
  have hold : ∀ old, World.Twins marked
      (w.modifyIf old fun x => { x with revMaster := x.revMaster.erase e })
      (w'.modifyIf old fun x => { x with revMaster := x.revMaster.erase e }) :=
    fun old => h.modifyIf old fun _ _ => rfl
  cases (w.ifs e).master with
  | none =>
    cases master with
    | none => exact hset _ _ h
    | some m => exact (hset _ _ h).modifyIf m fun _ _ => rfl
  | some old =>
    cases master with
    | none => exact hset _ _ (hold old)
    | some m => exact (hset _ _ (hold old)).modifyIf m fun _ _ => rfl

theorem linkSet (link entry : Option IfPtr) :
    World.Twins marked (linkSet link entry w) (linkSet link entry w') := by
  cases entry with
  | none => exact h
  | some e =>
    have hlink : (w'.ifs e).link = (w.ifs e).link := by
      obtain ⟨d, hx⟩ := h.ifs e
      rw [hx]
    have hset : ∀ v v', World.Twins marked v v' → World.Twins marked
        (v.modifyIf e fun x => { x with link := link })
        (v'.modifyIf e fun x => { x with link := link }) :=
      fun v v' hv => hv.modifyIf e fun _ _ => rfl
    have hold : ∀ old, World.Twins marked
        (w.modifyIf old fun x => { x with revLink := x.revLink.erase e })
        (w'.modifyIf old fun x => { x with revLink := x.revLink.erase e }) :=
      fun old => h.modifyIf old fun _ _ => rfl
    unfold Plotnetcfg.linkSet
    dsimp only
    rw [hlink]
    cases (w.ifs e).link with
    | none =>
      cases link with
      | none => exact hset _ _ h
      | some l => exact (hset _ _ h).modifyIf l fun _ _ => rfl
    | some old =>
      cases link with
      | none => exact hset _ _ (hold old)
      | some l => exact (hset _ _ (hold old)).modifyIf l fun _ _ => rfl

theorem peerWrite (first : IfPtr) (second : Option IfPtr) :
    World.Twins marked (peerWrite first second w) (peerWrite first second w') := by
  have hpeer : (w'.ifs first).peer = (w.ifs first).peer := by
    obtain ⟨d, hx⟩ := h.ifs first
    rw [hx]
  unfold Plotnetcfg.peerWrite
  rw [hpeer]
  cases (w.ifs first).peer with
  | none => exact h.modifyIf first fun _ _ => rfl
  | some old =>
    have hold := h.modifyIf old (f := fun x => { x with peer := none }) fun _ _ => rfl
    exact hold.modifyIf first fun _ _ => rfl

theorem peerSet (first second : Option IfPtr) :
    World.Twins marked (peerSet first second w) (peerSet first second w') := by
  unfold Plotnetcfg.peerSet
  cases first with
  | none =>
    cases second with
    | none => exact h
    | some s => exact h.peerWrite s none
  | some f =>
    cases second with
    | none => exact h.peerWrite f none
    | some s => exact (h.peerWrite f (some s)).peerWrite s (some f)

theorem ifAddWarning (e : IfPtr) (text : CStr) :
    World.Twins marked (ifAddWarning e text w) (ifAddWarning e text w') := by
  have hns : (w'.ifs e).ns = (w.ifs e).ns := by
    obtain ⟨d, hx⟩ := h.ifs e
    rw [hx]
  unfold Plotnetcfg.ifAddWarning
  rw [hns]
  exact (h.modifyIf e fun _ _ => rfl).labelAdd _ _ _

end World.Twins

/-- A change of the topology that has nothing to do with subdrivers. -/
structure Quiet (f : World → World) : Prop where
  twins : ∀ {marked w w'}, World.Twins marked w w' → World.Twins marked (f w) (f w')
  frame : ∀ w, World.Frame w (f w)
  subDriver : ∀ w x, ((f w).ifs x).subDriver = (w.ifs x).subDriver

theorem modifyIf_quiet (e : IfPtr) {f : IfEntry → IfEntry} (hkept : ∀ x : IfEntry, x.Kept (f x))
    (hsub : ∀ x, (f x).subDriver = x.subDriver)
    (hf : ∀ x d, f { x with subDriver := d } = { f x with subDriver := d }) :
    Quiet fun w => w.modifyIf e f := by
  refine ⟨fun h => h.modifyIf e hf, fun w => .modifyIf w e hkept, fun w x => ?_⟩
  rw [World.modifyIf_ifs]
  split_ifs
  · exact hsub _
  · rfl

theorem labelAdd_quiet (n : NsPtr) (text : CStr) :
    Quiet fun w => w.modifyNs n (·.labelAdd text) :=
  ⟨fun h => h.labelAdd n text text, fun _ => .modifyNs _ _ (fun _ => rfl) fun _ => rfl,
    fun _ _ => rfl⟩

theorem masterSet_quiet (master : Option IfPtr) (e : IfPtr) : Quiet (masterSet master e) := by
  refine ⟨fun h => h.masterSet master e, fun w => masterSet_frame w master e, fun w x => ?_⟩
  obtain ⟨m, rev, hx⟩ := masterSet_ifs w x master e
  rw [hx]

theorem linkSet_quiet (link entry : Option IfPtr) : Quiet (linkSet link entry) := by
  refine ⟨fun h => h.linkSet link entry, fun w => linkSet_frame w link entry, fun w x => ?_⟩
  obtain ⟨l, rev, hx⟩ := linkSet_ifs w x link entry
  rw [hx]

theorem peerSet_quiet (first second : Option IfPtr) : Quiet (peerSet first second) := by
  refine ⟨fun h => h.peerSet first second, fun w => peerSet_frame w first second, fun w x => ?_⟩
  obtain ⟨p, hx⟩ := peerSet_ifs w x first second
  rw [hx]

theorem ifAddWarning_quiet (e : IfPtr) (text : CStr) : Quiet (ifAddWarning e text) := by
  refine ⟨fun h => h.ifAddWarning e text, ifAddWarning_frame e text, fun w x => ?_⟩
  unfold ifAddWarning
  rw [World.modifyNs_ifs, World.modifyIf_ifs]
  split_ifs <;> rfl

/-! ## The interface that holds an address -/

section
variable {R : World → World → Prop} {marked : IfPtr → Prop}
  (hR : ∀ w w', R w w' → World.Twins marked w w')

theorem matchTunnelAddrs_alike (data : Addr) (addrs : List IfAddr) :
    Prog.Alike R (matchTunnelAddrs data addrs) (matchTunnelAddrs data addrs) := by
  induction addrs with
  | nil => exact Prog.Alike.pure 0
  | cons addr rest ih =>
    unfold matchTunnelAddrs
    apply Prog.Alike.ite Iff.rfl
    · exact fun _ => ih
    intro _
    apply Prog.Alike.bind (Prog.Alike.deref _)
    intro own
    apply Prog.Alike.bind (Prog.Alike.deref _)
    intro raw
    apply Prog.Alike.ite Iff.rfl
    · exact fun _ => Prog.Alike.pure 1
    · exact fun _ => ih

include hR

theorem matchTunnel_alike (data : Addr) (e : IfPtr) :
    Prog.Alike R (matchTunnel data e) (matchTunnel data e) := by
  unfold matchTunnel
  apply Prog.Alike.get_bind
  intro w w' hw
  obtain ⟨d, he⟩ := (hR w w' hw).ifs e
  rw [he]
  apply Prog.Alike.ite Iff.rfl
  · exact fun _ => matchTunnelAddrs_alike data _
  · exact fun _ => Prog.Alike.pure 0

theorem tunnelFindStr_alike (inetPton : Int → CStr → Option (List UInt8)) (ns : NsPtr)
    (addr : CStr) :
    Prog.Alike R (tunnelFindStr inetPton ns addr) (tunnelFindStr inetPton ns addr) := by
  unfold tunnelFindStr
  cases addrParseRaw inetPton addr with
  | none => exact Prog.Alike.pure none
  | some parsed =>
    have hsearch := matchIf_alike (matchTunnel_alike hR { family := parsed.1, raw := some parsed.2 })
      (fun w w' hw => (hR w w' hw).ifaces) { ns := some ns }
    apply Prog.Alike.bind (Prog.Alike.attempt hsearch)
    intro r
    cases r with
    | error e => exact Prog.Alike.pure none
    | ok desc => exact Prog.Alike.pure _

end

end Plotnetcfg
