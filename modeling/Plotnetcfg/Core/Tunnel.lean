import Plotnetcfg.Core.Addr
import Plotnetcfg.Core.Match

/-! The interface that holds an address (`tunnel.c`). `inetPton` stands for the function of the
C library: the bytes of a text address of the given family. -/

namespace Plotnetcfg

def addrParseRaw (inetPton : Int → CStr → Option (List UInt8)) (src : CStr) :
    Option (Int × List UInt8) :=
  let af := if 58 ∈ src then AF_INET6 else AF_INET
  (inetPton af src).map fun raw => (af, raw)

def matchTunnelAddrs (data : Addr) : List IfAddr → Prog Int World Int
  | [] => pure 0
  | addr :: rest =>
    if addr.addr.family ≠ data.family then matchTunnelAddrs data rest
    else do
      let own ← Prog.deref addr.addr.raw
      let raw ← Prog.deref data.raw
      let len := addrLen data.family
      if own.take len = raw.take len then pure 1 else matchTunnelAddrs data rest

def matchTunnel (data : Addr) : MatchCallback := fun entry => do
  let w ← Prog.get
  if (w.ifs entry).flags.up then matchTunnelAddrs data (w.ifs entry).addr else pure 0

def tunnelFindAddr (ns : NsPtr) (addr : Addr) : Prog Int World (Option IfPtr) := do
  match ← Prog.attempt (matchIf { ns := some ns } (matchTunnel addr)) with
  | .error _ => pure none
  | .ok desc => pure (if matchAmbiguous desc then none else matchFound desc)

def tunnelFindStr (inetPton : Int → CStr → Option (List UInt8)) (ns : NsPtr) (addr : CStr) :
    Prog Int World (Option IfPtr) :=
  match addrParseRaw inetPton addr with
  | none => pure none
  | some (family, raw) => tunnelFindAddr ns { family := family, raw := some raw }

/-! ## The search changes nothing -/

section
variable {P E : World → Prop} (data : Addr)

theorem matchTunnelAddrs_triple (addrs : List IfAddr) :
    Prog.Runs P (matchTunnelAddrs data addrs) (fun res w => 0 ≤ res ∧ P w) E := by
  induction addrs with
  | nil => exact Prog.Triple.pure fun w hw => ⟨le_refl 0, hw⟩
  | cons addr rest ih =>
    unfold matchTunnelAddrs
    refine Prog.Triple.ite (fun _ => ih) fun _ => ?_
    refine Prog.Triple.bind (Q := fun _ => P) (Prog.Triple.deref fun _ _ w hw => hw) fun own => ?_
    refine Prog.Triple.bind (Q := fun _ => P) (Prog.Triple.deref fun _ _ w hw => hw) fun raw => ?_
    refine Prog.Triple.ite (fun _ => ?_) fun _ => ih
    exact Prog.Triple.pure fun w hw => ⟨by decide, hw⟩

theorem matchTunnel_triple (entry : IfPtr) :
    Prog.Runs P (matchTunnel data entry) (fun res w => 0 ≤ res ∧ P w) E := by
  refine Prog.Triple.bind (Q := fun _ => P) (Prog.Triple.get fun w hw => hw) fun w₀ => ?_
  refine Prog.Triple.ite (fun _ => matchTunnelAddrs_triple data _) fun _ => ?_
  exact Prog.Triple.pure fun w hw => ⟨le_refl 0, hw⟩

theorem tunnelFindAddr_triple (ns : NsPtr) :
    Prog.Runs P (tunnelFindAddr ns data) (fun _ => P) E := by
  have hsearch : Prog.Runs P (matchIf { ns := some ns } (matchTunnel data))
      (fun _ => P) P := by
    refine (matchIf_triple (fun _ => True) _ (fun e => ?_) (fun _ _ _ _ _ _ => trivial)
      fun _ _ => trivial).weaken (fun _ => id) fun _ _ => And.right
    refine (matchTunnel_triple data e).weaken (fun _ => id) fun res w hw => ?_
    exact ⟨fun hneg => absurd hneg (not_lt.mpr hw.1), hw.2⟩
  refine Prog.Triple.bind (Prog.Triple.attempt (Q := fun _ => P) hsearch) fun r => ?_
  cases r with
  | error e => exact Prog.Triple.pure fun w hw => hw
  | ok desc => exact Prog.Triple.pure fun w hw => hw

theorem tunnelFindStr_triple (inetPton : Int → CStr → Option (List UInt8)) (ns : NsPtr)
    (addr : CStr) : Prog.Runs P (tunnelFindStr inetPton ns addr) (fun _ => P) E := by
  unfold tunnelFindStr
  cases addrParseRaw inetPton addr with
  | none => exact Prog.Triple.pure fun w hw => hw
  | some data => exact tunnelFindAddr_triple _ ns

end

/-! ## What the search finds -/

/-- What `match_tunnel` tests. -/
def holdsAddr (data : Addr) (x : IfEntry) : Bool :=
  x.flags.up && x.addr.any fun a => a.addr.family = data.family &&
    (a.addr.raw.getD []).take (addrLen data.family) = (data.raw.getD []).take (addrLen data.family)

/-- What `match_tunnel` returns. -/
def World.addrWeight (w : World) (data : Addr) (e : IfPtr) : Int :=
  if holdsAddr data (w.ifs e) then 1 else 0

def World.addrHolder (w : World) (ns : NsPtr) (data : Addr) : Option IfPtr :=
  (Tally.scan (w.addrWeight data) {} (w.nss ns).ifaces).choice

section
variable {w : World} (data : Addr)

theorem matchTunnelAddrs_run (addrs : List IfAddr) :
    Prog.Runs (· = w) (matchTunnelAddrs data addrs)
      (fun res w' => res = (if addrs.any fun a => a.addr.family = data.family &&
        (a.addr.raw.getD []).take (addrLen data.family) =
          (data.raw.getD []).take (addrLen data.family) then 1 else 0) ∧ w' = w)
      fun _ => False := by
  induction addrs with
  | nil => exact Prog.Triple.pure fun _ hw => ⟨rfl, hw⟩
  | cons addr rest ih =>
    unfold matchTunnelAddrs
    apply Prog.Triple.ite
    · intro hfamily
      simpa [hfamily] using ih
    intro hfamily
    have hfamily := not_not.mp hfamily
    apply Prog.Triple.bind (Q := fun own w' => addr.addr.raw = some own ∧ w' = w)
      (Prog.Triple.deref fun own hown _ hw => ⟨hown, hw⟩)
    intro own
    apply Prog.Triple.of_and
    intro hown
    apply Prog.Triple.bind (Q := fun raw w' => data.raw = some raw ∧ w' = w)
      (Prog.Triple.deref fun raw hraw _ hw => ⟨hraw, hw⟩)
    intro raw
    apply Prog.Triple.of_and
    intro hraw
    apply Prog.Triple.ite
    · intro heq
      apply Prog.Triple.pure
      intro _ hw
      simp [hfamily, hown, hraw, heq, hw]
    · intro hne
      simpa [hfamily, hown, hraw, hne] using ih

theorem matchTunnel_weighs (w : World) : Weighs (matchTunnel data) w (w.addrWeight data) := by
  constructor
  · intro e
    unfold World.addrWeight
    split_ifs <;> decide
  · intro e
    apply Prog.Triple.bind (Q := fun w₁ w' => w₁ = w ∧ w' = w)
      (Prog.Triple.get fun _ hw => ⟨hw, hw⟩)
    intro w₁
    apply Prog.Triple.of_and
    rintro rfl
    unfold World.addrWeight holdsAddr
    apply Prog.Triple.ite
    · intro hup
      simpa [hup] using matchTunnelAddrs_run data (w₁.ifs e).addr
    · intro hdown
      apply Prog.Triple.pure
      intro _ hw
      simp [hdown, hw]

theorem tunnelFindAddr_holder (ns : NsPtr) :
    Prog.Runs (· = w) (tunnelFindAddr ns data)
      (fun found w' => found = w.addrHolder ns data ∧ w' = w) fun _ => False := by
  have hsearch : Prog.Runs (· = w) (matchIf { ns := some ns } (matchTunnel data))
      (fun d w' => d.tally = Tally.scan (w.addrWeight data) {} (w.nss ns).ifaces ∧ w' = w)
      fun _ => False := by
    rintro v rfl r w' hrun
    have hpost := matchEntries_tally (matchTunnel_weighs data v) (v.nss ns).ifaces
      { ns := some ns } rfl _ rfl r w' hrun
    cases r with
    | error err => exact hpost
    | ok d =>
      have hall : MatchDesc.entries { ns := some ns } (v.nss ns).ifaces = (v.nss ns).ifaces := by
        simp [MatchDesc.entries]
      refine ⟨?_, hpost.2⟩
      rw [hpost.1.tally, hall]
      rfl
  unfold tunnelFindAddr
  apply Prog.Triple.bind (Q := fun r w' => (∃ d, r = Except.ok d ∧
    d.tally = Tally.scan (w.addrWeight data) {} (w.nss ns).ifaces) ∧ w' = w)
  · apply Prog.Triple.attempt
    apply (hsearch.weakenError fun _ _ => False.elim).weaken (fun _ => id)
    exact fun d w' h => ⟨⟨d, rfl, h.1⟩, h.2⟩
  intro r
  apply Prog.Triple.of_and
  rintro ⟨d, rfl, htally⟩
  apply Prog.Triple.pure
  intro _ hw
  refine ⟨?_, hw⟩
  unfold World.addrHolder Tally.choice
  rw [← htally]
  simp only [← matchAmbiguous_iff, ← matchFound_eq]

theorem addrHolder_eq_some {ns : NsPtr} (hnodup : (w.nss ns).ifaces.Nodup) {x : IfPtr} :
    w.addrHolder ns data = some x ↔ x ∈ (w.nss ns).ifaces ∧ holdsAddr data (w.ifs x) ∧
      ∀ y ∈ (w.nss ns).ifaces, holdsAddr data (w.ifs y) → y = x := by
  have hpos : ∀ y, 0 < w.addrWeight data y ↔ holdsAddr data (w.ifs y) = true := by
    intro y
    unfold World.addrWeight
    split_ifs with h
    · exact iff_of_true (by decide) h
    · exact iff_of_false (by decide) h
  have hone : ∀ y, holdsAddr data (w.ifs y) = true → w.addrWeight data y = 1 := fun y hy =>
    if_pos hy
  unfold World.addrHolder
  rw [Tally.choice_eq_some hnodup, hpos]
  apply and_congr_right
  intro _
  apply and_congr_right
  intro hx
  rw [hone x hx]
  constructor
  · intro h y hy hholds
    by_contra hne
    exact absurd (h y hy hne) (by rw [hone y hholds]; decide)
  · intro h y hy hne
    have hnot : ¬ holdsAddr data (w.ifs y) = true := fun hholds => hne (h y hy hholds)
    rw [World.addrWeight, if_neg hnot]
    decide

end

/-! ## The search is safe among interfaces whose addresses have their bytes -/

section
variable {w : World} {data : Addr} (hdata : data.raw.isSome)
include hdata

theorem safe_matchTunnelAddrs {addrs : List IfAddr} (h : ∀ a ∈ addrs, a.addr.raw.isSome) :
    Prog.Safe (matchTunnelAddrs data addrs) w := by
  induction addrs with
  | nil => exact Prog.safe_pure 0 w
  | cons addr rest ih =>
    have hrest := ih fun a ha => h a (List.mem_cons_of_mem addr ha)
    unfold matchTunnelAddrs
    by_cases hfamily : addr.addr.family ≠ data.family
    · rwa [if_pos hfamily]
    · obtain ⟨own, hown⟩ := Option.isSome_iff_exists.mp (h addr List.mem_cons_self)
      obtain ⟨raw, hraw⟩ := Option.isSome_iff_exists.mp hdata
      rw [if_neg hfamily, Prog.safe_deref_bind]
      refine ⟨own, hown, ?_⟩
      rw [Prog.safe_deref_bind]
      refine ⟨raw, hraw, ?_⟩
      dsimp only
      split_ifs
      · exact Prog.safe_pure 1 w
      · exact hrest

theorem safe_tunnelFindAddr {ns : NsPtr}
    (h : ∀ e ∈ (w.nss ns).ifaces, ∀ a ∈ (w.ifs e).addr, a.addr.raw.isSome) :
    Prog.Safe (tunnelFindAddr ns data) w := by
  have hcallback : SafeCallback (matchTunnel data) (· = w)
      fun e => Prog.Safe (matchTunnel data e) w := by
    refine ⟨fun e => matchTunnel_triple data e, ?_⟩
    rintro e _ rfl
    rfl
  have hsearch : Prog.Safe (matchIf { ns := some ns } (matchTunnel data)) w := by
    have hifaces : ∀ w', w' = w → ∀ n, (w'.nss n).ifaces = (w.nss n).ifaces := by
      rintro _ rfl n
      rfl
    refine (safe_matchIf (d := { ns := some ns }) hcallback hifaces rfl
      (fun _ => rfl) rfl).mpr ?_
    · intro n hn e he _
      obtain rfl : n = ns := by simpa [MatchDesc.netns] using hn
      unfold matchTunnel
      rw [Prog.safe_bind]
      refine ⟨nofun, fun w₀ w' hrun => ?_⟩
      obtain ⟨hw₀, rfl⟩ : w₀ = w ∧ w = w' := by simpa [eq_comm] using hrun
      subst hw₀
      split_ifs
      · exact safe_matchTunnelAddrs hdata (h e he)
      · exact Prog.safe_pure 0 w₀
  unfold tunnelFindAddr
  rw [Prog.safe_bind]
  refine ⟨(Prog.safe_attempt _ w).mpr hsearch, fun r w' _ => ?_⟩
  cases r with
  | error e => exact Prog.safe_pure none w'
  | ok desc => exact Prog.safe_pure _ w'

omit hdata in
theorem safe_tunnelFindStr (inetPton : Int → CStr → Option (List UInt8)) {ns : NsPtr}
    (addr : CStr) (h : ∀ e ∈ (w.nss ns).ifaces, ∀ a ∈ (w.ifs e).addr, a.addr.raw.isSome) :
    Prog.Safe (tunnelFindStr inetPton ns addr) w := by
  unfold tunnelFindStr
  cases addrParseRaw inetPton addr with
  | none => exact Prog.safe_pure none w
  | some data => exact safe_tunnelFindAddr rfl h

end

end Plotnetcfg
