import Plotnetcfg.Handlers.Devices
import Plotnetcfg.Core.Netnsid
import Plotnetcfg.Lib.Pairing
import Plotnetcfg.Lib.Keyed

/-! The peers that `match_all_netnsid` and the post callbacks of virtual ethernet interfaces
leave, and when they depend on the order of the lists. -/

namespace Plotnetcfg

open Pairing (Best Weights PairedUpTo)

/-! ## Peers by net name space id -/

namespace World

/-- Whom the ids of its name space give an interface for its peer, when it asks for one. -/
def namedPeer (w : World) (e : IfPtr) : Option IfPtr :=
  if 0 ≤ (w.ifs e).peerNetnsid then w.peerTarget e else none

def PeerIndexUnique (w : World) (e : IfPtr) : Prop :=
  ∀ n, matchNetnsid (w.ifs e).peerNetnsid (w.nss (w.ifs e).ns) = some n →
    ∀ x ∈ (w.nss n).ifaces, ∀ y ∈ (w.nss n).ifaces, (w.ifs x).ifIndex = (w.ifs e).peerIndex →
      (w.ifs y).ifIndex = (w.ifs e).peerIndex → x = y

/-- In no turn of `match_all_netnsid` does an interface lose a peer that it has got before, and
every index looked for is that of one interface at most. -/
def NothingUndone (w : World) : Prop :=
  ∀ pre e post, w.listed = pre ++ e :: post → 0 ≤ (w.ifs e).peerNetnsid →
    w.PeerIndexUnique e ∧ Pairing.Free (w.matchTurns pre).peers w.peerTarget e

section
variable {w v : World}

theorem matchTurns_named (hw : w.Homed) (hnew : ∀ x, w.peers x = none) (hsteps : w.NothingUndone)
    {pre post : List IfPtr} (hsplit : w.listed = pre ++ post) :
    Pairing.Named w.namedPeer pre (w.matchTurns pre).peers := by
  have hsym : Matching.Symmetric w.peers := fun a b hab => by simp [hnew] at hab
  have hempty : w.peers = fun _ => none := funext hnew
  induction pre using List.reverseRecOn generalizing post with
  | nil =>
    show Pairing.Named w.namedPeer [] w.peers
    rw [hempty]
    exact Pairing.named_nil
  | append_singleton pre e ih =>
    rw [List.append_assoc, List.singleton_append] at hsplit
    have hbefore := ih hsplit
    have hnodup : (pre ++ [e]).Nodup := by
      have h := hw.nodup
      rw [hsplit, List.append_cons] at h
      exact (List.nodup_append.mp h).1
    have hpeers : ∀ l : List IfPtr, l.Nodup →
        (w.matchTurns l).peers = l.foldl w.matchPeers w.peers :=
      fun l hl => (w.matchTurns_upTo hl).peers hsym
    have hturn : (w.matchTurns (pre ++ [e])).peers =
        w.matchPeers (w.matchTurns pre).peers e := by
      rw [hpeers _ hnodup, hpeers pre (List.nodup_append.mp hnodup).1, List.foldl_append]
      rfl
    rw [hturn]
    unfold matchPeers
    by_cases hid : 0 ≤ (w.ifs e).peerNetnsid
    · rw [if_pos hid]
      have htarget : w.namedPeer e = w.peerTarget e := if_pos hid
      have hfree := (hsteps pre e post hsplit hid).2
      rw [← htarget]
      exact hbefore.turn ⟨htarget ▸ hfree.self, htarget ▸ hfree.other⟩
    · rw [if_neg hid]
      exact hbefore.skip (if_neg hid)

theorem Reordered.peerTarget (h : w.Reordered v) {e : IfPtr} (hunique : w.PeerIndexUnique e) :
    v.peerTarget e = w.peerTarget e := by
  have hids : ∀ n, (v.nss n).ids = (w.nss n).ids := fun n => congrArg (·.ids) (h.rest n)
  unfold World.peerTarget matchIfNetnsid
  unfold PeerIndexUnique at hunique
  rw [h.ifs]
  have hnetns : matchNetnsid (w.ifs e).peerNetnsid (v.nss (w.ifs e).ns) =
      matchNetnsid (w.ifs e).peerNetnsid (w.nss (w.ifs e).ns) := by
    unfold matchNetnsid
    rw [hids]
  rw [hnetns]
  cases hn : matchNetnsid (w.ifs e).peerNetnsid (w.nss (w.ifs e).ns) with
  | none => rfl
  | some n =>
    refine Keyed.find?_perm (h.ifaces n).symm fun x hx y hy hxi hyi => ?_
    exact hunique n hn x hx y hy (of_decide_eq_true hxi) (of_decide_eq_true hyi)

theorem Reordered.peers_matchAllNetnsid (h : w.Reordered v) (hw : w.Homed)
    (hnew : ∀ x, w.peers x = none) (hsteps : w.NothingUndone) (hsteps' : v.NothingUndone) :
    (matchAllNetnsid v).peers = (matchAllNetnsid w).peers := by
  have hv := h.homed hw
  have hnew' : ∀ x, v.peers x = none := fun x => by
    rw [World.peers, h.ifs]
    exact hnew x
  rw [matchAllNetnsid_eq hw, matchAllNetnsid_eq hv]
  have hnamed := matchTurns_named hw hnew hsteps (List.append_nil _).symm
  have hnamed' := matchTurns_named hv hnew' hsteps' (List.append_nil _).symm
  refine hnamed'.unique hnamed (fun e => h.listed.mem_iff) fun e he => ?_
  unfold World.namedPeer
  rw [h.ifs]
  by_cases hid : 0 ≤ (w.ifs e).peerNetnsid
  · rw [if_pos hid, if_pos hid]
    obtain ⟨pre, post, hsplit⟩ := List.append_of_mem he
    exact (h.peerTarget (hsteps pre e post hsplit hid).1).symm
  · rw [if_neg hid, if_neg hid]

end

end World

/-! ## Peers by the post callbacks -/

namespace Handlers

/-- What `if_handler_post` does for an interface, as far as it calls `veth_post`. -/
def vethTurn (entry : IfPtr) : Prog Int World Unit := do
  let w ← Prog.get
  if (w.ifs entry).driver = some (cstr "veth") then vethPost entry else pure ()

def vethPosts : Prog Int World Unit := do
  let w ← Prog.get
  Prog.forEach w.nsList fun ns => do
    let w ← Prog.get
    Prog.forEach (w.nss ns).ifaces vethTurn

section
variable {α β : Type}

theorem onWorld_bind (p : Prog Int World α) (f : α → Prog Int World β) :
    onWorld (p >>= f) = onWorld p >>= fun a => onWorld (f a) := by
  funext s
  unfold onWorld Prog.zoom Prog.mapError
  simp only [Bind.bind, Prog.bind]
  rcases p s.world with _ | ⟨e | a, w⟩ <;> rfl

theorem onWorld_get (f : World → Prog Int World α) :
    onWorld (Prog.get >>= f) = Prog.get >>= fun s => onWorld (f s.world) := by
  funext s
  rfl

theorem onWorld_forEach (l : List β) (f : β → Prog Int World Unit) :
    onWorld (Prog.forEach l f) = Prog.forEach l fun x => onWorld (f x) := by
  induction l with
  | nil => rfl
  | cons x l ih => rw [Prog.forEach_cons, Prog.forEach_cons, onWorld_bind, ih]

end

/-- `if_handler_post` with this handler makes these calls. -/
theorem ifHandlerPost_veth (env : HandlerEnv) :
    ifHandlerPost [hVeth env] = onWorld vethPosts := by
  have hturn : ∀ entry, Prog.forEach [hVeth env] (ifHandlerCallback (·.post) entry) =
      onWorld (vethTurn entry) := by
    intro entry
    funext s
    unfold vethTurn
    rw [onWorld_get]
    show (ifHandlerCallback (·.post) entry (hVeth env) >>= fun _ => pure ()) s = _
    unfold ifHandlerCallback
    have hmatch : driverMatch (hVeth env) (s.world.ifs entry) = true ↔
        (s.world.ifs entry).driver = some (cstr "veth") := decide_eq_true_iff
    by_cases hdriver : (s.world.ifs entry).driver = some (cstr "veth")
    · simp only [Bind.bind, Prog.bind, Prog.get_apply, if_pos hdriver, if_pos (hmatch.mpr hdriver)]
      show Prog.bind (onWorld (vethPost entry)) (fun _ => pure ()) s = _
      unfold Prog.bind
      rcases onWorld (vethPost entry) s with _ | ⟨e | a, s'⟩ <;> rfl
    · simp only [Bind.bind, Prog.bind, Prog.get_apply, if_neg hdriver, if_neg (mt hmatch.mp hdriver)]
      rfl
  unfold ifHandlerPost vethPosts
  rw [onWorld_get]
  congr 1
  funext s
  rw [onWorld_forEach]
  congr 1
  funext ns
  rw [onWorld_get]
  congr 1
  funext s
  rw [onWorld_forEach]
  congr 1
  funext entry
  exact hturn entry

end Handlers

namespace World

def Veth (w : World) (e : IfPtr) : Prop :=
  e ∈ w.listed ∧ (w.ifs e).driver = some (cstr "veth")

/-- What `match_peer` makes of two interfaces with the driver and without peers. -/
def pairWeight (w : World) (e x : IfPtr) : Int :=
  if (w.ifs x).ifIndex ≠ (w.ifs e).peerIndex ∨ (w.ifs x).peerIndex ≠ (w.ifs e).ifIndex then 0
  else if (w.ifs x).ns = (w.ifs e).ns then 2
  else 1

def peerWeight (w : World) (e x : IfPtr) : Int :=
  if (w.ifs x).driver ≠ some (cstr "veth") then 0
  else if (w.ifs x).peer.isSome ∧ (w.ifs x).peer ≠ some e then 0
  else w.pairWeight e x

def peerTally (w : World) (e : IfPtr) : Tally IfPtr :=
  Tally.scan (w.peerWeight e) {} (w.listed.filter fun x => some e ≠ some x)

def peerChoice (w : World) (e : IfPtr) : Option IfPtr := (w.peerTally e).choice

theorem pairWeight_pos {w : World} {e x : IfPtr} : 0 < w.pairWeight e x ↔
    (w.ifs x).ifIndex = (w.ifs e).peerIndex ∧ (w.ifs x).peerIndex = (w.ifs e).ifIndex := by
  unfold pairWeight
  split_ifs with h1 h2
  · exact iff_of_false (by decide) fun h => h1.elim (· h.1) (· h.2)
  · rw [not_or, not_not, not_not] at h1
    exact iff_of_true (by decide) h1
  · rw [not_or, not_not, not_not] at h1
    exact iff_of_true (by decide) h1

theorem pairWeights (w : World) : Weights w.pairWeight where
  symm a b := by
    unfold pairWeight
    have hindexes : ((w.ifs b).ifIndex ≠ (w.ifs a).peerIndex ∨
        (w.ifs b).peerIndex ≠ (w.ifs a).ifIndex) ↔ ((w.ifs a).ifIndex ≠ (w.ifs b).peerIndex ∨
          (w.ifs a).peerIndex ≠ (w.ifs b).ifIndex) := by
      rw [or_comm, ne_comm, ne_comm (a := (w.ifs b).ifIndex)]
    simp only [hindexes, eq_comm (a := (w.ifs b).ns)]
  le_two a b := by
    unfold pairWeight
    split_ifs <;> decide
  alike a b c d hab hac hbd := by
    rw [pairWeight_pos] at hab hac hbd ⊢
    rw [hac.1, hac.2, ← hab.1, ← hab.2]
    exact hbd

/-- The best partner is the one that `match_if` finds alone. -/
theorem peerChoice_eq_some {w : World} (hnodup : w.listed.Nodup)
    (hsym : Matching.Symmetric w.peers) {e x : IfPtr} (he : w.Veth e) (hfree : w.peers e = none) :
    w.peerChoice e = some x ↔ Best w.Veth w.pairWeight w.peers e x := by
  have hmem : ∀ y, y ∈ (w.listed.filter fun x => some e ≠ some x) ↔ y ∈ w.listed ∧ e ≠ y := by
    simp [List.mem_filter]
  have hnone : ∀ y, ¬ ((w.ifs y).peer.isSome ∧ (w.ifs y).peer ≠ some e) ↔ w.peers y = none := by
    intro y
    rw [World.peers]
    cases hy : (w.ifs y).peer with
    | none => simp
    | some z =>
      have hne : z ≠ e := by
        rintro rfl
        rw [hsym y z hy] at hfree
        cases hfree
      simp [hne]
  have hpair : ∀ y, y ∈ w.listed ∧ e ≠ y ∧ 0 < w.peerWeight e y ↔
      Pairing.Pairable w.Veth w.pairWeight w.peers e y := by
    intro y
    unfold peerWeight
    constructor
    · rintro ⟨hy, hne, hpos⟩
      split_ifs at hpos with h1 h2
      · exact absurd hpos (by decide)
      · exact absurd hpos (by decide)
      · exact ⟨he, ⟨hy, not_not.mp h1⟩, hne, hfree, (hnone y).mp h2, hpos⟩
    · intro h
      rw [if_neg (not_not.mpr h.right.2), if_neg ((hnone y).mpr h.rightFree)]
      exact ⟨h.right.1, h.ne, h.pos⟩
  have hweight : ∀ y, Pairing.Pairable w.Veth w.pairWeight w.peers e y →
      w.peerWeight e y = w.pairWeight e y := by
    intro y h
    unfold peerWeight
    rw [if_neg (not_not.mpr h.right.2), if_neg ((hnone y).mpr h.rightFree)]
  unfold peerChoice peerTally
  rw [Tally.choice_eq_some (hnodup.filter _), hmem]
  constructor
  · rintro ⟨⟨hx, hne⟩, hpos, hlt⟩
    have hex := (hpair x).mp ⟨hx, hne, hpos⟩
    refine ⟨hex, fun y hy hyx => ?_⟩
    rw [← hweight y hy, ← hweight x hex]
    exact hlt y ((hmem y).mpr ⟨hy.right.1, hy.ne⟩) hyx
  · rintro ⟨hex, hlt⟩
    obtain ⟨hx, hne, hpos⟩ := (hpair x).mpr hex
    refine ⟨⟨hx, hne⟩, hpos, fun y hy hyx => ?_⟩
    rw [hmem] at hy
    by_cases hypos : 0 < w.peerWeight e y
    · have hey := (hpair y).mp ⟨hy.1, hy.2, hypos⟩
      rw [hweight y hey, hweight x hex]
      exact hlt y hey hyx
    · exact (not_lt.mp hypos).trans_lt hpos

/-- `w'` has all that `veth_post` reads of `w` but the peers. -/
structure Ends (w w' : World) : Prop where
  frame : w.Frame w'
  ifIndex : ∀ x, (w'.ifs x).ifIndex = (w.ifs x).ifIndex
  peerIndex : ∀ x, (w'.ifs x).peerIndex = (w.ifs x).peerIndex

namespace Ends

variable {w w' : World}

theorem refl (w : World) : w.Ends w := ⟨.refl w, fun _ => rfl, fun _ => rfl⟩

theorem trans {w'' : World} (h : w.Ends w') (h' : w'.Ends w'') : w.Ends w'' where
  frame := h.frame.trans h'.frame
  ifIndex x := (h'.ifIndex x).trans (h.ifIndex x)
  peerIndex x := (h'.peerIndex x).trans (h.peerIndex x)

theorem veth (h : w.Ends w') : w'.Veth = w.Veth := by
  funext e
  unfold World.Veth
  rw [h.frame.listed, (h.frame.kept e).driver]

theorem pairWeight (h : w.Ends w') : w'.pairWeight = w.pairWeight := by
  funext e x
  unfold World.pairWeight
  rw [h.ifIndex, h.ifIndex, h.peerIndex, h.peerIndex, (h.frame.kept x).ns, (h.frame.kept e).ns]

end Ends

end World

namespace Handlers

open World (Ends)

section
variable {w : World}

theorem matchPeer_weighs (w : World) (e : IfPtr) : Weighs (matchPeer e) w (w.peerWeight e) := by
  refine ⟨fun x => ?_, fun x => ?_⟩
  · unfold World.peerWeight World.pairWeight
    split_ifs <;> decide
  · refine Prog.Triple.bind (Q := fun w₁ w' => w₁ = w ∧ w' = w)
      (Prog.Triple.get fun w' hw => ⟨hw, hw⟩) fun w₁ => Prog.Triple.of_and ?_
    rintro rfl
    unfold World.peerWeight World.pairWeight
    by_cases hindex : (w₁.ifs x).ifIndex ≠ (w₁.ifs e).peerIndex ∨
        (w₁.ifs x).peerIndex ≠ (w₁.ifs e).ifIndex
    · simp only [if_pos hindex, ite_self]
      exact Prog.Triple.pure fun w' hw => ⟨rfl, hw⟩
    · simp only [if_neg hindex]
      refine Prog.Triple.bind (Q := fun driver w' => (w₁.ifs x).driver = some driver ∧ w' = w₁)
        (Prog.Triple.deref fun driver hdriver w' hw => ⟨hdriver, hw⟩) fun driver =>
          Prog.Triple.of_and fun hdriver => ?_
      rw [hdriver]
      simp only [ne_eq, Option.some.injEq]
      split_ifs <;> exact Prog.Triple.pure fun w' hw => ⟨rfl, hw⟩

def postPeers (w : World) (e : IfPtr) : IfPtr → Option IfPtr :=
  if (w.peers e).isSome then w.peers
  else match w.peerChoice e with
    | some x => Matching.rematch w.peers (some e) (some x)
    | none => w.peers

theorem ifAddWarning_ends (w : World) (e : IfPtr) (text : CStr) :
    w.Ends (ifAddWarning e text w) ∧ (ifAddWarning e text w).peers = w.peers := by
  refine ⟨⟨ifAddWarning_frame e text w, fun x => ?_, fun x => ?_⟩, funext fun x => ?_⟩
  · rw [ifAddWarning_ifs]
    split_ifs <;> rfl
  · rw [ifAddWarning_ifs]
    split_ifs <;> rfl
  · rw [World.peers, World.peers, ifAddWarning_ifs]
    split_ifs <;> rfl

theorem peerSet_ends (w : World) (first second : Option IfPtr) :
    w.Ends (peerSet first second w) := by
  refine ⟨peerSet_frame w first second, fun x => ?_, fun x => ?_⟩
  · obtain ⟨p, h⟩ := peerSet_ifs w x first second
    rw [h]
  · obtain ⟨p, h⟩ := peerSet_ifs w x first second
    rw [h]

theorem vethPost_peers (hsym : Matching.Symmetric w.peers) (e : IfPtr) :
    Prog.Runs (· = w) (vethPost e) (fun _ w' => w.Ends w' ∧ w'.peers = postPeers w e)
      fun _ => True := by
  unfold vethPost postPeers
  refine Prog.Triple.bind (Q := fun w₁ w' => w₁ = w ∧ w' = w)
    (Prog.Triple.get fun w' hw => ⟨hw, hw⟩) fun w₁ => Prog.Triple.of_and ?_
  rintro rfl
  by_cases hpeer : (w₁.ifs e).peer.isSome
  · have hpeer' : (w₁.peers e).isSome := hpeer
    rw [if_pos hpeer, if_pos hpeer']
    refine Prog.Triple.pure ?_
    rintro _ rfl
    exact ⟨.refl _, rfl⟩
  · have hpeer' : ¬ (w₁.peers e).isSome := hpeer
    rw [if_neg hpeer, if_neg hpeer']
    by_cases hindex : (w₁.ifs e).peerIndex = 0
    · rw [if_pos hindex]
      exact Prog.Triple.throw fun _ _ => trivial
    · rw [if_neg hindex]
      have hsearch := matchIf_tally (matchPeer_weighs w₁ e)
        { exclude := some e, netnsList := some w₁.nsList } rfl rfl
      refine Prog.Triple.bind (hsearch.weakenError fun _ _ h => h.elim) fun desc =>
        Prog.Triple.of_and fun hdesc => ?_
      have htally : desc.tally = w₁.peerTally e := hdesc.tally
      have hchoice : w₁.peerChoice e =
          if (w₁.peerTally e).Tied then none else (w₁.peerTally e).winner := rfl
      simp only [matchAmbiguous_iff, matchFound_eq, htally]
      by_cases htied : (w₁.peerTally e).Tied
      · rw [if_pos htied] at hchoice ⊢
        rw [hchoice]
        refine Prog.Triple.modify ?_
        rintro _ rfl
        exact ifAddWarning_ends _ e _
      · rw [if_neg htied] at hchoice ⊢
        rw [hchoice]
        cases (w₁.peerTally e).winner with
        | none =>
          refine Prog.Triple.modify ?_
          rintro _ rfl
          exact ifAddWarning_ends _ e _
        | some x =>
          refine Prog.Triple.modify ?_
          rintro _ rfl
          exact ⟨peerSet_ends _ _ _, peerSet_peers hsym _ _⟩

end

/-- Earlier turns do not matter: at its turn, an interface without peer has the choice that it
had before the first one. -/
def Undisturbed (w : World) : Prop :=
  ∀ pre e post t, w.listed = pre ++ e :: post →
    Prog.forEach pre vethTurn w = some (.ok (), t) → (t.ifs e).driver = some (cstr "veth") →
    (t.ifs e).peer = none → t.peerChoice e = w.peerChoice e

section
variable {w : World}

theorem vethTurn_peers (hsym : Matching.Symmetric w.peers) (e : IfPtr) :
    Prog.Runs (· = w) (vethTurn e) (fun _ w' => w.Ends w' ∧
      w'.peers = if (w.ifs e).driver = some (cstr "veth") then postPeers w e else w.peers)
      fun _ => True := by
  unfold vethTurn
  refine Prog.Triple.bind (Q := fun w₁ w' => w₁ = w ∧ w' = w)
    (Prog.Triple.get fun w' hw => ⟨hw, hw⟩) fun w₁ => Prog.Triple.of_and ?_
  rintro rfl
  by_cases hdriver : (w₁.ifs e).driver = some (cstr "veth")
  · rw [if_pos hdriver, if_pos hdriver]
    exact vethPost_peers hsym e
  · rw [if_neg hdriver, if_neg hdriver]
    refine Prog.Triple.pure ?_
    rintro _ rfl
    exact ⟨.refl _, rfl⟩

theorem vethTurns_paired (hnodup : w.listed.Nodup) (hsym : Matching.Symmetric w.peers)
    (hsteps : Undisturbed w) {pre post : List IfPtr} (hsplit : w.listed = pre ++ post) {t : World}
    (hrun : Prog.forEach pre vethTurn w = some (.ok (), t)) :
    w.Ends t ∧ PairedUpTo w.Veth w.pairWeight w.peers pre t.peers := by
  induction pre using List.reverseRecOn generalizing post t with
  | nil =>
    obtain rfl : w = t := by simpa [Prog.forEach, Prog.pure] using hrun
    exact ⟨.refl w, Pairing.pairedUpTo_nil hsym⟩
  | append_singleton pre e ih =>
    rw [List.append_assoc, List.singleton_append] at hsplit
    obtain ⟨t₁, hpre, hturn⟩ := Prog.forEach_concat_eq_ok w |>.mp hrun
    obtain ⟨hends, hpaired⟩ := ih hsplit hpre
    obtain ⟨hends₁, hpeers⟩ := vethTurn_peers hpaired.symmetric e t₁ rfl _ t hturn
    refine ⟨hends.trans hends₁, ?_⟩
    rw [hpeers]
    have hlisted : e ∈ w.listed := by
      rw [hsplit]
      simp
    have hdriver : (t₁.ifs e).driver = (w.ifs e).driver := (hends.frame.kept e).driver
    by_cases hveth : (t₁.ifs e).driver = some (cstr "veth")
    · rw [if_pos hveth]
      have hveth₀ : w.Veth e := ⟨hlisted, hdriver ▸ hveth⟩
      have hveth₁ : t₁.Veth e := by
        rw [hends.veth]
        exact hveth₀
      unfold postPeers
      by_cases hpeer : (t₁.peers e).isSome
      · rw [if_pos hpeer]
        exact hpaired.skip fun _ _ => hpeer
      · rw [if_neg hpeer]
        have hfree : t₁.peers e = none := Option.not_isSome_iff_eq_none.mp hpeer
        have hfree₀ : w.peers e = none := by
          cases hold : w.peers e with
          | none => rfl
          | some b =>
            rw [hpaired.kept e b hold] at hfree
            cases hfree
        have hchoice := hsteps pre e post t₁ hsplit hpre hveth hfree
        have hbest : ∀ x, w.peerChoice e = some x ↔ Best w.Veth w.pairWeight w.peers e x :=
          fun x => World.peerChoice_eq_some hnodup hsym hveth₀ hfree₀
        have hnodup₁ : t₁.listed.Nodup := by rwa [hends.frame.listed]
        cases hx : t₁.peerChoice e with
        | none =>
          refine hpaired.skip fun x hex => ?_
          rw [hx, (hbest x).mpr hex] at hchoice
          cases hchoice
        | some x =>
          have hex := (World.peerChoice_eq_some hnodup₁ hpaired.symmetric hveth₁ hfree).mp hx
          rw [hx] at hchoice
          exact hpaired.pair hfree hex.pairable.rightFree ((hbest x).mp hchoice.symm)
    · rw [if_neg hveth]
      exact hpaired.skip fun x hex => absurd (hdriver ▸ hex.pairable.left.2) hveth

theorem vethPosts_eq (w : World) : vethPosts w = Prog.forEach w.listed vethTurn w := by
  have hturn : ∀ n ∈ w.nsList, ∀ e ∈ (w.nss n).ifaces, Prog.Runs (fun w' => w.Frame w' ∧ True)
      (vethTurn e) (fun _ w' => w.Frame w' ∧ True) fun w' => w.Frame w' ∧ True := by
    intro n hn e he
    unfold vethTurn
    refine Prog.Triple.bind (Q := fun _ w' => w.Frame w' ∧ True)
      (Prog.Triple.get fun _ hw => hw) fun w₁ => Prog.Triple.ite (fun _ => ?_) fun _ => ?_
    · exact vethPost_triple peerInvariant_true (World.mem_listed.mpr ⟨n, hn, he⟩)
    · exact Prog.Triple.pure fun _ => id
  exact Prog.Triple.forEach_flatMap (fun w' hw' n => hw'.1.ifaces n) w.nsList hturn w
    ⟨.refl w, trivial⟩

end

end Handlers

namespace World

theorem MatchedUpTo.ends {w₀ w : World} {done : List IfPtr} (h : w₀.MatchedUpTo done w) :
    w₀.Ends w := by
  have hkept : ∀ x, (w₀.ifs x).Kept (w.ifs x) ∧ (w.ifs x).ifIndex = (w₀.ifs x).ifIndex ∧
      (w.ifs x).peerIndex = (w₀.ifs x).peerIndex := by
    intro x
    obtain ⟨l, rev, net, p, hx⟩ := h.ifs x
    rw [hx]
    exact ⟨⟨rfl, rfl, rfl, rfl⟩, rfl, rfl⟩
  obtain ⟨hnss, hlist, hfree⟩ := h.lists
  refine ⟨⟨hlist, fun n => ?_, fun n => ?_, hfree, fun x => (hkept x).1⟩,
    fun x => (hkept x).2.1, fun x => (hkept x).2.2⟩
  · rw [hnss]
  · rw [hnss]

theorem Reordered.veth {w v : World} (h : w.Reordered v) : v.Veth = w.Veth := by
  funext e
  unfold World.Veth
  rw [h.ifs, propext h.listed.mem_iff]

theorem Reordered.pairWeight {w v : World} (h : w.Reordered v) : v.pairWeight = w.pairWeight := by
  funext e x
  unfold World.pairWeight
  rw [h.ifs]

end World

namespace Handlers

/-- The steps of a run that starts without peers: no peer is taken away, and no choice is changed
by the turns before it. -/
structure Orderly (w : World) : Prop where
  named : w.NothingUndone
  posts : Undisturbed (matchAllNetnsid w)

theorem Orderly.paired {w w' : World} (h : Orderly w) (hw : w.Homed)
    (hnew : ∀ x, w.peers x = none) (hrun : vethPosts (matchAllNetnsid w) = some (.ok (), w')) :
    PairedUpTo w.Veth w.pairWeight (matchAllNetnsid w).peers w.listed w'.peers := by
  have hmatched := World.matchAllNetnsid_upTo hw
  have hends := hmatched.ends
  have hsym₀ : Matching.Symmetric w.peers := fun a b hab => by simp [hnew] at hab
  have hsym : Matching.Symmetric (matchAllNetnsid w).peers := by
    rw [hmatched.peers hsym₀]
    exact w.symmetric_foldl_matchPeers hsym₀ _
  have hlisted := hends.frame.listed
  have hnodup : (matchAllNetnsid w).listed.Nodup := hlisted ▸ hw.nodup
  rw [vethPosts_eq] at hrun
  have hpaired := (vethTurns_paired hnodup hsym h.posts (List.append_nil _).symm hrun).2
  rwa [hends.veth, hends.pairWeight, hlisted] at hpaired

/-- Runs of orderly steps leave the same peers, whatever the orders of the lists. -/
theorem vethPosts_reordered {w v w' v' : World} (hw : w.Homed)
    (hnew : ∀ x, (w.ifs x).peer = none) (h : w.Reordered v)
    (hrun : vethPosts (matchAllNetnsid w) = some (.ok (), w'))
    (hrun' : vethPosts (matchAllNetnsid v) = some (.ok (), v'))
    (hsteps : Orderly w) (hsteps' : Orderly v) : v'.peers = w'.peers := by
  have hnew' : ∀ x, v.peers x = none := fun x => by
    rw [World.peers, h.ifs]
    exact hnew x
  have hpaired := hsteps.paired hw hnew hrun
  have hpaired' := hsteps'.paired (h.homed hw) hnew' hrun'
  rw [h.veth, h.pairWeight, h.peers_matchAllNetnsid hw hnew hsteps.named hsteps'.named] at hpaired'
  have hall : ∀ a, w.Veth a → a ∈ w.listed := fun a ha => ha.1
  have hall' : ∀ a, w.Veth a → a ∈ v.listed := fun a ha => h.listed.mem_iff.mpr ha.1
  exact hpaired'.unique w.pairWeights hpaired hall' hall

/-- Two pairs between two name spaces. The first end of the first pair knows its peer by net name
space id. -/
def twoPairs (nsList : List NsPtr) : World where
  ifs x := if x = 0 then
      { ifIndex := 1, peerIndex := 2, peerNetnsid := 0, driver := some (cstr "veth") }
    else if x = 1 then { ns := 1, ifIndex := 2, peerIndex := 1, driver := some (cstr "veth") }
    else if x = 2 then { ifIndex := 3, peerIndex := 4, driver := some (cstr "veth") }
    else { ns := 1, ifIndex := 4, peerIndex := 3, driver := some (cstr "veth") }
  nss n := if n = 0 then { ifaces := [0, 2], ids := [⟨1, 0⟩] } else { ifaces := [1, 3] }
  nsList := nsList
  free := []

theorem twoPairs_orderly {nsList : List NsPtr} (h : nsList = [0, 1] ∨ nsList = [1, 0]) :
    Orderly (twoPairs nsList) := by
  -- a turn is that of the interface at a position of the list
  have hposition : ∀ (l pre post : List IfPtr) (e : IfPtr), l = pre ++ e :: post → l.length = 4 →
      ∃ i : Fin 4, pre = l.take i ∧ e = l.getD i 0 := by
    rintro _ pre post e rfl hlength
    have hlt : pre.length < 4 := by
      rw [← hlength, List.length_append, List.length_cons]
      omega
    exact ⟨⟨pre.length, hlt⟩, by simp, by simp⟩
  constructor
  · intro pre e post hsplit hid
    have hlength : (twoPairs nsList).listed.length = 4 := by rcases h with rfl | rfl <;> rfl
    obtain ⟨i, hpre, he⟩ := hposition _ pre post e hsplit hlength
    have hasks : ∀ i : Fin 4, 0 ≤ ((twoPairs nsList).ifs ((twoPairs nsList).listed.getD i 0)).peerNetnsid →
        (twoPairs nsList).listed.getD i 0 = 0 ∧
        ((twoPairs nsList).matchTurns ((twoPairs nsList).listed.take i)).peers 0 = none ∧
        ((twoPairs nsList).matchTurns ((twoPairs nsList).listed.take i)).peers 1 = none := by
      rcases h with rfl | rfl <;> decide +kernel
    obtain ⟨hzero, hself, hother⟩ := hasks i (he ▸ hid)
    rw [← he] at hzero
    rw [← hpre] at hself hother
    subst hzero
    refine ⟨fun n hn => ?_, .inl hself, fun x hx => ?_⟩
    · obtain rfl : 1 = n := by
        rcases h with rfl | rfl <;> exact Option.some.inj hn
      rcases h with rfl | rfl <;> decide
    · obtain rfl : 1 = x := by
        rcases h with rfl | rfl <;> exact Option.some.inj hx
      exact .inl hother
  · intro pre e post t hsplit hrun _ _
    have hlength : (matchAllNetnsid (twoPairs nsList)).listed.length = 4 := by
      rcases h with rfl | rfl <;> rfl
    obtain ⟨i, hpre, he⟩ := hposition _ pre post e hsplit hlength
    have hchoice : ∀ i : Fin 4,
        (Prog.forEach ((matchAllNetnsid (twoPairs nsList)).listed.take i) vethTurn
          (matchAllNetnsid (twoPairs nsList))).map
            (fun r => r.2.peerChoice ((matchAllNetnsid (twoPairs nsList)).listed.getD i 0)) =
          some ((matchAllNetnsid (twoPairs nsList)).peerChoice
            ((matchAllNetnsid (twoPairs nsList)).listed.getD i 0)) := by
      rcases h with rfl | rfl <;> decide +kernel
    have hi := hchoice i
    rw [← hpre, ← he, hrun] at hi
    exact Option.some.inj hi

theorem vethPosts_reordered_twoPairs : ∃ w' v',
    vethPosts (matchAllNetnsid (twoPairs [0, 1])) = some (.ok (), w') ∧
    vethPosts (matchAllNetnsid (twoPairs [1, 0])) = some (.ok (), v') ∧ v'.peers = w'.peers := by
  obtain ⟨w', hrun⟩ : ∃ w',
      vethPosts (matchAllNetnsid (twoPairs [0, 1])) = some (.ok (), w') := ⟨_, rfl⟩
  obtain ⟨v', hrun'⟩ : ∃ v',
      vethPosts (matchAllNetnsid (twoPairs [1, 0])) = some (.ok (), v') := ⟨_, rfl⟩
  have hnew : ∀ x, ((twoPairs [0, 1]).ifs x).peer = none := by
    intro x
    unfold twoPairs
    dsimp only
    split_ifs <;> rfl
  have hreordered : (twoPairs [0, 1]).Reordered (twoPairs [1, 0]) :=
    ⟨rfl, by decide, fun _ => .refl _, fun _ => rfl⟩
  exact ⟨w', v', hrun, hrun', vethPosts_reordered ⟨by decide, by decide, by decide⟩ hnew hreordered
    hrun hrun' (twoPairs_orderly (.inl rfl)) (twoPairs_orderly (.inr rfl))⟩

def thirdEnd (nsList : List NsPtr) : World where
  ifs x := if x = 0 then { ifIndex := 1, peerIndex := 2, driver := some (cstr "veth") }
    else if x = 1 then { ifIndex := 2, peerIndex := 1, driver := some (cstr "veth") }
    else { ns := 1, ifIndex := 1, peerIndex := 2, driver := some (cstr "veth") }
  nss n := if n = 0 then { ifaces := [0, 1] } else { ifaces := [2] }
  nsList := nsList
  free := []

theorem vethPosts_order_matters : ¬ ∀ w v w' v' : World, w.Homed →
    (∀ x, (w.ifs x).peer = none) → w.Reordered v →
    vethPosts (matchAllNetnsid w) = some (.ok (), w') →
    vethPosts (matchAllNetnsid v) = some (.ok (), v') → v'.peers = w'.peers := by
  intro h
  have hnew : ∀ x, ((thirdEnd [0, 1]).ifs x).peer = none := by
    intro x
    unfold thirdEnd
    dsimp only
    split_ifs <;> rfl
  have hsame := h (thirdEnd [0, 1]) (thirdEnd [1, 0]) _ _ ⟨by decide, by decide, by decide⟩ hnew
    ⟨rfl, by decide, fun _ => .refl _, fun _ => rfl⟩ rfl rfl
  have hfirst := congrFun hsame 0
  revert hfirst
  decide

end Handlers

end Plotnetcfg
