import Plotnetcfg.Handlers.Collected
import Plotnetcfg.Handlers.FillList

/-! The post callbacks of all interfaces as a run of steps. They search, and what they find they
relate the interface to that they are called for. -/

namespace Plotnetcfg.Handlers

section
variable {input : PostInput} {w₀ : World}

theorem mem_visited {w : World} {mode : MatchMode} {e x : IfPtr}
    (hx : x ∈ MatchDesc.visited { mode := mode, netnsList := some w.nsList, exclude := some e } w) :
    x ∈ w.listed ∧ x ≠ e := by
  obtain ⟨l, hl, hxl⟩ := List.mem_flatten.mp hx
  obtain ⟨n, hn, rfl⟩ := List.mem_map.mp hl
  obtain ⟨hmem, hne⟩ := List.mem_filter.mp hxl
  refine ⟨World.mem_listed.mpr ⟨n, hn, hmem⟩, ?_⟩
  rintro rfl
  exact of_decide_eq_true hne rfl

/-! ## The post callbacks -/

structure Posting (input : PostInput) (w₀ : World) (s : ScanState) : Prop where
  run : PostRun input w₀ s.world
  priv : s.priv = input.priv

section
variable {s : ScanState}

theorem Posting.restart (h : Posting input w₀ s) : Posting input s.world s := ⟨.refl, h.priv⟩

theorem Posting.trans (h : Posting input w₀ s) {s' : ScanState} (h' : Posting input s.world s') :
    Posting input w₀ s' :=
  ⟨h.run.trans h'.run, h'.priv⟩

end

/-- A program that goes by steps, also where it ends early. -/
def Posts {α : Type} (input : PostInput) (w₀ : World) (p : HandlerProg α) : Prop :=
  Prog.Triple (Posting input w₀) p (fun _ => Posting input w₀) fun _ => Posting input w₀

section
variable {α β : Type}

theorem Posts.pure (a : α) : Posts input w₀ (pure a) := Prog.Triple.pure fun _ => id

theorem Posts.get : Posts input w₀ Prog.get := Prog.Triple.get fun _ => id

theorem Posts.deref (x : Option α) : Posts input w₀ (Prog.deref x) :=
  Prog.Triple.deref fun _ _ _ => id

theorem Posts.bind {p : HandlerProg α} {f : α → HandlerProg β} (hp : Posts input w₀ p)
    (hf : ∀ a, Posts input w₀ (f a)) : Posts input w₀ (p >>= f) :=
  Prog.Triple.bind hp hf

theorem Posts.ite {c : Prop} [Decidable c] {p q : HandlerProg α} (hp : Posts input w₀ p)
    (hq : Posts input w₀ q) : Posts input w₀ (if c then p else q) :=
  Prog.Triple.ite (fun _ => hp) fun _ => hq

theorem Posts.withSome {x : Option α} {f : α → HandlerProg Unit}
    (hf : ∀ a, x = some a → Posts input w₀ (f a)) : Posts input w₀ (withSome x f) := by
  cases x with
  | none => exact .pure ()
  | some a => exact hf a rfl

theorem Posts.search {p : Prog Int World α} {R : α → World → Prop} (hfits : input.Fits w₀)
    (hp : ∀ w, w₀.Extends input.root input.names w →
      Prog.Runs (· = w) p (fun a w' => R a w ∧ w' = w) fun _ => False) :
    Prog.Triple (Posting input w₀) (Handlers.onWorld p)
      (fun a s => R a s.world ∧ Posting input w₀ s) fun _ => Posting input w₀ := by
  unfold Handlers.onWorld
  apply Prog.Triple.zoom
  intro s hs
  apply Prog.Triple.mapError
  rintro _ rfl r w hrun
  have hpost := hp s.world (hs.run.extends hfits) _ rfl r w hrun
  cases r with
  | ok a =>
    obtain ⟨hfound, rfl⟩ := hpost
    exact ⟨hfound, hs⟩
  | error err => exact hpost.elim

theorem Posts.write {f : World → World} {R : World → Prop} (hfits : input.Fits w₀)
    (hf : ∀ w, w₀.Extends input.root input.names w → R w → PostRun input w (f w)) :
    Prog.Triple (fun s => R s.world ∧ Posting input w₀ s) (Handlers.modifyWorld f)
      (fun _ => Posting input w₀) fun _ => Posting input w₀ := by
  unfold Handlers.modifyWorld Handlers.onWorld
  apply Prog.Triple.zoom
  rintro s ⟨hfound, hs⟩
  apply Prog.Triple.mapError
  apply Prog.Triple.modify
  rintro _ rfl
  exact ⟨hs.run.trans (hf s.world (hs.run.extends hfits) hfound), hs.priv⟩

theorem Posts.modifyWorld {f : World → World} (hfits : input.Fits w₀)
    (hf : ∀ w, w₀.Extends input.root input.names w → PostRun input w (f w)) :
    Posts input w₀ (Handlers.modifyWorld f) := by
  have hwrite := Posts.write (R := fun _ => True) hfits fun w hw _ => hf w hw
  exact hwrite.weaken (fun _ hs => ⟨trivial, hs⟩) fun _ _ => id

theorem Posts.label (hfits : input.Fits w₀) (e : IfPtr) {f : IfEntry → IfEntry}
    (hf : ∀ x, (f x).unlabelled = x.unlabelled) :
    Posts input w₀ (Handlers.modifyWorld (·.modifyIf e f)) :=
  .modifyWorld hfits fun _ _ => .single (.label e hf)

/-- What is known of the state when a program starts may be used in it. -/
theorem Posts.restart (hfits : input.Fits w₀) {p : ScanState → HandlerProg α}
    (hp : ∀ s, input.Fits s.world → w₀.Extends input.root input.names s.world → s.priv = input.priv →
      Posts input s.world (p s)) :
    Posts input w₀ (Prog.get >>= p) := by
  apply Prog.Triple.bind (Q := fun s s' => s' = s ∧ Posting input w₀ s)
    (Prog.Triple.get fun _ hs => ⟨rfl, hs⟩)
  rintro s _ ⟨rfl, hs⟩ r s' hrun
  have hext := hs.run.extends hfits
  have hpost := hp _ (hfits.extends hext) hext hs.priv _ hs.restart r s' hrun
  cases r with
  | ok a => exact hs.trans hpost
  | error err => exact hs.trans hpost

theorem derefPrivate_reads (view : Private → Option α) (entry : IfPtr) (t : ScanState) :
    Prog.Triple (· = t) (derefPrivate view entry)
      (fun a s => (∃ priv, t.priv entry = .live priv ∧ view priv = some a) ∧ s = t)
      fun _ s => s.world = t.world ∧ s.priv = t.priv := by
  have hmisuse : ∀ {Q : α → ScanState → Prop},
      Prog.Triple (· = t) (misuse entry) Q fun _ s => s.world = t.world ∧ s.priv = t.priv := by
    rintro Q _ rfl r s' hrun
    obtain ⟨rfl, rfl⟩ := Prod.mk.inj (Option.some.inj hrun)
    exact ⟨rfl, rfl⟩
  unfold derefPrivate
  apply Prog.Triple.bind (Q := fun s s' => s = t ∧ s' = t) (Prog.Triple.get fun _ hs => ⟨hs, hs⟩)
  intro s
  apply Prog.Triple.of_and
  rintro rfl
  split
  next priv hpriv =>
    cases hview : view priv with
    | some a => exact Prog.Triple.pure fun _ hs => ⟨⟨priv, hpriv, hview⟩, hs⟩
    | none => exact hmisuse
  · exact hmisuse

theorem Posts.derefPrivate {view : Private → Option α} {entry : IfPtr} {f : α → HandlerProg β}
    (hf : ∀ a, Posts input w₀ (f a)) : Posts input w₀ (derefPrivate view entry >>= f) := by
  apply Prog.Triple.bind (Q := fun _ => Posting input w₀) _ hf
  intro s hs r s' hrun
  have hpost := derefPrivate_reads view entry s s rfl r s' hrun
  cases r with
  | ok a => exact hpost.2 ▸ hs
  | error stop =>
    obtain ⟨hworld, hpriv⟩ := hpost
    exact ⟨by rw [hworld]; exact hs.run, hpriv.trans hs.priv⟩

/-! ## From one state -/

/-- The same from the state `t`. -/
def PostsFrom (input : PostInput) (t : ScanState) (p : HandlerProg α) : Prop :=
  Prog.Triple (· = t) p (fun _ => Posting input t.world) fun _ => Posting input t.world

section
variable {t : ScanState} {entry : IfPtr}

theorem Posts.start {p : HandlerProg α} (hpriv : t.priv = input.priv)
    (h : Posts input t.world p) : PostsFrom input t p :=
  h.weaken (fun s hs => by rw [hs]; exact ⟨.refl, hpriv⟩) fun _ _ => id

theorem PostsFrom.pure (hpriv : t.priv = input.priv) (a : α) : PostsFrom input t (pure a) :=
  Posts.start hpriv (.pure a)

theorem PostsFrom.derefPrivate (hpriv : t.priv = input.priv) {view : Private → Option α}
    {f : α → HandlerProg β}
    (hf : ∀ priv a, t.priv entry = .live priv → view priv = some a → PostsFrom input t (f a)) :
    PostsFrom input t (derefPrivate view entry >>= f) := by
  have hread : Prog.Triple _ (Handlers.derefPrivate view entry) _ fun _ => Posting input t.world :=
    (derefPrivate_reads view entry t).weakenError
      fun _ s hs => ⟨by rw [hs.1]; exact .refl, hs.2.trans hpriv⟩
  apply Prog.Triple.bind hread
  intro a
  apply Prog.Triple.of_and
  rintro ⟨priv, hlive, hview⟩
  exact hf priv a hlive hview

theorem PostsFrom.onWorld (hpriv : t.priv = input.priv) {p : Prog Int World α}
    (hp : Prog.Runs (· = t.world) p (fun _ => PostRun input t.world) (PostRun input t.world)) :
    PostsFrom input t (onWorld p) := by
  unfold PostsFrom Handlers.onWorld
  apply Prog.Triple.zoom
  rintro _ rfl
  apply Prog.Triple.mapError
  apply (hp.weakenError fun _ _ h => ⟨h, hpriv⟩).weaken (fun _ => id)
  exact fun _ _ h => ⟨h, hpriv⟩

end

end

theorem markSlave_run (entry slave : IfPtr) (key : CStr) (active : Bool) (w : World) :
    PostRun input w (markSlave entry slave key active w) := by
  unfold markSlave
  split_ifs
  · have hslave : PostStep input w
        (w.modifyIf entry fun x => { x with activeSlave := some slave }) := .label entry fun _ => rfl
    exact .tail (.single hslave) (.label entry fun _ => rfl)
  · exact .single (.label slave fun _ => rfl)

section
variable (hfits : input.Fits w₀) {entry : IfPtr} (hentry : entry ∈ w₀.listed)
include hfits

theorem addConfig_posts (entry : IfPtr) (key value : CStr) :
    Posts input w₀ (addConfig entry key value) :=
  .label hfits entry fun _ => rfl

theorem bondPost_posts (entry : IfPtr) : Posts input w₀ (bondPost entry) := by
  apply Posts.derefPrivate
  intro priv
  apply Posts.bind (.withSome fun _ _ => addConfig_posts hfits entry _ _)
  intro _
  apply Posts.ite
  · apply Posts.bind .get
    intro s
    apply Prog.Triple.forEach
    intro slave _
    exact Posts.bind .get fun _ => .modifyWorld hfits fun w _ => markSlave_run entry slave _ _ w
  · exact .pure ()

theorem teamPost_posts (entry : IfPtr) : Posts input w₀ (teamPost entry) := by
  apply Posts.bind .get
  intro s
  apply Posts.ite
  · exact .pure ()
  apply Posts.derefPrivate
  intro activePortName
  apply Posts.withSome
  intro jport _
  apply Prog.Triple.forEach
  intro slave _
  apply Posts.bind .get
  intro s'
  apply Posts.bind (.deref _)
  exact fun _ => .modifyWorld hfits fun w _ => markSlave_run entry slave _ _ w

omit hfits in
theorem matchPhysfn_listed (entry : IfPtr) (w : World) :
    Prog.Runs (· = w) (matchIf
      { mode := .first, netnsList := some w.nsList, exclude := some entry } (matchPhysfn entry))
      (fun desc w' => (∀ x ∈ matchFound desc, x ∈ w.listed) ∧ w' = w) fun _ => False := by
  have hcallback : ∀ e, Prog.Runs (· = w) (matchPhysfn entry e)
      (fun res w' => (res < 0 → False) ∧ w' = w) fun _ => False := by
    intro e
    apply Prog.Triple.bind (Q := fun _ w' => w' = w) (Prog.Triple.get fun _ => id)
    intro v
    apply Prog.Triple.ite
    · exact fun _ => Prog.Triple.pure fun _ hw => ⟨fun h => absurd h (by decide), hw⟩
    · exact fun _ => Prog.Triple.pure fun _ hw => ⟨fun h => absurd h (by decide), hw⟩
  have hsearch := matchIf_triple (· ∈ w.listed)
    { mode := .first, netnsList := some w.nsList, exclude := some entry } hcallback
    (fun v hv n hn e he => World.mem_listed.mpr ⟨n, hn, hv ▸ he⟩) nofun
  apply hsearch.weaken (fun _ => id)
  exact fun desc w' h => ⟨fun x hx => matchFound_mem h.1 hx, h.2⟩

theorem iovPost_posts (entry : IfPtr) : Posts input w₀ (iovPost entry) := by
  apply Posts.restart hfits
  intro s hfits' _ _
  apply Posts.ite
  · exact .pure ()
  have hsearch := Posts.search (p := matchIf
    { mode := .first, netnsList := some s.world.nsList, exclude := some entry } (matchPhysfn entry))
    (R := fun desc w => ∀ x ∈ matchFound desc, x ∈ w.listed) hfits' fun w hw => by
      rw [← hw.nsList]
      exact matchPhysfn_listed entry w
  apply Prog.Triple.bind hsearch
  intro desc
  apply Prog.Triple.bind (Posts.write hfits' fun w _ hfound => .single (.physfn hfound))
  intro _
  apply Posts.ite
  · exact .modifyWorld hfits' fun w _ => ifAddWarning_run entry _ w
  · exact .pure ()

end

/-! ## The callbacks that are reached -/

structure PostCallback (env : HandlerEnv) (s₀ : ScanState) (h : IfHandler) (entry : IfPtr)
    (t : ScanState) : Prop where
  matched : driverMatch h (t.world.ifs entry) = true
  reached : ∃ pre post t₁ hs hs', s₀.world.listed = pre ++ entry :: post ∧
    Prog.forEach pre (postTurn env) s₀ = some (.ok (), t₁) ∧ ifHandlers env = hs ++ h :: hs' ∧
    Prog.forEach hs (ifHandlerCallback (·.post) entry) t₁ = some (.ok (), t)

section
variable (h : IfHandler) (entry : IfPtr) (t : ScanState)

inductive LocalSearch : Addr → World → Prop where
  | tunnel {localAddr : Addr} (hpost : h.post = some tunnelPost)
      (hpriv : t.priv entry = .live (.tunnel localAddr)) (hfamily : 0 ≤ localAddr.family) :
      LocalSearch localAddr t.world
  | vxlan {priv : VxlanPriv} {localAddr : Addr} (hpost : h.post = some vxlanPost)
      (hpriv : t.priv entry = .live (.vxlan priv)) (hlocal : priv.localAddr = some localAddr) :
      LocalSearch localAddr
        (ifAddConfig entry (cstr "from") (printStr localAddr.formatted) t.world)

def FoundIn (ns : NsPtr) (data : Addr) (w : World) (found : IfPtr) : Prop :=
  tunnelFindAddr ns data w = some (.ok (some found), w)

def FoundPeer (w : World) (found : IfPtr) : Prop :=
  (w.ifs entry).peer = none ∧ (w.ifs entry).peerIndex ≠ 0 ∧ ∃ desc,
    matchIf { exclude := some entry, netnsList := some w.nsList } (matchPeer entry) w =
      some (.ok desc, w) ∧ matchAmbiguous desc = false ∧ matchFound desc = some found

/-- The calls that the callback makes are among `calls`. -/
structure CallbackMakes (calls : PostCalls) : Prop where
  tunnel : ∀ data w found, LocalSearch h entry t data w →
    FoundIn ((w.ifs entry).linkNet.getD (w.ifs entry).ns) data w found → calls.tunnel entry found
  pair : ∀ found, (h.post = some fun entry => onWorld (vethPost entry)) →
    FoundPeer entry t.world found → calls.pair entry found

end

section
variable {t : ScanState} {entry : IfPtr} (hfits : input.Fits t.world)
  (hpriv : t.priv = input.priv) (hentry : entry ∈ t.world.listed)
include hfits hpriv hentry

theorem linkLocal_posts {data : Addr} (hcall : ∀ found,
    FoundIn ((t.world.ifs entry).linkNet.getD (t.world.ifs entry).ns) data t.world found →
      input.calls.tunnel entry found) :
    PostsFrom input t (linkLocal entry data) := by
  unfold linkLocal
  apply Prog.Triple.bind (Q := fun s s' => s = t ∧ s' = t) (Prog.Triple.get fun _ hs => ⟨hs, hs⟩)
  intro s
  apply Prog.Triple.of_and
  rintro rfl
  let ns := (s.world.ifs entry).linkNet.getD (s.world.ifs entry).ns
  have hns : ns ∈ s.world.nsList := by
    cases hnet : (s.world.ifs entry).linkNet with
    | none =>
      simp only [ns, hnet, Option.getD_none]
      exact hfits.scanned.ns_mem hentry
    | some n =>
      simp only [ns, hnet, Option.getD_some]
      exact hfits.linkNet entry hentry n hnet
  have hsearch : Prog.Triple (· = s) (onWorld (tunnelFindAddr ns data))
      (fun found s' => (tunnelFindAddr ns data s.world = some (.ok found, s.world) ∧
        found = s.world.addrHolder ns data) ∧ s' = s) fun _ => Posting input s.world := by
    unfold onWorld
    apply Prog.Triple.zoom
    rintro _ rfl
    apply Prog.Triple.mapError
    rintro _ rfl r w hrun
    have hpost := tunnelFindAddr_holder data ns _ rfl r w hrun
    cases r with
    | error err => exact hpost.elim
    | ok found =>
      obtain ⟨hholder, rfl⟩ := hpost
      exact ⟨⟨hrun, hholder⟩, rfl⟩
  apply Prog.Triple.bind hsearch
  intro found
  apply Prog.Triple.of_and
  rintro ⟨hrun, hholder⟩
  cases found with
  | none => exact PostsFrom.pure hpriv ()
  | some found =>
    have hnodup := (List.nodup_flatMap.mp hfits.scanned.nodup).1 ns hns
    have hmem := ((addrHolder_eq_some data hnodup).mp hholder.symm).1
    have hfound : found ∈ s.world.listed := World.mem_listed.mpr ⟨ns, hns, hmem⟩
    apply Posts.start hpriv
    apply Posts.bind
    · apply Posts.modifyWorld hfits
      exact fun w hw => .single (.tunnel (hw.listed entry hentry) (hw.listed found hfound)
        (hcall found hrun))
    · exact fun _ => Posts.label hfits entry fun _ => rfl

theorem tunnelPost_posts {h : IfHandler} (hpost : h.post = some tunnelPost)
    (hcalls : CallbackMakes h entry t input.calls) : PostsFrom input t (tunnelPost entry) := by
  apply PostsFrom.derefPrivate hpriv
  intro priv localAddr hlive hview
  apply Prog.Triple.ite
  · intro hfamily
    cases priv with
    | tunnel addr =>
      obtain rfl := Option.some.inj hview
      exact linkLocal_posts hfits hpriv hentry fun found =>
        hcalls.tunnel addr t.world found (.tunnel hpost hlive hfamily)
    | _ => cases hview
  · exact fun _ => PostsFrom.pure hpriv ()

theorem vxlanPost_posts {h : IfHandler} (hpost : h.post = some vxlanPost)
    (hcalls : CallbackMakes h entry t input.calls) : PostsFrom input t (vxlanPost entry) := by
  apply PostsFrom.derefPrivate hpriv
  intro priv vxlan hlive hview
  have hlive : t.priv entry = .live (.vxlan vxlan) := by
    cases priv with
    | vxlan v =>
      obtain rfl := Option.some.inj hview
      exact hlive
    | _ => cases hview
  apply Prog.Triple.bind (Q := fun _ => Posting input t.world)
  · cases hlocal : vxlan.localAddr with
    | none => exact PostsFrom.pure hpriv ()
    | some localAddr =>
      let w := ifAddConfig entry (cstr "from") (printStr localAddr.formatted) t.world
      have hstep : PostStep input t.world w := .label entry fun _ => rfl
      have hconfig : Prog.Triple (· = t)
          (addConfig entry (cstr "from") (printStr localAddr.formatted))
          (fun _ s => s = { t with world := w }) fun _ => Posting input t.world := by
        unfold addConfig modifyWorld onWorld
        apply Prog.Triple.zoom
        rintro _ rfl
        apply Prog.Triple.mapError
        apply Prog.Triple.modify
        rintro _ rfl
        rfl
      apply Prog.Triple.bind hconfig
      intro _
      have hext := hstep.extends hfits
      have hlocalPosts := linkLocal_posts (t := { t with world := w }) (hfits.extends hext) hpriv
        (hext.listed entry hentry) fun found =>
          hcalls.tunnel localAddr w found (.vxlan hpost hlive hlocal)
      have hposted : ∀ s, Posting input w s → Posting input t.world s :=
        fun s hs => ⟨.head hstep hs.run, hs.priv⟩
      exact (hlocalPosts.weakenError fun _ s hs => hposted s hs).weaken (fun _ => id)
        fun _ s hs => hposted s hs
  · exact fun _ => Posts.withSome fun _ _ => addConfig_posts hfits entry _ _

omit hpriv hentry hfits in
theorem vethPost_run {w : World} (hfits : input.Fits w) (he : entry ∈ w.listed)
    (hcall : ∀ found, FoundPeer entry w found → input.calls.pair entry found) :
    Prog.Runs (· = w) (vethPost entry) (fun _ => PostRun input w) (PostRun input w) := by
  have hwarn : ∀ text, Prog.Runs (· = w)
      (Prog.modify (ifAddWarning entry text) : Prog Int World Unit) (fun _ => PostRun input w)
      (PostRun input w) := by
    intro text
    apply Prog.Triple.modify
    rintro v rfl
    exact ifAddWarning_run entry text v
  unfold vethPost
  apply Prog.Triple.bind (Q := fun w₁ w' => w₁ = w ∧ w' = w) (Prog.Triple.get fun _ hw => ⟨hw, hw⟩)
  intro w₁
  apply Prog.Triple.of_and
  rintro rfl
  apply Prog.Triple.ite
  · exact fun _ => Prog.Triple.pure fun _ hw => hw ▸ .refl
  intro hpeer
  rw [Bool.not_eq_true, Option.isSome_eq_false_iff, Option.isNone_iff_eq_none] at hpeer
  apply Prog.Triple.ite
  · exact fun _ => Prog.Triple.throw fun _ hw => hw ▸ .refl
  intro hindex
  let desc₀ : MatchDesc := { exclude := some entry, netnsList := some w₁.nsList }
  have hdesc : desc₀.Initialised := ⟨rfl, nofun⟩
  have hsearch : Prog.Runs (· = w₁) (matchIf desc₀ (matchPeer entry))
      (fun desc w' => (matchIf desc₀ (matchPeer entry) w₁ = some (.ok desc, w₁) ∧
        ∀ x, matchFound desc = some x → x ∈ w₁.listed) ∧ w' = w₁) (PostRun input w₁) := by
    rintro _ rfl r w' hrun
    have hpost := matchIf_found (matchPeer_weighs _ entry) hdesc _ rfl r w' hrun
    cases r with
    | error err => exact hpost.elim
    | ok desc =>
      obtain ⟨hfound, rfl⟩ := hpost
      exact ⟨⟨hrun, fun x hx => (mem_visited (hfound x hx).1).1⟩, rfl⟩
  apply Prog.Triple.bind hsearch
  intro desc
  apply Prog.Triple.of_and
  rintro ⟨hrun, hlisted⟩
  apply Prog.Triple.ite
  · exact fun _ => hwarn _
  intro hsole
  rw [Bool.not_eq_true] at hsole
  cases hmatch : matchFound desc with
  | none => exact hwarn _
  | some found =>
    apply Prog.Triple.modify
    rintro v rfl
    exact .single (.pair he (hlisted found hmatch)
      (hcall found ⟨hpeer, hindex, desc, hrun, hsole, hmatch⟩))

theorem post_posts (env : HandlerEnv) {h : IfHandler} (hmem : h ∈ ifHandlers env)
    {f : IfPtr → HandlerProg Unit} (hf : h.post = some f)
    (hcalls : CallbackMakes h entry t input.calls) : PostsFrom input t (f entry) := by
  have htunnel : h.post = some tunnelPost → PostsFrom input t (tunnelPost entry) :=
    fun hpost => tunnelPost_posts hfits hpriv hentry hpost hcalls
  have hvxlan : h.post = some vxlanPost → PostsFrom input t (vxlanPost entry) :=
    fun hpost => vxlanPost_posts hfits hpriv hentry hpost hcalls
  simp only [ifHandlers, List.mem_cons, List.not_mem_nil, or_false] at hmem
  rcases hmem with rfl | rfl | rfl | rfl | rfl | rfl | rfl | rfl | rfl | rfl | rfl | rfl | rfl |
    rfl | rfl | rfl | rfl | rfl | rfl | rfl | rfl <;> cases hf
  · exact (bondPost_posts hfits entry).start hpriv
  -- gre
  · exact htunnel rfl
  · exact htunnel rfl
  · exact htunnel rfl
  · exact htunnel rfl
  · exact htunnel rfl
  · exact htunnel rfl
  · exact (iovPost_posts hfits entry).start hpriv
  -- ipxipy
  · exact htunnel rfl
  · exact htunnel rfl
  · exact htunnel rfl
  · exact (teamPost_posts hfits entry).start hpriv
  · exact .onWorld hpriv (vethPost_run hfits hentry fun found => hcalls.pair found rfl)
  -- vti
  · exact htunnel rfl
  · exact htunnel rfl
  · exact hvxlan rfl

theorem postCallback_posts (env : HandlerEnv) {h : IfHandler} (hmem : h ∈ ifHandlers env)
    (hcalls : driverMatch h (t.world.ifs entry) = true → CallbackMakes h entry t input.calls) :
    PostsFrom input t (ifHandlerCallback (·.post) entry h) := by
  unfold ifHandlerCallback
  apply Prog.Triple.bind (Q := fun s s' => s = t ∧ s' = t) (Prog.Triple.get fun _ hs => ⟨hs, hs⟩)
  intro s
  apply Prog.Triple.of_and
  rintro rfl
  apply Prog.Triple.ite
  · intro hmatch
    dsimp only
    split
    next f hf => exact post_posts hfits hpriv hentry env hmem hf (hcalls hmatch)
    · exact PostsFrom.pure hpriv ()
  · exact fun _ => PostsFrom.pure hpriv ()

end

section
variable {env : HandlerEnv} {t₁ : ScanState} (hfits : input.Fits t₁.world)
  (hpriv : t₁.priv = input.priv)
include hfits hpriv

theorem callbacks_posts {entry : IfPtr} (hentry : entry ∈ t₁.world.listed) {l : List IfHandler}
    (hl : ∀ h ∈ l, h ∈ ifHandlers env)
    (hcalls : ∀ hs h hs' t, l = hs ++ h :: hs' →
      Prog.forEach hs (ifHandlerCallback (·.post) entry) t₁ = some (.ok (), t) →
      driverMatch h (t.world.ifs entry) = true → CallbackMakes h entry t input.calls) :
    PostsFrom input t₁ (Prog.forEach l (ifHandlerCallback (·.post) entry)) := by
  apply Prog.Triple.forEachReached (I := fun _ => Posting input t₁.world) _ ⟨.refl, hpriv⟩
  intro hs h hs' t hsplit hbefore ht
  have hmem : h ∈ l := hsplit ▸ List.mem_append_right hs List.mem_cons_self
  have hext := ht.run.extends hfits
  have hcallback := postCallback_posts (hfits.extends hext) ht.priv (hext.listed entry hentry) env
    (hl h hmem) (hcalls hs h hs' t hsplit hbefore)
  exact (hcallback.weakenError fun _ _ => ht.trans).weaken (fun _ => id) fun _ _ => ht.trans

theorem turns_posts {l : List IfPtr} (hl : ∀ e ∈ l, e ∈ t₁.world.listed)
    (hcalls : ∀ pre entry post t, l = pre ++ entry :: post →
      Prog.forEach pre (postTurn env) t₁ = some (.ok (), t) →
      ∀ hs h hs' u, ifHandlers env = hs ++ h :: hs' →
      Prog.forEach hs (ifHandlerCallback (·.post) entry) t = some (.ok (), u) →
      driverMatch h (u.world.ifs entry) = true → CallbackMakes h entry u input.calls) :
    PostsFrom input t₁ (Prog.forEach l (postTurn env)) := by
  apply Prog.Triple.forEachReached (I := fun _ => Posting input t₁.world) _ ⟨.refl, hpriv⟩
  intro pre entry post t hsplit hbefore ht
  have hmem : entry ∈ l := hsplit ▸ List.mem_append_right pre List.mem_cons_self
  have hext := ht.run.extends hfits
  have hturn := callbacks_posts (hfits.extends hext) ht.priv (hext.listed entry (hl entry hmem))
    (fun _ => id) (hcalls pre entry post t hsplit hbefore)
  exact (hturn.weakenError fun _ _ => ht.trans).weaken (fun _ => id) fun _ _ => ht.trans

/-- The callbacks go by steps, and relate interfaces where they are called only. -/
theorem ifHandlerPost_posts (hcalls : ∀ h entry t, PostCallback env t₁ h entry t →
    CallbackMakes h entry t input.calls) :
    PostsFrom input t₁ (ifHandlerPost (ifHandlers env)) := by
  have hturns : PostsFrom input t₁ (Prog.forEach t₁.world.listed (postTurn env)) :=
    turns_posts hfits hpriv (fun _ => id)
      fun pre entry post t hsplit hbefore hs h hs' u hhandlers hcallbacks hmatch => hcalls h entry u
        ⟨hmatch, pre, post, t, hs, hs', hsplit, hbefore, hhandlers, hcallbacks⟩
  rintro _ rfl r s' hrun
  rw [ifHandlerPost_eq] at hrun
  exact hturns _ rfl r s' hrun

theorem PostCallback.posting {h : IfHandler} {entry : IfPtr} {t : ScanState}
    (hany : input.calls = .any) (hcall : PostCallback env t₁ h entry t) :
    Posting input t₁.world t ∧ entry ∈ t.world.listed := by
  obtain ⟨pre, post, t₂, hs, hs', hsplit, hbefore, hhandlers, hcallbacks⟩ := hcall.reached
  have hmakes : ∀ h entry t, CallbackMakes h entry t input.calls := by
    intro h entry t
    rw [hany]
    exact ⟨fun _ _ _ _ _ => trivial, fun _ _ _ => trivial⟩
  have hpre : ∀ e ∈ pre, e ∈ t₁.world.listed := fun e he =>
    hsplit ▸ List.mem_append_left _ he
  have hentry : entry ∈ t₁.world.listed := hsplit ▸ List.mem_append_right pre List.mem_cons_self
  have ht₂ := turns_posts hfits hpriv hpre
    (fun _ entry _ _ _ _ _ h _ u _ _ _ => hmakes h entry u) _ rfl _ t₂ hbefore
  have hext := ht₂.run.extends hfits
  have hlisted := hext.listed entry hentry
  have hmem : ∀ h ∈ hs, h ∈ ifHandlers env := fun h hh => hhandlers ▸ List.mem_append_left _ hh
  have ht := callbacks_posts (hfits.extends hext) ht₂.priv hlisted hmem
    (fun _ h _ u _ _ _ => hmakes h entry u) _ rfl _ t hcallbacks
  exact ⟨ht₂.trans ht, (ht.run.extends (hfits.extends hext)).listed entry hlisted⟩

end

end

end Plotnetcfg.Handlers
