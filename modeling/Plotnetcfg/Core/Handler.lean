import Plotnetcfg.Core.Jansson
import Plotnetcfg.Core.Topology
import Plotnetcfg.Lib.Prog

/-! The handlers of interfaces and what `handler.c` does with them. A handler keeps its data for
an interface in the block that `handler_private` points to. -/

namespace Plotnetcfg.Handlers

/-- How a callback ends early: it returns an error, or the program is killed. -/
inductive Stop where
  | err (code : Int)
  | crash
deriving DecidableEq

structure BondPrivate where
  mode : UInt8 := 0
  activeSlaveIndex : UInt32 := 0
  activeSlaveName : Option CStr := none

structure VxlanPriv where
  localAddr : Option Addr := none
  group : Option Addr := none
  collectMetadata : Bool := false

/-- The contents of a block. `tunnel` is that of `gre_priv`, `ipxipy_priv` and `vti_priv`. -/
inductive Private where
  | bond (priv : BondPrivate)
  | geneve (flags : Int)
  | team (activePortName : Option Json)
  | tunnel (localAddr : Addr)
  | vlan (tag : UInt32)
  | vxlan (priv : VxlanPriv)

/-- What `handler_private` points to. -/
inductive Block where
  | unset
  | live (priv : Private)
  | released

/-- `priv` is the field `handler_private` of the interfaces. `mallocs` are the outcomes of the
next allocations; when there are no more, they succeed. `misused` are the interfaces whose
`handler_private` was dereferenced, or freed again, when it was not a live block. -/
structure ScanState where
  world : World
  priv : IfPtr → Block
  mallocs : List Bool := []
  misused : List IfPtr := []

abbrev HandlerProg := Prog Stop ScanState

/-- A table of attributes by type; a null pointer is `none`. -/
abbrev Attrs := Nat → Option (List UInt8)

def fail {α : Type} (code : Int) : HandlerProg α := Prog.throw (.err code)

def onWorld {α : Type} (p : Prog Int World α) : HandlerProg α :=
  Prog.zoom ScanState.world (fun w s => { s with world := w }) (p.mapError .err)

def modifyWorld (f : World → World) : HandlerProg Unit := onWorld (Prog.modify f)

def addConfig (entry : IfPtr) (key value : CStr) : HandlerProg Unit :=
  modifyWorld (ifAddConfig entry key value)

def malloc : HandlerProg Bool := fun s =>
  match s.mallocs with
  | [] => some (.ok true, s)
  | ok :: rest => some (.ok ok, { s with mallocs := rest })

def allocate : HandlerProg Unit := do
  if ← malloc then pure () else fail ENOMEM

def withSome {α : Type} (x : Option α) (f : α → HandlerProg Unit) : HandlerProg Unit :=
  match x with
  | some a => f a
  | none => pure ()

/-! ## The private block -/

def setBlock (entry : IfPtr) (block : Block) : HandlerProg Unit :=
  Prog.modify fun s => { s with priv := Function.update s.priv entry block }

def misuse {α : Type} (entry : IfPtr) : HandlerProg α := fun s =>
  some (.error .crash, { s with misused := entry :: s.misused })

/-- `priv->...`, where `view` is the struct that `handler_private` is cast to. -/
def derefPrivate {α : Type} (view : Private → Option α) (entry : IfPtr) : HandlerProg α := do
  let s ← Prog.get
  match s.priv entry with
  | .live priv =>
    match view priv with
    | some a => pure a
    | none => misuse entry
  | _ => misuse entry

/-- Writing a field of the block. -/
def writePrivate (entry : IfPtr) (priv : Private) : HandlerProg Unit := do
  let s ← Prog.get
  match s.priv entry with
  | .live _ => setBlock entry (.live priv)
  | _ => misuse entry

/-- `entry->handler_private = priv`, where `priv` is a new block. -/
def callocPrivate (entry : IfPtr) (priv : Private) : HandlerProg Unit := do
  allocate
  setBlock entry (.live priv)

/-- `free(priv)`, which a null pointer survives. -/
def freePrivate (entry : IfPtr) : HandlerProg Unit := do
  let s ← Prog.get
  match s.priv entry with
  | .unset => pure ()
  | .live _ => setBlock entry .released
  | .released => misuse entry

/-- The exit of a callback that frees the block it has allocated. -/
def errPriv (entry : IfPtr) : Stop → HandlerProg Unit
  | .err _ => freePrivate entry
  | .crash => pure ()

/-! ## Handlers -/

/-- `privateSize` is a zeroed block of that size. -/
structure IfHandler where
  driver : Option CStr := none
  privateSize : Option Private := none
  netlink : Option (IfPtr → Option Attrs → HandlerProg Unit) := none
  scan : Option (IfPtr → HandlerProg Unit) := none
  post : Option (IfPtr → HandlerProg Unit) := none
  cleanup : Option (IfPtr → HandlerProg Unit) := none

def driverMatch (h : IfHandler) (x : IfEntry) : Bool :=
  match h.driver with
  | none => true
  | some driver => x.driver = some driver

def ifHandlerCallback (callback : IfHandler → Option (IfPtr → HandlerProg Unit)) (entry : IfPtr)
    (h : IfHandler) : HandlerProg Unit := do
  let s ← Prog.get
  if driverMatch h (s.world.ifs entry) then
    match callback h with
    | some f => f entry
    | none => pure ()
  else pure ()

def ifHandlerInit (entry : IfPtr) : List IfHandler → HandlerProg Unit
  | [] => pure ()
  | h :: ifHandlers =>
    match h.driver with
    | none => ifHandlerInit entry ifHandlers
    | some hDriver => do
      let s ← Prog.get
      let driver ← Prog.deref (s.world.ifs entry).driver
      if hDriver ≠ driver then ifHandlerInit entry ifHandlers
      else
        match h.privateSize with
        | none => pure ()
        | some zeroed => do
          if ← malloc then setBlock entry (.live zeroed)
          else do
            setBlock entry .unset
            fail ENOMEM

section
variable (ifHandlers : List IfHandler)

def ifHandlerNetlink (entry : IfPtr) (linkinfo : Option Attrs) : HandlerProg Unit :=
  Prog.forEach ifHandlers
    (ifHandlerCallback (fun h => h.netlink.map fun f entry => f entry linkinfo) entry)

def ifHandlerScan (entry : IfPtr) : HandlerProg Unit :=
  Prog.forEach ifHandlers (ifHandlerCallback (·.scan) entry)

def ifHandlerPost : HandlerProg Unit := do
  let s ← Prog.get
  Prog.forEach s.world.nsList fun ns => do
    let s ← Prog.get
    Prog.forEach (s.world.nss ns).ifaces fun entry =>
      Prog.forEach ifHandlers (ifHandlerCallback (·.post) entry)

def ifHandlerCleanup (entry : IfPtr) : HandlerProg Unit := do
  Prog.forEach ifHandlers (ifHandlerCallback (·.cleanup) entry)
  freePrivate entry

end

theorem driverMatch_driver {h : IfHandler} {x : IfEntry} (hmatch : driverMatch h x = true) :
    h.driver = none ∨ h.driver = x.driver := by
  unfold driverMatch at hmatch
  cases hdriver : h.driver with
  | none => exact .inl rfl
  | some driver =>
    simp only [hdriver, decide_eq_true_eq] at hmatch
    exact .inr hmatch.symm

/-! ## Callbacks that return a value -/

def Plenty (s : ScanState) : Prop := ∀ ok ∈ s.mallocs, ok = true

section
variable {s : ScanState}

theorem Plenty.tail (h : Plenty s) : Plenty { s with mallocs := s.mallocs.tail } :=
  fun ok hok => h ok (List.mem_of_mem_tail hok)

theorem malloc_returns (h : Plenty s) :
    Prog.Returns malloc s fun ok s' => ok = true ∧ s' = { s with mallocs := s.mallocs.tail } := by
  unfold Prog.Returns malloc
  cases hmallocs : s.mallocs with
  | nil =>
    refine ⟨true, s, rfl, rfl, ?_⟩
    rw [List.tail_nil, ← hmallocs]
  | cons ok rest =>
    have hok : ok = true := h ok (hmallocs ▸ List.mem_cons_self)
    exact ⟨ok, _, rfl, hok, rfl⟩

theorem allocate_returns (h : Plenty s) :
    Prog.Returns allocate s fun _ s' => s' = { s with mallocs := s.mallocs.tail } := by
  apply Prog.Returns.bind (malloc_returns h)
  rintro _ s' ⟨rfl, rfl⟩
  exact Prog.Returns.pure rfl

theorem onWorld_returns {α : Type} {p : Prog Int World α} {Q : α → World → Prop}
    (h : Prog.Returns p s.world Q) :
    Prog.Returns (onWorld p) s fun a s' => Q a s'.world ∧ s' = { s with world := s'.world } := by
  obtain ⟨a, w, hrun, hQ⟩ := h
  refine ⟨a, { s with world := w }, ?_, hQ, rfl⟩
  unfold onWorld Prog.zoom Prog.mapError
  rw [hrun]
  rfl

theorem onWorld_returnsIff {α : Type} {p : Prog Int World α} {c : Prop} {Q : α → World → Prop}
    (h : Prog.ReturnsIff p s.world c Q) : Prog.ReturnsIff (onWorld p) s c
      fun a s' => Q a s'.world ∧ s' = { s with world := s'.world } := by
  refine ⟨fun hc => onWorld_returns (h.returns hc), fun a s' hrun => ?_⟩
  unfold onWorld Prog.zoom Prog.mapError at hrun
  rcases hp : p s.world with _ | ⟨err | a, w⟩
  · rw [hp] at hrun
    cases hrun
  · rw [hp] at hrun
    cases hrun
  · exact h.needed a w hp

theorem modifyWorld_returns (f : World → World) :
    Prog.Returns (modifyWorld f) s fun _ s' => s' = { s with world := f s.world } :=
  ⟨(), _, rfl, rfl⟩

theorem setBlock_returns (entry : IfPtr) (block : Block) :
    Prog.Returns (setBlock entry block) s fun _ s' =>
      s' = { s with priv := Function.update s.priv entry block } :=
  ⟨(), _, rfl, rfl⟩

theorem derefPrivate_returns {α : Type} {view : Private → Option α} {entry : IfPtr}
    {priv : Private} {a : α} (hlive : s.priv entry = .live priv) (ha : view priv = some a) :
    Prog.Returns (derefPrivate view entry) s fun a' s' => a' = a ∧ s' = s := by
  refine ⟨a, s, ?_, rfl, rfl⟩
  show (match s.priv entry with
    | .live priv => match view priv with
      | some a => pure a
      | none => misuse entry
    | _ => misuse entry : HandlerProg α) s = _
  rw [hlive]
  dsimp only
  rw [ha]
  rfl

theorem writePrivate_returns {entry : IfPtr} {priv priv' : Private}
    (hlive : s.priv entry = .live priv') :
    Prog.Returns (writePrivate entry priv) s fun _ s' =>
      s' = { s with priv := Function.update s.priv entry (.live priv) } := by
  refine ⟨(), _, ?_, rfl⟩
  show (match s.priv entry with
    | .live _ => setBlock entry (.live priv)
    | _ => misuse entry : HandlerProg Unit) s = _
  rw [hlive]
  rfl

theorem withSome_returns {α : Type} {x : Option α} {f : α → HandlerProg Unit}
    {Q : Unit → ScanState → Prop} (hsome : ∀ a, x = some a → Prog.Returns (f a) s Q)
    (hnone : Q () s) : Prog.Returns (withSome x f) s Q := by
  cases x with
  | none => exact Prog.Returns.pure hnone
  | some a => exact hsome a rfl

end

/-! ## What a callback does to one interface -/

structure Owns (entry : IfPtr) (driver : Option CStr) (B : Block → Prop) (s : ScanState) :
    Prop where
  driver : (s.world.ifs entry).driver = driver
  block : B (s.priv entry)
  intact : entry ∉ s.misused

section
variable {e : IfPtr} {d : Option CStr} {B : Block → Prop} {E : Stop → ScanState → Prop}

theorem modifyWorld_owns {f : World → World}
    (hf : ∀ w : World, ((f w).ifs e).driver = (w.ifs e).driver) :
    Prog.Triple (Owns e d B) (modifyWorld f) (fun _ => Owns e d B) E := by
  unfold modifyWorld onWorld
  refine Prog.Triple.zoom fun s hs => Prog.Triple.mapError (Prog.Triple.modify ?_)
  rintro _ rfl
  exact ⟨(hf _).trans hs.driver, hs.block, hs.intact⟩

theorem modifyIf_owns (x : IfPtr) {f : IfEntry → IfEntry} (hf : ∀ y, (f y).driver = y.driver) :
    Prog.Triple (Owns e d B) (modifyWorld (·.modifyIf x f)) (fun _ => Owns e d B) E := by
  refine modifyWorld_owns fun w => ?_
  rw [World.modifyIf_ifs]
  split_ifs
  · exact hf _
  · rfl

theorem frame_owns {f : World → World} (hf : ∀ w : World, w.Frame (f w)) :
    Prog.Triple (Owns e d B) (modifyWorld f) (fun _ => Owns e d B) E :=
  modifyWorld_owns fun w => ((hf w).kept e).driver

theorem addConfig_owns (x : IfPtr) (key value : CStr) :
    Prog.Triple (Owns e d B) (addConfig x key value) (fun _ => Owns e d B) E :=
  modifyIf_owns x fun _ => rfl

theorem onWorld_owns {α : Type} {p : Prog Int World α}
    (hp : Prog.Runs (fun w => (w.ifs e).driver = d) p (fun _ w => (w.ifs e).driver = d)
      fun w => (w.ifs e).driver = d) :
    Prog.Runs (Owns e d B) (onWorld p) (fun _ => Owns e d B) (Owns e d B) := by
  unfold onWorld
  refine Prog.Triple.zoom fun s hs => Prog.Triple.mapError ?_
  rintro _ rfl r w hrun
  have hpost := hp _ hs.driver r w hrun
  cases r with
  | ok a => exact ⟨hpost, hs.block, hs.intact⟩
  | error code => exact ⟨hpost, hs.block, hs.intact⟩

theorem get_owns : Prog.Triple (Owns e d B) (Prog.get : HandlerProg ScanState)
    (fun _ => Owns e d B) E := Prog.Triple.get fun _ => id

theorem withSome_owns {α : Type} {P : ScanState → Prop} {x : Option α}
    {f : α → HandlerProg Unit} (hf : ∀ a, Prog.Triple P (f a) (fun _ => P) E) :
    Prog.Triple P (withSome x f) (fun _ => P) E := by
  cases x with
  | none => exact Prog.Triple.pure fun _ => id
  | some a => exact hf a

theorem malloc_owns : Prog.Triple (Owns e d B) malloc (fun _ => Owns e d B) E := by
  intro s hs r s' hrun
  unfold malloc at hrun
  split at hrun
  · obtain ⟨rfl, rfl⟩ := Prod.mk.inj (Option.some.inj hrun)
    exact hs
  · obtain ⟨rfl, rfl⟩ := Prod.mk.inj (Option.some.inj hrun)
    exact ⟨hs.driver, hs.block, hs.intact⟩

theorem allocate_owns (hE : ∀ s, Owns e d B s → E (.err ENOMEM) s) :
    Prog.Triple (Owns e d B) allocate (fun _ => Owns e d B) E :=
  Prog.Triple.bind malloc_owns fun _ => Prog.Triple.ite
    (fun _ => Prog.Triple.pure fun _ => id) fun _ => Prog.Triple.throw hE

theorem misuse_owns {α : Type} {x : IfPtr} {Q : α → ScanState → Prop} (hx : x ≠ e)
    (hE : ∀ s, Owns e d B s → E .crash s) : Prog.Triple (Owns e d B) (misuse x) Q E := by
  intro s hs r s' hrun
  obtain ⟨rfl, rfl⟩ := Prod.mk.inj (Option.some.inj hrun)
  refine hE _ ⟨hs.driver, hs.block, fun hmem => ?_⟩
  rcases List.mem_cons.mp hmem with rfl | hmem
  · exact hx rfl
  · exact hs.intact hmem

theorem setBlock_owns {B' : Block → Prop} (block : Block) (hblock : B' block) :
    Prog.Triple (Owns e d B) (setBlock e block) (fun _ => Owns e d B') E := by
  refine Prog.Triple.modify fun s hs => ⟨hs.driver, ?_, hs.intact⟩
  simpa only [Function.update_self] using hblock

theorem setBlock_owns_ne {x : IfPtr} (block : Block) (hx : x ≠ e) :
    Prog.Triple (Owns e d B) (setBlock x block) (fun _ => Owns e d B) E := by
  refine Prog.Triple.modify fun s hs => ⟨hs.driver, ?_, hs.intact⟩
  simpa only [Function.update_of_ne hx.symm] using hs.block

theorem derefPrivate_owns {α : Type} {view : Private → Option α} {x : IfPtr}
    (hview : x = e → ∀ b, B b → ∃ priv, b = .live priv ∧ (view priv).isSome)
    (hE : ∀ s, Owns e d B s → E .crash s) :
    Prog.Triple (Owns e d B) (derefPrivate view x) (fun _ => Owns e d B) E := by
  refine Prog.Triple.bind (Q := fun s₀ s => s = s₀ ∧ Owns e d B s)
    (Prog.Triple.get fun s hs => ⟨rfl, hs⟩) fun s₀ => ?_
  by_cases hx : x = e
  · rintro s ⟨rfl, hs⟩
    obtain ⟨priv, hlive, hsome⟩ := hview hx _ hs.block
    obtain ⟨a, ha⟩ := Option.isSome_iff_exists.mp hsome
    subst hx
    simp only [hlive, ha]
    exact Prog.Triple.pure (fun _ => id) s hs
  · have hmisuse : Prog.Triple (Owns e d B) (misuse x : HandlerProg α) (fun _ => Owns e d B) E :=
      misuse_owns hx hE
    rintro s ⟨-, hs⟩
    cases s₀.priv x with
    | unset => exact hmisuse s hs
    | released => exact hmisuse s hs
    | live priv =>
      dsimp only
      cases view priv with
      | none => exact hmisuse s hs
      | some a => exact Prog.Triple.pure (fun _ => id) s hs

theorem writePrivate_owns {x : IfPtr} {priv : Private}
    (hlive : x = e → ∀ b, B b → ∃ priv, b = .live priv) (hpriv : x = e → B (.live priv))
    (hE : ∀ s, Owns e d B s → E .crash s) :
    Prog.Triple (Owns e d B) (writePrivate x priv) (fun _ => Owns e d B) E := by
  refine Prog.Triple.bind (Q := fun s₀ s => s = s₀ ∧ Owns e d B s)
    (Prog.Triple.get fun s hs => ⟨rfl, hs⟩) fun s₀ => ?_
  by_cases hx : x = e
  · rintro s ⟨rfl, hs⟩
    obtain ⟨priv', hpriv'⟩ := hlive hx _ hs.block
    subst hx
    simp only [hpriv']
    exact setBlock_owns _ (hpriv rfl) s hs
  · have hmisuse : Prog.Triple (Owns e d B) (misuse x : HandlerProg Unit) (fun _ => Owns e d B) E :=
      misuse_owns hx hE
    rintro s ⟨-, hs⟩
    cases s₀.priv x with
    | unset => exact hmisuse s hs
    | released => exact hmisuse s hs
    | live _ => exact setBlock_owns_ne _ hx s hs

theorem ifHandlerCallback_owns
    {callback : IfHandler → Option (IfPtr → HandlerProg Unit)} {x : IfPtr} {h : IfHandler}
    (hf : ∀ f, callback h = some f → (x = e → h.driver = none ∨ h.driver = d) →
      Prog.Triple (Owns e d B) (f x) (fun _ => Owns e d B) E) :
    Prog.Triple (Owns e d B) (ifHandlerCallback callback x h) (fun _ => Owns e d B) E := by
  refine Prog.Triple.bind (Q := fun s₀ s => s = s₀ ∧ Owns e d B s)
    (Prog.Triple.get fun s hs => ⟨rfl, hs⟩) fun s₀ => Prog.Triple.ite (fun hmatch => ?_) fun _ =>
    Prog.Triple.pure fun _ => And.right
  rintro s ⟨rfl, hs⟩
  cases hc : callback h with
  | none => exact Prog.Triple.pure (fun _ => id) s hs
  | some f =>
    refine hf f hc (fun hx => ?_) s hs
    subst hx
    rw [← hs.driver]
    exact driverMatch_driver hmatch

end

end Plotnetcfg.Handlers
