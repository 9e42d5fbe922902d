import Plotnetcfg.Core.Match

/-! Steps that change no list and no name: the setters, labels and warnings. -/

namespace Plotnetcfg

/-- From `w` to `w'` nothing is listed, and no name changes. -/
structure Named (w w' : World) : Prop where
  frame : w.Frame w'
  nsName : ∀ n, (w'.nss n).name = (w.nss n).name
  internalNs : ∀ x, (w'.ifs x).internalNs = (w.ifs x).internalNs
  internal : ∀ x, (w'.ifs x).flags.internal = (w.ifs x).flags.internal

/-- Besides, no interface gets another master. -/
structure Steady (w w' : World) : Prop extends Named w w' where
  master : ∀ x, (w'.ifs x).master = (w.ifs x).master

/-- Besides, only the interface `e` is enslaved, to `m`. -/
structure Enslaves (w w' : World) (e : IfPtr) (m : Option IfPtr) : Prop extends Named w w' where
  master : ∀ x, (w'.ifs x).master = if x = e then m else (w.ifs x).master

section
variable {w w' w'' : World} {e : IfPtr} {m : Option IfPtr}

theorem Named.refl (w : World) : Named w w := ⟨.refl w, fun _ => rfl, fun _ => rfl, fun _ => rfl⟩

theorem Named.trans (h : Named w w') (h' : Named w' w'') : Named w w'' where
  frame := h.frame.trans h'.frame
  nsName n := (h'.nsName n).trans (h.nsName n)
  internalNs x := (h'.internalNs x).trans (h.internalNs x)
  internal x := (h'.internal x).trans (h.internal x)

theorem Steady.refl (w : World) : Steady w w := ⟨.refl w, fun _ => rfl⟩

theorem Steady.trans (h : Steady w w') (h' : Steady w' w'') : Steady w w'' :=
  ⟨h.toNamed.trans h'.toNamed, fun x => (h'.master x).trans (h.master x)⟩

theorem Enslaves.steady (h : Enslaves w w' e m) (h' : Steady w' w'') : Enslaves w w'' e m :=
  ⟨h.toNamed.trans h'.toNamed, fun x => (h'.master x).trans (h.master x)⟩

theorem Named.ofIfs {w w' : World}
    (hlists : w'.nss = w.nss ∧ w'.nsList = w.nsList ∧ w'.free = w.free)
    (hframe : w.Frame w') (hns : ∀ x, (w'.ifs x).internalNs = (w.ifs x).internalNs)
    (hinternal : ∀ x, (w'.ifs x).flags.internal = (w.ifs x).flags.internal) : Named w w' :=
  ⟨hframe, fun n => by rw [hlists.1], hns, hinternal⟩

theorem masterSet_enslaves (w : World) (master : Option IfPtr) (e : IfPtr) :
    Enslaves w (masterSet master e w) e master := by
  have hifs := fun x => masterSet_ifs w x master e
  refine ⟨.ofIfs (masterSet_lists w master e) (masterSet_frame w master e) (fun x => ?_)
    fun x => ?_, fun x => masterSet_master w x master e⟩
  · obtain ⟨m, rev, h⟩ := hifs x
    rw [h]
  · obtain ⟨m, rev, h⟩ := hifs x
    rw [h]

theorem linkSet_steady (w : World) (link entry : Option IfPtr) :
    Steady w (linkSet link entry w) := by
  have hifs := fun x => linkSet_ifs w x link entry
  refine ⟨.ofIfs (linkSet_lists w link entry) (linkSet_frame w link entry) (fun x => ?_)
    fun x => ?_, fun x => ?_⟩
  · obtain ⟨l, rev, h⟩ := hifs x
    rw [h]
  · obtain ⟨l, rev, h⟩ := hifs x
    rw [h]
  · obtain ⟨l, rev, h⟩ := hifs x
    rw [h]

theorem peerSet_steady (w : World) (first second : Option IfPtr) :
    Steady w (peerSet first second w) := by
  have hifs := fun x => peerSet_ifs w x first second
  refine ⟨.ofIfs (peerSet_lists w first second) (peerSet_frame w first second) (fun x => ?_)
    fun x => ?_, fun x => ?_⟩
  · obtain ⟨p, h⟩ := hifs x
    rw [h]
  · obtain ⟨p, h⟩ := hifs x
    rw [h]
  · obtain ⟨p, h⟩ := hifs x
    rw [h]

/-- What a label on an interface leaves alone. -/
structure Labels (x y : IfEntry) : Prop extends x.Kept y where
  internalNs : y.internalNs = x.internalNs
  internal : y.flags.internal = x.flags.internal
  master : y.master = x.master

theorem Labels.refl (x : IfEntry) : Labels x x := ⟨.refl x, rfl, rfl, rfl⟩

theorem Labels.trans {x y z : IfEntry} (h : Labels x y) (h' : Labels y z) : Labels x z :=
  ⟨h.toKept.trans h'.toKept, h'.internalNs.trans h.internalNs, h'.internal.trans h.internal,
    h'.master.trans h.master⟩

theorem modifyIf_steady (w : World) (e : IfPtr) {f : IfEntry → IfEntry}
    (hf : ∀ x : IfEntry, Labels x (f x)) : Steady w (w.modifyIf e f) := by
  refine ⟨⟨.modifyIf w e fun x => (hf x).toKept, fun _ => rfl, fun x => ?_, fun x => ?_⟩,
    fun x => ?_⟩
  · rw [World.modifyIf_ifs]
    split_ifs
    · exact (hf _).internalNs
    · rfl
  · rw [World.modifyIf_ifs]
    split_ifs
    · exact (hf _).internal
    · rfl
  · rw [World.modifyIf_ifs]
    split_ifs
    · exact (hf _).master
    · rfl

theorem modifyIf_named (w : World) (e : IfPtr) {f : IfEntry → IfEntry}
    (hf : ∀ x : IfEntry, Labels x (f x)) : Named w (w.modifyIf e f) :=
  (modifyIf_steady w e hf).toNamed

theorem labelAdd_steady (w : World) (ns : NsPtr) (text : CStr) :
    Steady w (w.modifyNs ns (·.labelAdd text)) := by
  refine ⟨⟨.modifyNs _ _ (fun _ => rfl) fun _ => rfl, fun n => ?_, fun _ => rfl, fun _ => rfl⟩,
    fun _ => rfl⟩
  rw [World.modifyNs_nss]
  split_ifs <;> rfl

theorem ifAddWarning_steady (w : World) (e : IfPtr) (text : CStr) :
    Steady w (ifAddWarning e text w) := by
  have hcount : Steady w (w.modifyIf e fun x => { x with warnings := x.warnings + 1 }) :=
    modifyIf_steady w e fun _ => ⟨⟨rfl, rfl, rfl, rfl⟩, rfl, rfl, rfl⟩
  exact hcount.trans (labelAdd_steady _ _ _)

end

end Plotnetcfg
