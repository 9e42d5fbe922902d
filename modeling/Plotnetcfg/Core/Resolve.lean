import Plotnetcfg.Core.Search

/-! Resolving the indexes of masters and links to interfaces (`master.c`). A warning is added
without running out of memory. -/

namespace Plotnetcfg

open RevLists (Rel)

def relType : Rel → CStr
  | .master => cstr "master"
  | .link => cstr "link"

def IfEntry.upper : Rel → IfEntry → Option IfPtr
  | .master => IfEntry.master
  | .link => IfEntry.link

def IfEntry.index : Rel → IfEntry → UInt32
  | .master => IfEntry.masterIndex
  | .link => IfEntry.linkIndex

def upperSet : Rel → Option IfPtr → IfPtr → World → World
  | .master => masterSet
  | .link => fun link entry => linkSet link (some entry)

/-- The body that `match_master` and `match_link` have in common. -/
def matchIndex (rel : Rel) (slave : IfPtr) : MatchCallback := fun entry => do
  let w ← Prog.get
  if (w.ifs entry).ifIndex ≠ (w.ifs slave).index rel then pure 0
  else if (w.ifs entry).ns = (w.ifs slave).ns then pure 2
  else pure 1

def matchMaster : IfPtr → MatchCallback := matchIndex .master

def matchLink : IfPtr → MatchCallback := matchIndex .link

def unreliableText (type : CStr) : CStr :=
  cstr "has a " ++ type ++ cstr " but failed to find it reliably"

def notFoundText (type : CStr) : CStr := cstr "has a " ++ type ++ cstr " but failed to find it"

def errMsg (desc : MatchDesc) (type : CStr) (entry : IfPtr) : Prog Int World Unit :=
  if matchAmbiguous desc then Prog.modify (ifAddWarning entry (unreliableText type))
  else if (matchFound desc).isNone then Prog.modify (ifAddWarning entry (notFoundText type))
  else pure ()

/-- One half of `process`. -/
def resolveIndex (rel : Rel) (callback : MatchCallback) (entry : IfPtr) (netnsList : List NsPtr) :
    Prog Int World Unit := do
  let w ← Prog.get
  if ((w.ifs entry).upper rel).isNone ∧ (w.ifs entry).index rel ≠ 0 then do
    let desc ← matchIf { netnsList := some netnsList, exclude := some entry } callback
    errMsg desc (relType rel) entry
    Prog.modify (upperSet rel (matchFound desc) entry)
  else pure ()

def process (entry : IfPtr) (netnsList : List NsPtr) : Prog Int World Unit := do
  resolveIndex .master (matchMaster entry) entry netnsList
  resolveIndex .link (matchLink entry) entry netnsList

def masterResolve : Prog Int World Unit := do
  let w ← Prog.get
  Prog.forEach w.nsList fun ns => do
    let w' ← Prog.get
    Prog.forEach (w'.nss ns).ifaces fun entry => process entry w.nsList

/-! ## What resolving reads -/

/-- `w'` has all that resolving reads of `w` but the masters and links. -/
structure World.Indexed (w w' : World) : Prop where
  frame : w.Frame w'
  ifIndex : ∀ x, (w'.ifs x).ifIndex = (w.ifs x).ifIndex
  index : ∀ rel x, (w'.ifs x).index rel = (w.ifs x).index rel
  name : ∀ n, (w'.nss n).name = (w.nss n).name

namespace World.Indexed

theorem refl (w : World) : w.Indexed w := ⟨.refl w, fun _ => rfl, fun _ _ => rfl, fun _ => rfl⟩

theorem trans {w₁ w₂ w₃ : World} (h : w₁.Indexed w₂) (h' : w₂.Indexed w₃) : w₁.Indexed w₃ where
  frame := h.frame.trans h'.frame
  ifIndex x := (h'.ifIndex x).trans (h.ifIndex x)
  index rel x := (h'.index rel x).trans (h.index rel x)
  name n := (h'.name n).trans (h.name n)

end World.Indexed

theorem index_congr {x y : IfEntry} (hmaster : y.masterIndex = x.masterIndex)
    (hlink : y.linkIndex = x.linkIndex) (rel : Rel) : y.index rel = x.index rel := by
  cases rel
  · exact hmaster
  · exact hlink

theorem ifAddWarning_indexed (e : IfPtr) (text : CStr) (w : World) :
    w.Indexed (ifAddWarning e text w) := by
  refine ⟨ifAddWarning_frame e text w, fun x => ?_, fun rel x => ?_, fun n => ?_⟩
  · rw [ifAddWarning_ifs]
    split_ifs <;> rfl
  · apply index_congr <;> rw [ifAddWarning_ifs] <;> split_ifs <;> rfl
  · unfold ifAddWarning
    rw [World.modifyNs_nss]
    split_ifs <;> rfl

section
variable (w : World) (rel : Rel) (upper : Option IfPtr) (e : IfPtr)

theorem upperSet_indexed : w.Indexed (upperSet rel upper e w) := by
  cases rel with
  | master =>
    have hifs := fun x => masterSet_ifs w x upper e
    refine ⟨masterSet_frame w upper e, fun x => ?_, fun rel x => ?_, fun n => ?_⟩
    · obtain ⟨m, rev, h⟩ := hifs x
      rw [upperSet, h]
    · obtain ⟨m, rev, h⟩ := hifs x
      apply index_congr <;> rw [upperSet, h]
    · rw [upperSet, (masterSet_lists w upper e).1]
  | link =>
    have hifs := fun x => linkSet_ifs w x upper (some e)
    refine ⟨linkSet_frame w upper (some e), fun x => ?_, fun rel x => ?_, fun n => ?_⟩
    · obtain ⟨l, rev, h⟩ := hifs x
      rw [upperSet, h]
    · obtain ⟨l, rev, h⟩ := hifs x
      apply index_congr <;> rw [upperSet, h]
    · rw [upperSet, (linkSet_lists w upper (some e)).1]

theorem upperSet_warnings (x : IfPtr) :
    ((upperSet rel upper e w).ifs x).warnings = (w.ifs x).warnings := by
  cases rel with
  | master =>
    obtain ⟨m, rev, h⟩ := masterSet_ifs w x upper e
    rw [upperSet, h]
  | link =>
    obtain ⟨l, rev, h⟩ := linkSet_ifs w x upper (some e)
    rw [upperSet, h]

theorem upperSet_nss : (upperSet rel upper e w).nss = w.nss := by
  cases rel
  · exact (masterSet_lists w upper e).1
  · exact (linkSet_lists w upper (some e)).1

theorem upperSet_upper (rel' : Rel) (x : IfPtr) :
    ((upperSet rel upper e w).ifs x).upper rel' =
      if rel' = rel ∧ x = e then upper else (w.ifs x).upper rel' := by
  cases rel <;> cases rel'
  · simpa [upperSet, IfEntry.upper] using masterSet_master w x upper e
  · simpa [upperSet, IfEntry.upper] using (masterSet_link w x upper e).1
  · simpa [upperSet, IfEntry.upper] using (linkSet_master w x upper e).1
  · simpa [upperSet, IfEntry.upper] using linkSet_link w x upper e

end

theorem World.Indexed.ifstr {w w' : World} (h : w.Indexed w') (e : IfPtr) :
    ifstr w' e = Plotnetcfg.ifstr w e := by
  unfold Plotnetcfg.ifstr
  dsimp only
  rw [(h.frame.kept e).ns, (h.frame.kept e).ifName, h.name]

/-! ## What an index resolves to -/

namespace World

def indexWeight (w : World) (rel : Rel) (e x : IfPtr) : Int :=
  if (w.ifs x).ifIndex ≠ (w.ifs e).index rel then 0
  else if (w.ifs x).ns = (w.ifs e).ns then 2
  else 1

def indexTally (w : World) (rel : Rel) (e : IfPtr) : Tally IfPtr :=
  Tally.scan (w.indexWeight rel e) {} (w.listed.filter fun x => some e ≠ some x)

def Wants (w : World) (rel : Rel) (e : IfPtr) : Prop :=
  ((w.ifs e).upper rel).isNone ∧ (w.ifs e).index rel ≠ 0

instance (w : World) (rel : Rel) (e : IfPtr) : Decidable (w.Wants rel e) :=
  inferInstanceAs (Decidable (_ ∧ _))

def resolved (w : World) (rel : Rel) (e : IfPtr) : Option IfPtr :=
  if w.Wants rel e then (w.indexTally rel e).winner else (w.ifs e).upper rel

/-- The warnings about the search, as they are listed in the name space. -/
def resolveWarnings (w : World) (rel : Rel) (e : IfPtr) : List CStr :=
  if w.Wants rel e then
    if (w.indexTally rel e).Tied then
      [ifstr w e ++ cstr ": " ++ unreliableText (relType rel)]
    else if (w.indexTally rel e).winner.isNone then
      [ifstr w e ++ cstr ": " ++ notFoundText (relType rel)]
    else []
  else []

end World

theorem matchIndex_weighs (w : World) (rel : Rel) (e : IfPtr) :
    Weighs (matchIndex rel e) w (w.indexWeight rel e) := by
  refine ⟨fun x => ?_, fun x => ?_⟩
  · unfold World.indexWeight
    split_ifs <;> decide
  · refine Prog.Triple.bind (Q := fun w₁ w' => w₁ = w ∧ w' = w)
      (Prog.Triple.get fun w' hw => ⟨hw, hw⟩) fun w₁ => Prog.Triple.of_and ?_
    rintro rfl
    unfold World.indexWeight
    split_ifs <;> exact Prog.Triple.pure fun w' hw => ⟨rfl, hw⟩

theorem World.Indexed.indexTally {w w' : World} (h : w.Indexed w') (rel : Rel) (e : IfPtr) :
    w'.indexTally rel e = w.indexTally rel e := by
  have hweight : w'.indexWeight rel e = w.indexWeight rel e := by
    funext x
    simp only [World.indexWeight, h.ifIndex, h.index, (h.frame.kept _).ns]
  rw [World.indexTally, World.indexTally, hweight, h.frame.listed]

structure ResolveStep (rel : Rel) (e : IfPtr) (found : Option IfPtr) (warnings : List CStr)
    (w w' : World) : Prop where
  indexed : w.Indexed w'
  upper : ∀ rel' x, (w'.ifs x).upper rel' =
    if rel' = rel ∧ x = e then found else (w.ifs x).upper rel'
  listed : ∀ n, (w'.nss n).warnings =
    (w.nss n).warnings ++ if n = (w.ifs e).ns then warnings else []
  counted : ∀ x, (w'.ifs x).warnings =
    (w.ifs x).warnings + if x = e then warnings.length else 0

theorem resolveStep_unused {rel : Rel} {e : IfPtr} (w : World) :
    ResolveStep rel e ((w.ifs e).upper rel) [] w w := by
  refine ⟨.refl w, fun rel' x => ?_, fun n => ?_, fun x => ?_⟩
  · split_ifs with h
    · rw [h.1, h.2]
    · rfl
  · split_ifs <;> simp
  · split_ifs <;> simp

theorem resolveStep_set (rel : Rel) (e : IfPtr) (found : Option IfPtr) (w : World) :
    ResolveStep rel e found [] w (upperSet rel found e w) := by
  refine ⟨upperSet_indexed w rel found e, upperSet_upper w rel found e, fun n => ?_, fun x => ?_⟩
  · rw [upperSet_nss]
    split_ifs <;> simp
  · rw [upperSet_warnings]
    split_ifs <;> simp

theorem resolveStep_warn (rel : Rel) (e : IfPtr) (found : Option IfPtr) (text : CStr)
    (w : World) : ResolveStep rel e found [ifstr w e ++ cstr ": " ++ text] w
      (upperSet rel found e (ifAddWarning e text w)) := by
  have hset := resolveStep_set rel e found (ifAddWarning e text w)
  have hwarn := ifAddWarning_indexed e text w
  refine ⟨hwarn.trans hset.indexed, fun rel' x => ?_, fun n => ?_, fun x => ?_⟩
  · have hupper : ((ifAddWarning e text w).ifs x).upper rel' = (w.ifs x).upper rel' := by
      rw [ifAddWarning_ifs]
      cases rel' <;> split_ifs <;> rfl
    rw [hset.upper, hupper]
  · rw [hset.listed, ifAddWarning, World.modifyNs_nss]
    split_ifs <;> simp_all [NetnsEntry.labelAdd]
  · rw [hset.counted, ifAddWarning_ifs]
    split_ifs <;> rfl

theorem resolveIndex_triple {w₀ w : World} (h : w₀.Indexed w) {rel : Rel} {e : IfPtr}
    (hupper : (w.ifs e).upper rel = (w₀.ifs e).upper rel) :
    Prog.Runs (· = w) (resolveIndex rel (matchIndex rel e) e w₀.nsList)
      (fun _ => ResolveStep rel e (w₀.resolved rel e) (w₀.resolveWarnings rel e) w)
      fun _ => False := by
  have hwants : w.Wants rel e ↔ w₀.Wants rel e := by
    unfold World.Wants
    rw [hupper, h.index]
  unfold resolveIndex World.resolved World.resolveWarnings
  refine Prog.Triple.bind (Q := fun w₁ w' => w₁ = w ∧ w' = w)
    (Prog.Triple.get fun w' hw => ⟨hw, hw⟩) fun w₁ => Prog.Triple.of_and ?_
  rintro rfl
  by_cases hw : ((w₁.ifs e).upper rel).isNone ∧ (w₁.ifs e).index rel ≠ 0
  · rw [if_pos hw, if_pos (hwants.mp hw), if_pos (hwants.mp hw)]
    have hsearch := matchIf_tally (matchIndex_weighs w₁ rel e)
      { netnsList := some w₀.nsList, exclude := some e } rfl rfl
    refine Prog.Triple.bind hsearch fun desc => Prog.Triple.of_and fun hdesc => ?_
    have htally : desc.tally = w₀.indexTally rel e := by
      rw [hdesc.tally, ← h.indexTally, World.indexTally, World.listed, h.frame.nsList]
      rfl
    unfold errMsg
    simp only [matchAmbiguous_iff, matchFound_eq, htally]
    rw [← h.ifstr]
    by_cases htied : (w₀.indexTally rel e).Tied
    · rw [if_pos htied, if_pos htied]
      refine Prog.Triple.bind (Q := fun _ w' => w' = ifAddWarning e (unreliableText (relType rel)) w₁)
        (Prog.Triple.modify fun w' hw' => by rw [hw']) fun _ => Prog.Triple.modify ?_
      rintro _ rfl
      exact resolveStep_warn rel e _ _ w₁
    · rw [if_neg htied, if_neg htied]
      by_cases hnone : (w₀.indexTally rel e).winner.isNone
      · rw [if_pos hnone, if_pos hnone]
        refine Prog.Triple.bind (Q := fun _ w' => w' = ifAddWarning e (notFoundText (relType rel)) w₁)
          (Prog.Triple.modify fun w' hw' => by rw [hw']) fun _ => Prog.Triple.modify ?_
        rintro _ rfl
        exact resolveStep_warn rel e _ _ w₁
      · rw [if_neg hnone, if_neg hnone]
        refine Prog.Triple.bind (Q := fun _ w' => w' = w₁) (Prog.Triple.pure fun _ => id)
          fun _ => Prog.Triple.modify ?_
        rintro _ rfl
        exact resolveStep_set rel e _ _
  · rw [if_neg hw, if_neg (mt hwants.mpr hw), if_neg (mt hwants.mpr hw), ← hupper]
    refine Prog.Triple.pure ?_
    rintro _ rfl
    exact resolveStep_unused _

/-! ## A whole run -/

namespace World

def entryWarnings (w : World) (e : IfPtr) : List CStr :=
  w.resolveWarnings .master e ++ w.resolveWarnings .link e

/-- The interfaces of `done` are resolved, the others are as in `w₀`. -/
structure ResolvedUpTo (w₀ : World) (done : List IfPtr) (w : World) : Prop where
  indexed : w₀.Indexed w
  upper : ∀ rel x, (w.ifs x).upper rel =
    if x ∈ done then w₀.resolved rel x else (w₀.ifs x).upper rel
  listed : ∀ n, (w.nss n).warnings =
    (w₀.nss n).warnings ++ (done.filter fun x => (w₀.ifs x).ns = n).flatMap w₀.entryWarnings
  counted : ∀ x, (w.ifs x).warnings =
    (w₀.ifs x).warnings + if x ∈ done then (w₀.entryWarnings x).length else 0

theorem resolvedUpTo_nil (w : World) : w.ResolvedUpTo [] w :=
  ⟨.refl w, fun _ _ => by simp, fun _ => by simp, fun _ => by simp⟩

end World

section
variable {w₀ : World} {done : List IfPtr} {e : IfPtr}

theorem process_triple (hnew : e ∉ done) :
    Prog.Runs (w₀.ResolvedUpTo done) (process e w₀.nsList) (fun _ => w₀.ResolvedUpTo (done ++ [e]))
      fun _ => False := by
  intro w hw
  have hupper : ∀ rel, (w.ifs e).upper rel = (w₀.ifs e).upper rel := by
    intro rel
    rw [hw.upper, if_neg hnew]
  have hmaster := resolveIndex_triple hw.indexed (hupper .master)
  refine (Prog.Triple.bind hmaster fun _ => ?_) w rfl
  intro w₁ hw₁
  have hupper₁ : (w₁.ifs e).upper .link = (w₀.ifs e).upper .link := by
    rw [hw₁.upper, if_neg (by simp), hupper]
  have hlink := resolveIndex_triple (hw.indexed.trans hw₁.indexed) hupper₁
  refine hlink.weaken (fun _ hw' => hw') (fun _ w₂ hw₂ => ?_) w₁ rfl
  have hns : (w.ifs e).ns = (w₀.ifs e).ns := (hw.indexed.frame.kept e).ns
  have hns₁ : (w₁.ifs e).ns = (w₀.ifs e).ns := (hw₁.indexed.frame.kept e).ns.trans hns
  refine ⟨hw.indexed.trans (hw₁.indexed.trans hw₂.indexed), fun rel x => ?_, fun n => ?_,
    fun x => ?_⟩
  · rw [hw₂.upper, hw₁.upper, hw.upper]
    by_cases hx : x = e
    · subst hx
      cases rel <;> simp [hnew]
    · cases rel <;> simp [hx]
  · rw [hw₂.listed, hw₁.listed, hw.listed, hns, hns₁, List.filter_append, List.flatMap_append]
    by_cases hn : n = (w₀.ifs e).ns
    · subst hn
      simp [World.entryWarnings]
    · simp [hn, Ne.symm hn]
  · rw [hw₂.counted, hw₁.counted, hw.counted]
    by_cases hx : x = e
    · subst hx
      simp [hnew, World.entryWarnings, Nat.add_assoc]
    · simp [hx]

/-- An interface is in one list, that of its name space. -/
structure World.Homed (w : World) : Prop where
  nsNodup : w.nsList.Nodup
  nodup : w.listed.Nodup
  home : ∀ n ∈ w.nsList, ∀ e ∈ (w.nss n).ifaces, (w.ifs e).ns = n

theorem masterResolve_triple {w : World} (hw : w.Homed) :
    Prog.Runs (· = w) masterResolve (fun _ => w.ResolvedUpTo w.listed) fun _ => False := by
  have hnew : ∀ pre n post mid x rest, w.nsList = pre ++ n :: post →
      (w.nss n).ifaces = mid ++ x :: rest →
      x ∉ pre.flatMap (fun n => (w.nss n).ifaces) ++ mid := by
    intro pre n post mid x rest hlist hifaces
    have hsplit : w.listed = (pre.flatMap (fun n => (w.nss n).ifaces) ++ mid) ++
        x :: (rest ++ post.flatMap fun n => (w.nss n).ifaces) := by
      simp [World.listed, hlist, hifaces]
    have hnodup := hw.nodup
    rw [hsplit, List.nodup_append] at hnodup
    exact fun hx => hnodup.2.2 x hx x List.mem_cons_self rfl
  unfold masterResolve
  refine Prog.Triple.bind (Q := fun w₁ w' => w₁ = w ∧ w' = w)
    (Prog.Triple.get fun w' hw => ⟨hw, hw⟩) fun w₁ => Prog.Triple.of_and ?_
  rintro rfl
  -- the name spaces, and inside each its interfaces
  have houter := Prog.Triple.forEachAfter (E := fun (_ : Int) _ => False)
    (I := fun done => w₁.ResolvedUpTo (done.flatMap fun n => (w₁.nss n).ifaces))
    (f := fun ns => do
      let w' ← Prog.get
      Prog.forEach (w'.nss ns).ifaces fun entry => process entry w₁.nsList)
    w₁.nsList [] fun pre n post hlist => by
      refine Prog.Triple.bind (Q := fun w₂ w' => w₁.Indexed w₂ ∧
        w₁.ResolvedUpTo (pre.flatMap fun n => (w₁.nss n).ifaces) w')
        (Prog.Triple.get fun w' hw' => ⟨hw'.indexed, hw'⟩) fun w₂ => Prog.Triple.of_and fun h => ?_
      rw [h.frame.ifaces, List.nil_append, List.flatMap_append, List.flatMap_singleton]
      exact Prog.Triple.forEachAfter (I := w₁.ResolvedUpTo) _ _ fun mid x rest hifaces =>
        process_triple (hnew pre n post mid x rest hlist hifaces)
  refine houter.weaken ?_ fun _ _ => id
  rintro _ rfl
  exact World.resolvedUpTo_nil _

theorem safe_resolveIndex (rel : Rel) (e : IfPtr) (l : List NsPtr) (w : World) :
    Prog.Safe (resolveIndex rel (matchIndex rel e) e l) w := by
  have hscores : Scores (matchIndex rel e) w (w.indexWeight rel e) := by
    intro x
    show (if (w.ifs x).ifIndex ≠ (w.ifs e).index rel then (pure 0 : Prog Int World Int)
      else if (w.ifs x).ns = (w.ifs e).ns then pure 2 else pure 1) w = _
    unfold World.indexWeight
    split_ifs <;> rfl
  have herr : ∀ desc w', Prog.Safe (errMsg desc (relType rel) e) w' := by
    intro desc w'
    unfold errMsg
    split_ifs <;> exact Option.some_ne_none _
  unfold resolveIndex
  rw [Prog.safe_get_bind]
  split_ifs
  · rw [Prog.safe_bind]
    constructor
    · obtain ⟨ns, hrun⟩ := matchIf_eq hscores
        (show MatchDesc.Initialised { netnsList := some l, exclude := some e } from
          ⟨rfl, fun h => absurd h (by simp)⟩)
      rw [Prog.Safe, hrun]
      exact Option.some_ne_none _
    · intro desc w' _
      rw [Prog.safe_bind]
      exact ⟨herr desc w', fun _ _ _ => Option.some_ne_none _⟩
  · exact Option.some_ne_none _

theorem masterResolve_returns {w : World} (hw : w.Homed) :
    Prog.Returns masterResolve w fun _ => w.ResolvedUpTo w.listed := by
  have hprocess : ∀ e l w', Prog.Safe (process e l) w' := by
    intro e l w'
    unfold process
    rw [Prog.safe_bind]
    exact ⟨safe_resolveIndex _ e l w', fun _ _ _ => safe_resolveIndex _ e l _⟩
  have hsafe : Prog.Safe masterResolve w := by
    unfold masterResolve
    rw [Prog.safe_get_bind, Prog.safe_forEach]
    intro _ n _ w₁ _ _
    rw [Prog.safe_get_bind, Prog.safe_forEach]
    exact fun _ e _ w₂ _ _ => hprocess e _ w₂
  exact hsafe.exists_ok (masterResolve_triple hw) rfl

theorem World.Homed.filter_listed {w : World} (hw : w.Homed) {n : NsPtr} (hn : n ∈ w.nsList) :
    (w.listed.filter fun x => (w.ifs x).ns = n) = (w.nss n).ifaces :=
  Keyed.filter_flatMap hw.nsNodup hw.home hn

end

/-! ## Index resolution is exact -/

namespace World

def IndexesUnique (w : World) : Prop :=
  ∀ n ∈ w.nsList, ∀ x ∈ (w.nss n).ifaces, ∀ y ∈ (w.nss n).ifaces,
    (w.ifs x).ifIndex = (w.ifs y).ifIndex → x = y

def candidates (w : World) (rel : Rel) (e : IfPtr) : List IfPtr :=
  w.listed.filter fun x => x ≠ e ∧ (w.ifs x).ifIndex = (w.ifs e).index rel

/-- What `e` ends up with, and the warnings about it. -/
structure Resolution (w : World) (rel : Rel) (e : IfPtr) (found : Option IfPtr)
    (warnings : List CStr) : Prop where
  kept : ¬ w.Wants rel e → found = (w.ifs e).upper rel ∧ warnings = []
  home : w.Wants rel e → ∀ x ∈ w.candidates rel e, (w.ifs x).ns = (w.ifs e).ns →
    found = some x ∧ warnings = []
  single : w.Wants rel e → ∀ x, w.candidates rel e = [x] → found = some x ∧ warnings = []
  missing : w.Wants rel e → w.candidates rel e = [] →
    found = none ∧ warnings = [ifstr w e ++ cstr ": " ++ notFoundText (relType rel)]
  several : w.Wants rel e → 1 < (w.candidates rel e).length →
    (∀ x ∈ w.candidates rel e, (w.ifs x).ns ≠ (w.ifs e).ns) →
      found = (w.candidates rel e).head? ∧
        warnings = [ifstr w e ++ cstr ": " ++ unreliableText (relType rel)]

structure ResolvedTo (w w' : World) (warnings : Rel → IfPtr → List CStr) : Prop where
  outcome : ∀ rel, ∀ e ∈ w.listed,
    w.Resolution rel e ((w'.ifs e).upper rel) (warnings rel e)
  listed : ∀ n ∈ w.nsList, (w'.nss n).warnings = (w.nss n).warnings ++
    (w.nss n).ifaces.flatMap fun e => warnings .master e ++ warnings .link e
  counted : ∀ e ∈ w.listed, (w'.ifs e).warnings =
    (w.ifs e).warnings + (warnings .master e ++ warnings .link e).length

structure Reordered (w v : World) : Prop where
  ifs : v.ifs = w.ifs
  nsList : v.nsList.Perm w.nsList
  ifaces : ∀ n, (v.nss n).ifaces.Perm (w.nss n).ifaces
  rest : ∀ n, { v.nss n with ifaces := [] } = { w.nss n with ifaces := [] }

def BestUnique (w : World) (rel : Rel) (e : IfPtr) : Prop :=
  ∃ x ∈ w.candidates rel e, (w.ifs x).ns = (w.ifs e).ns ∨ w.candidates rel e = [x]

theorem Reordered.listed {w v : World} (h : w.Reordered v) : v.listed.Perm w.listed :=
  h.nsList.flatMap fun n _ => h.ifaces n

section
variable {w : World} {rel : Rel} {e : IfPtr}

theorem mem_candidates {x : IfPtr} : x ∈ w.candidates rel e ↔
    x ∈ w.listed ∧ x ≠ e ∧ (w.ifs x).ifIndex = (w.ifs e).index rel := by
  simp [candidates]

theorem indexWeight_pos {x : IfPtr} :
    0 < w.indexWeight rel e x ↔ (w.ifs x).ifIndex = (w.ifs e).index rel := by
  unfold indexWeight
  split_ifs <;> simp_all

theorem candidates_eq : w.candidates rel e =
    (w.listed.filter fun x => some e ≠ some x).filter fun x => 0 < w.indexWeight rel e x := by
  rw [candidates, List.filter_filter]
  apply List.filter_congr
  intro x _
  simp only [indexWeight_pos, ne_eq, Option.some.injEq, Bool.decide_and, eq_comm (a := e)]
  exact Bool.and_comm _ _

theorem Homed.mem_ifaces (hw : w.Homed) {x : IfPtr} (hx : x ∈ w.listed) :
    (w.ifs x).ns ∈ w.nsList ∧ x ∈ (w.nss (w.ifs x).ns).ifaces := by
  obtain ⟨n, hn, hxn⟩ := mem_listed.mp hx
  rw [hw.home n hn x hxn]
  exact ⟨hn, hxn⟩

/-- A candidate at home is the only one that weighs 2. -/
theorem winner_home (hw : w.Homed) (hindex : w.IndexesUnique) {x : IfPtr}
    (hx : x ∈ w.candidates rel e) (hns : (w.ifs x).ns = (w.ifs e).ns) :
    (w.indexTally rel e).winner = some x ∧ ¬ (w.indexTally rel e).Tied := by
  obtain ⟨hlisted, hne, hix⟩ := mem_candidates.mp hx
  have hweight : w.indexWeight rel e x = 2 := by simp [indexWeight, hix, hns]
  refine Tally.winner_unique (hw.nodup.filter _) (by simp [hlisted, hne.symm])
    (by rw [hweight]; decide) fun y hy hyx => ?_
  have hyl : y ∈ w.listed := (List.mem_filter.mp hy).1
  rw [hweight, indexWeight]
  split_ifs with h1 h2
  · decide
  · obtain ⟨hn, hyn⟩ := hw.mem_ifaces hyl
    have hxn := (hw.mem_ifaces hlisted).2
    rw [hns, ← h2] at hxn
    exact absurd (hindex _ hn y hyn x hxn ((not_not.mp h1).trans hix.symm)) hyx
  · decide

theorem winner_single (hw : w.Homed) {x : IfPtr} (hx : w.candidates rel e = [x]) :
    (w.indexTally rel e).winner = some x ∧ ¬ (w.indexTally rel e).Tied := by
  have hmem : ∀ y, y ∈ (w.listed.filter fun x => some e ≠ some x) →
      0 < w.indexWeight rel e y → y = x := by
    intro y hy hpos
    have hyc : y ∈ w.candidates rel e := by
      rw [candidates_eq]
      exact List.mem_filter.mpr ⟨hy, decide_eq_true hpos⟩
    rwa [hx, List.mem_singleton] at hyc
  have hxc : x ∈ w.candidates rel e := by rw [hx]; exact List.mem_singleton_self x
  rw [candidates_eq] at hxc
  obtain ⟨hxl, hpos⟩ := List.mem_filter.mp hxc
  have hpos := of_decide_eq_true hpos
  refine Tally.winner_unique (hw.nodup.filter _) hxl hpos fun y hy hyx => ?_
  have hzero : ¬ 0 < w.indexWeight rel e y := fun h => hyx (hmem y hy h)
  exact (not_lt.mp hzero).trans_lt hpos

theorem winner_missing (hnone : w.candidates rel e = []) :
    (w.indexTally rel e).winner = none ∧ ¬ (w.indexTally rel e).Tied := by
  have hzero : ∀ x ∈ (w.listed.filter fun x => some e ≠ some x), w.indexWeight rel e x ≤ 0 := by
    intro x hx
    by_contra hpos
    have hxc : x ∈ w.candidates rel e := by
      rw [candidates_eq]
      exact List.mem_filter.mpr ⟨hx, decide_eq_true (not_le.mp hpos)⟩
    rw [hnone] at hxc
    cases hxc
  exact ⟨Tally.winner_none.mpr hzero, Tally.not_tied_of_none hzero⟩

theorem winner_several (hmany : 1 < (w.candidates rel e).length)
    (haway : ∀ x ∈ w.candidates rel e, (w.ifs x).ns ≠ (w.ifs e).ns) :
    (w.indexTally rel e).winner = (w.candidates rel e).head? ∧ (w.indexTally rel e).Tied := by
  obtain ⟨x, hx⟩ := List.exists_mem_of_length_pos (Nat.zero_lt_of_lt hmany)
  have hone : ∀ y ∈ (w.listed.filter fun x => some e ≠ some x),
      (0 < w.indexWeight rel e y ↔ w.indexWeight rel e y = 1) := by
    intro y hy
    constructor
    · intro hpos
      have hyc : y ∈ w.candidates rel e := by
        rw [candidates_eq]
        exact List.mem_filter.mpr ⟨hy, decide_eq_true hpos⟩
      rw [indexWeight, if_neg (not_not.mpr (indexWeight_pos.mp hpos)), if_neg (haway y hyc)]
    · intro h
      rw [h]
      decide
  have hcandidates : w.candidates rel e =
      (w.listed.filter fun x => some e ≠ some x).filter fun x => w.indexWeight rel e x = 1 := by
    rw [candidates_eq]
    apply List.filter_congr
    intro y hy
    rw [decide_eq_decide]
    exact hone y hy
  have hxl := hx
  rw [hcandidates] at hxl
  obtain ⟨hxl, hweight⟩ := List.mem_filter.mp hxl
  have hweight := of_decide_eq_true hweight
  have hpos : 0 < w.indexWeight rel e x := by rw [hweight]; decide
  have hle : ∀ y ∈ (w.listed.filter fun x => some e ≠ some x),
      w.indexWeight rel e y ≤ w.indexWeight rel e x := by
    intro y hy
    by_cases hy0 : 0 < w.indexWeight rel e y
    · rw [(hone y hy).mp hy0, hweight]
    · exact (not_lt.mp hy0).trans hpos.le
  constructor
  · rw [indexTally, Tally.winner_eq_find? hxl hpos hle, hweight, hcandidates, List.head?_filter]
  · rw [indexTally, Tally.tied_iff hxl hpos hle, hweight, List.countP_eq_length_filter,
      ← hcandidates]
    exact hmany

theorem resolution (hw : w.Homed) (hindex : w.IndexesUnique) (rel : Rel) (e : IfPtr) :
    w.Resolution rel e (w.resolved rel e) (w.resolveWarnings rel e) := by
  have hwin : w.Wants rel e → ∀ x, (w.indexTally rel e).winner = some x ∧
      ¬ (w.indexTally rel e).Tied →
      w.resolved rel e = some x ∧ w.resolveWarnings rel e = [] := by
    rintro h x ⟨hx, htied⟩
    rw [resolved, resolveWarnings, if_pos h, if_pos h, if_neg htied, hx]
    exact ⟨rfl, rfl⟩
  constructor
  · intro h
    rw [resolved, resolveWarnings, if_neg h, if_neg h]
    exact ⟨rfl, rfl⟩
  · exact fun h x hx hns => hwin h x (winner_home hw hindex hx hns)
  · exact fun h x hx => hwin h x (winner_single hw hx)
  · intro h hnone
    obtain ⟨hx, htied⟩ := winner_missing hnone
    rw [resolved, resolveWarnings, if_pos h, if_pos h, if_neg htied, hx]
    exact ⟨rfl, rfl⟩
  · intro h hmany haway
    obtain ⟨hx, htied⟩ := winner_several hmany haway
    rw [resolved, resolveWarnings, if_pos h, if_pos h, if_pos htied, hx]
    exact ⟨rfl, rfl⟩

theorem resolvedTo_of_run (hw : w.Homed) (hindex : w.IndexesUnique) {w' : World}
    (hrun : masterResolve w = some (.ok (), w')) : w.ResolvedTo w' w.resolveWarnings := by
  have hdone : w.ResolvedUpTo w.listed w' := masterResolve_triple hw w rfl _ _ hrun
  refine ⟨fun rel e he => ?_, fun n hn => ?_, fun e he => ?_⟩
  · rw [hdone.upper, if_pos he]
    exact resolution hw hindex rel e
  · rw [hdone.listed, hw.filter_listed hn]
    rfl
  · rw [hdone.counted, if_pos he]
    rfl

theorem Reordered.homed {v : World} (h : w.Reordered v) (hw : w.Homed) : v.Homed where
  nsNodup := h.nsList.nodup_iff.mpr hw.nsNodup
  nodup := h.listed.nodup_iff.mpr hw.nodup
  home n hn e he := by
    rw [h.ifs]
    exact hw.home n (h.nsList.mem_iff.mp hn) e ((h.ifaces n).mem_iff.mp he)

theorem Reordered.indexesUnique {v : World} (h : w.Reordered v) (hw : w.IndexesUnique) :
    v.IndexesUnique := by
  intro n hn x hx y hy hxy
  rw [h.ifs] at hxy
  exact hw n (h.nsList.mem_iff.mp hn) x ((h.ifaces n).mem_iff.mp hx) y ((h.ifaces n).mem_iff.mp hy)
    hxy

theorem Reordered.candidates {v : World} (h : w.Reordered v) :
    (v.candidates rel e).Perm (w.candidates rel e) := by
  unfold World.candidates
  rw [h.ifs]
  exact h.listed.filter _

/-- The best candidate is found in any order, and no warning tells of it. -/
theorem Resolution.best {found : Option IfPtr} {warnings : List CStr}
    (h : w.Resolution rel e found warnings) (hwants : w.Wants rel e) {x : IfPtr}
    (hx : x ∈ w.candidates rel e)
    (hbest : (w.ifs x).ns = (w.ifs e).ns ∨ w.candidates rel e = [x]) :
    found = some x ∧ warnings = [] := by
  rcases hbest with hns | hsingle
  · exact h.home hwants x hx hns
  · exact h.single hwants x hsingle

theorem Resolution.reordered {v : World} (h : w.Reordered v) {found found' : Option IfPtr}
    {warnings warnings' : List CStr} (hres : w.Resolution rel e found warnings)
    (hres' : v.Resolution rel e found' warnings') (hbest : w.BestUnique rel e) :
    found' = found ∧ warnings' = warnings := by
  have hwants : v.Wants rel e ↔ w.Wants rel e := by
    unfold World.Wants
    rw [h.ifs]
  by_cases hw : w.Wants rel e
  · obtain ⟨x, hx, hor⟩ := hbest
    have hx' : x ∈ v.candidates rel e := h.candidates.mem_iff.mpr hx
    have hor' : (v.ifs x).ns = (v.ifs e).ns ∨ v.candidates rel e = [x] := by
      rw [h.ifs]
      refine hor.imp_right fun hsingle => ?_
      have hperm : (v.candidates rel e).Perm (w.candidates rel e) := h.candidates
      rw [hsingle] at hperm
      exact List.perm_singleton.mp hperm
    obtain ⟨rfl, rfl⟩ := hres.best hw hx hor
    exact hres'.best (hwants.mpr hw) hx' hor'
  · obtain ⟨rfl, rfl⟩ := hres.kept hw
    obtain ⟨rfl, rfl⟩ := hres'.kept (mt hwants.mp hw)
    rw [h.ifs]
    exact ⟨rfl, rfl⟩

end

end World

/-- Resolving gives every interface the master and the link that its indexes mean, with a warning
where they mean none or several; a unique best candidate does not depend on the order. -/
theorem masterResolve_exact {w w' : World} (hw : w.Homed) (hindex : w.IndexesUnique)
    (hrun : masterResolve w = some (.ok (), w')) :
    ∃ warnings, w.ResolvedTo w' warnings ∧
      ∀ v v', w.Reordered v → masterResolve v = some (.ok (), v') →
        ∃ warnings', v.ResolvedTo v' warnings' ∧ ∀ rel, ∀ e ∈ w.listed, w.BestUnique rel e →
          (v'.ifs e).upper rel = (w'.ifs e).upper rel ∧ warnings' rel e = warnings rel e := by
  have hto := World.resolvedTo_of_run hw hindex hrun
  refine ⟨_, hto, fun v v' h hrun' => ?_⟩
  have hto' := World.resolvedTo_of_run (h.homed hw) (h.indexesUnique hindex) hrun'
  refine ⟨_, hto', fun rel e he hbest => ?_⟩
  have he' : e ∈ v.listed := h.listed.mem_iff.mpr he
  exact (hto.outcome rel e he).reordered h (hto'.outcome rel e he') hbest

def slaveWorld : World where
  ifs x := if x = 0 then { ifIndex := 1, masterIndex := 2 } else { ifIndex := 2 }
  nss _ := { ifaces := [0, 1] }
  nsList := [0]
  free := []

theorem masterResolve_exact_slave : ∃ w', masterResolve slaveWorld = some (.ok (), w') ∧
    ∃ warnings, slaveWorld.ResolvedTo w' warnings := by
  have hindex : slaveWorld.IndexesUnique := by
    unfold World.IndexesUnique
    decide
  obtain ⟨w', hrun⟩ : ∃ w', masterResolve slaveWorld = some (.ok (), w') := ⟨_, rfl⟩
  obtain ⟨warnings, hto, -⟩ :=
    masterResolve_exact ⟨by decide, by decide, by decide⟩ hindex hrun
  exact ⟨w', hrun, warnings, hto⟩

end Plotnetcfg
