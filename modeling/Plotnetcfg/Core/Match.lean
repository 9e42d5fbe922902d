import Plotnetcfg.Core.Master
import Plotnetcfg.Lib.Prog
import Plotnetcfg.Lib.Tally

/-! The search for an interface by a weight (`match.c`) and by a net name space id. A callback
returns the weight of an entry, and a negative one is an error. -/

namespace Plotnetcfg

inductive MatchMode where
  | heuristic
  | first
deriving DecidableEq

structure MatchDesc where
  mode : MatchMode := .heuristic
  exclude : Option IfPtr := none
  netnsList : Option (List NsPtr) := none
  ns : Option NsPtr := none
  found : Option IfPtr := none
  best : Int := 0
  count : Int := 0

abbrev MatchCallback := IfPtr → Prog Int World Int

def matchEntries (callback : MatchCallback) : List IfPtr → MatchDesc → Prog Int World MatchDesc
  | [], desc => pure desc
  | entry :: rest, desc =>
    if desc.exclude = some entry then matchEntries callback rest desc
    else do
      let res ← callback entry
      if res < 0 then Prog.throw (-res)
      else if desc.best < res then
        let desc := { desc with found := some entry, best := res, count := 1 }
        if desc.mode = .first then pure desc else matchEntries callback rest desc
      else if res = desc.best then
        matchEntries callback rest { desc with count := desc.count + 1 }
      else matchEntries callback rest desc

def matchIfNs (desc : MatchDesc) (callback : MatchCallback) : Prog Int World MatchDesc := do
  let ns ← Prog.deref desc.ns
  let w ← Prog.get
  matchEntries callback (w.nss ns).ifaces desc

def matchNetns (callback : MatchCallback) : List NsPtr → MatchDesc → Prog Int World MatchDesc
  | [], desc => pure { desc with ns := none }
  | ns :: rest, desc => do
    let desc ← matchIfNs { desc with ns := some ns } callback
    matchNetns callback rest desc

def matchIf (desc : MatchDesc) (callback : MatchCallback) : Prog Int World MatchDesc :=
  match desc.netnsList with
  | some netnsList => matchNetns callback netnsList desc
  | none => matchIfNs desc callback

def matchFound (desc : MatchDesc) : Option IfPtr := if 0 < desc.best then desc.found else none

def matchAmbiguous (desc : MatchDesc) : Bool := 0 < desc.best && 1 < desc.count

def matchNetnsid (netnsid : Int) (current : NetnsEntry) : Option NsPtr :=
  (current.ids.find? fun ptr => ptr.id = netnsid).map (·.ns)

def matchIfNetnsid (ifindex : UInt32) (netnsid : Int) (current : NetnsEntry) (w : World) :
    Option IfPtr :=
  match matchNetnsid netnsid current with
  | none => none
  | some ptr => (w.nss ptr).ifaces.find? fun entry => (w.ifs entry).ifIndex = ifindex

def matchNetnsidEntry (ns : NsPtr) (entry : IfPtr) (w : World) : World :=
  let w := if 0 ≤ (w.ifs entry).linkNetnsid then
      if (w.ifs entry).linkIndex ≠ 0 then
        linkSet (matchIfNetnsid (w.ifs entry).linkIndex (w.ifs entry).linkNetnsid (w.nss ns) w)
          (some entry) w
      else w.modifyIf entry fun x => { x with linkNet := matchNetnsid x.linkNetnsid (w.nss ns) }
    else w
  if 0 ≤ (w.ifs entry).peerNetnsid then
    peerSet (some entry)
      (matchIfNetnsid (w.ifs entry).peerIndex (w.ifs entry).peerNetnsid (w.nss ns) w) w
  else w

def matchAllNetnsid (w : World) : World :=
  w.nsList.foldl
    (fun w ns => (w.nss ns).ifaces.foldl (fun w entry => matchNetnsidEntry ns entry w) w) w

/-! ## Rules for the search -/

def MatchDesc.netns (desc : MatchDesc) : List NsPtr := desc.netnsList.getD desc.ns.toList

/-- A later state of the search `desc`, which has found nothing outside `all`. -/
structure MatchDesc.Advances (desc : MatchDesc) (all : IfPtr → Prop) (d : MatchDesc) : Prop where
  mode : d.mode = desc.mode
  exclude : d.exclude = desc.exclude
  found : ∀ e, d.found = some e → all e

section
variable {callback : MatchCallback} {I E : World → Prop} {all : IfPtr → Prop} {desc : MatchDesc}

theorem matchEntries_triple
    (hcb : ∀ e, Prog.Runs I (callback e) (fun res w => (res < 0 → E w) ∧ I w) E)
    (l : List IfPtr) (hl : ∀ e ∈ l, all e) (d : MatchDesc) (hd : desc.Advances all d) :
    Prog.Runs I (matchEntries callback l d) (fun d w => desc.Advances all d ∧ I w) E := by
  induction l generalizing d with
  | nil => exact Prog.Triple.pure fun w hw => ⟨hd, hw⟩
  | cons entry rest ih =>
    have hrest := ih fun e he => hl e (List.mem_cons_of_mem entry he)
    have hnew : ∀ best count, desc.Advances all
        { d with found := some entry, best := best, count := count } := by
      refine fun best count => ⟨hd.mode, hd.exclude, fun e he => ?_⟩
      obtain rfl := Option.some.inj he
      exact hl entry List.mem_cons_self
    have hcount : ∀ count, desc.Advances all { d with count := count } :=
      fun count => ⟨hd.mode, hd.exclude, hd.found⟩
    unfold matchEntries
    refine Prog.Triple.ite (fun _ => hrest d hd) fun _ => ?_
    refine Prog.Triple.bind (hcb entry) fun res => ?_
    refine Prog.Triple.ite (fun hneg => Prog.Triple.throw fun w hw => hw.1 hneg) fun _ => ?_
    refine Prog.Triple.ite (fun _ => ?_) fun _ => Prog.Triple.ite (fun _ => ?_) fun _ => ?_
    · refine Prog.Triple.ite (fun _ => ?_) fun _ => ?_
      · exact Prog.Triple.pure fun w hw => ⟨hnew _ _, hw.2⟩
      · exact (hrest _ (hnew _ _)).weaken (fun w hw => hw.2) fun _ _ => id
    · exact (hrest _ (hcount _)).weaken (fun w hw => hw.2) fun _ _ => id
    · exact (hrest _ hd).weaken (fun w hw => hw.2) fun _ _ => id

theorem matchIfNs_triple
    (hcb : ∀ e, Prog.Runs I (callback e) (fun res w => (res < 0 → E w) ∧ I w) E)
    (d : MatchDesc) (hd : desc.Advances all d)
    (hall : ∀ w, I w → ∀ n ∈ d.ns, ∀ e ∈ (w.nss n).ifaces, all e) :
    Prog.Runs I (matchIfNs d callback) (fun d w => desc.Advances all d ∧ I w) E := by
  unfold matchIfNs
  refine Prog.Triple.bind (Q := fun n w => d.ns = some n ∧ I w)
    (Prog.Triple.deref fun n hn w hw => ⟨hn, hw⟩) fun n => ?_
  refine Prog.Triple.bind (Q := fun w₀ w => (d.ns = some n ∧ I w₀) ∧ I w)
    (Prog.Triple.get fun w hw => ⟨hw, hw.2⟩) fun w₀ => ?_
  intro w hw r w' hrun
  exact matchEntries_triple hcb _ (hall w₀ hw.1.2 n hw.1.1) d hd w hw.2 r w' hrun

theorem matchNetns_triple
    (hcb : ∀ e, Prog.Runs I (callback e) (fun res w => (res < 0 → E w) ∧ I w) E)
    (l : List NsPtr) (hall : ∀ w, I w → ∀ n ∈ l, ∀ e ∈ (w.nss n).ifaces, all e)
    (d : MatchDesc) (hd : desc.Advances all d) :
    Prog.Runs I (matchNetns callback l d) (fun d w => desc.Advances all d ∧ I w) E := by
  induction l generalizing d with
  | nil => exact Prog.Triple.pure fun w hw => ⟨⟨hd.mode, hd.exclude, hd.found⟩, hw⟩
  | cons n rest ih =>
    have hns : ∀ w, I w → ∀ m ∈ some n, ∀ e ∈ (w.nss m).ifaces, all e := by
      rintro w hw m hm
      obtain rfl := Option.some.inj hm
      exact hall w hw n List.mem_cons_self
    have hd' : desc.Advances all { d with ns := some n } := ⟨hd.mode, hd.exclude, hd.found⟩
    have hfirst := matchIfNs_triple hcb { d with ns := some n } hd' hns
    refine Prog.Triple.bind hfirst fun d' w hw => ?_
    exact ih (fun w hw n hn => hall w hw n (List.mem_cons_of_mem _ hn)) d' hw.1 w hw.2

theorem matchIf_triple (all : IfPtr → Prop) (desc : MatchDesc)
    (hcb : ∀ e, Prog.Runs I (callback e) (fun res w => (res < 0 → E w) ∧ I w) E)
    (hall : ∀ w, I w → ∀ n ∈ desc.netns, ∀ e ∈ (w.nss n).ifaces, all e)
    (hfound : ∀ e, desc.found = some e → all e) :
    Prog.Runs I (matchIf desc callback) (fun d w => desc.Advances all d ∧ I w) E := by
  have hd : desc.Advances all desc := ⟨rfl, rfl, hfound⟩
  unfold matchIf
  unfold MatchDesc.netns at hall
  cases hlist : desc.netnsList with
  | some l => exact matchNetns_triple hcb l (by simpa [hlist] using hall) desc hd
  | none => exact matchIfNs_triple hcb desc hd (by simpa [hlist] using hall)

theorem matchFound_mem {d : MatchDesc} (h : desc.Advances all d) {e : IfPtr}
    (he : matchFound d = some e) : all e := by
  unfold matchFound at he
  split_ifs at he
  exact h.found e he

end

/-! ## What was found -/

section
variable {callback : MatchCallback} {I E : World → Prop} {ok : IfPtr → Prop}

structure MatchDesc.Finds (ok : IfPtr → Prop) (d : MatchDesc) : Prop where
  best : 0 ≤ d.best
  found : ∀ e, d.found = some e → ok e

theorem matchEntries_finds (l : List IfPtr)
    (hcb : ∀ e ∈ l, Prog.Runs I (callback e)
      (fun res w => (res < 0 → E w) ∧ (0 < res → ok e) ∧ I w) E)
    (d : MatchDesc) (hd : d.Finds ok) :
    Prog.Runs I (matchEntries callback l d) (fun d w => d.Finds ok ∧ I w) E := by
  induction l generalizing d with
  | nil => exact Prog.Triple.pure fun w hw => ⟨hd, hw⟩
  | cons entry rest ih =>
    have hrest := ih fun e he => hcb e (List.mem_cons_of_mem entry he)
    unfold matchEntries
    apply Prog.Triple.ite
    · exact fun _ => hrest d hd
    · intro _
      apply Prog.Triple.bind (hcb entry List.mem_cons_self)
      intro res
      apply Prog.Triple.ite
      · exact fun hneg => Prog.Triple.throw fun w hw => hw.1 hneg
      · intro _
        apply Prog.Triple.ite
        · intro hlt w hw
          have hpos : 0 < res := hd.best.trans_lt hlt
          have hnew : ({ d with found := some entry, best := res, count := 1 } :
              MatchDesc).Finds ok := by
            refine ⟨hpos.le, fun e he => ?_⟩
            obtain rfl := Option.some.inj he
            exact hw.2.1 hpos
          dsimp only
          split_ifs
          · exact Prog.Triple.pure (P := I) (fun w' hw' => ⟨hnew, hw'⟩) w hw.2.2
          · exact hrest _ hnew w hw.2.2
        · intro _ w hw
          have hcount : ({ d with count := d.count + 1 } : MatchDesc).Finds ok :=
            ⟨hd.best, hd.found⟩
          split_ifs
          · exact hrest _ hcount w hw.2.2
          · exact hrest d hd w hw.2.2

theorem matchNetns_finds (l : List NsPtr)
    (hcb : ∀ w, I w → ∀ n ∈ l, ∀ e ∈ (w.nss n).ifaces, Prog.Runs I (callback e)
      (fun res w => (res < 0 → E w) ∧ (0 < res → ok e) ∧ I w) E)
    (d : MatchDesc) (hd : d.Finds ok) :
    Prog.Runs I (matchNetns callback l d) (fun d w => d.Finds ok ∧ I w) E := by
  induction l generalizing d with
  | nil => exact Prog.Triple.pure fun w hw => ⟨⟨hd.best, hd.found⟩, hw⟩
  | cons n rest ih =>
    have hfirst : Prog.Runs I (matchIfNs { d with ns := some n } callback)
        (fun d w => d.Finds ok ∧ I w) E := by
      intro w hw
      have hentries := hcb w hw n List.mem_cons_self
      exact matchEntries_finds _ hentries { d with ns := some n } ⟨hd.best, hd.found⟩ w hw
    apply Prog.Triple.bind hfirst
    intro d' w hw
    exact ih (fun w hw m hm => hcb w hw m (List.mem_cons_of_mem n hm)) d' hw.1 w hw.2

/-- A search over the name space list finds an entry for which the callback returned a positive
weight, and so one that is `ok`. -/
theorem matchIf_finds (desc : MatchDesc) {l : List NsPtr} (hlist : desc.netnsList = some l)
    (hcb : ∀ w, I w → ∀ n ∈ l, ∀ e ∈ (w.nss n).ifaces, Prog.Runs I (callback e)
      (fun res w => (res < 0 → E w) ∧ (0 < res → ok e) ∧ I w) E)
    (hd : desc.Finds ok) :
    Prog.Runs I (matchIf desc callback) (fun d w => (∀ e, matchFound d = some e → ok e) ∧ I w)
      E := by
  unfold matchIf
  rw [hlist]
  refine (matchNetns_finds l hcb desc hd).weaken (fun _ => id) fun d w hw => ⟨fun e he => ?_, hw.2⟩
  unfold matchFound at he
  split_ifs at he
  exact hw.1.found e he

end

/-! ## What a search finds -/

section
variable {callback : MatchCallback} {w : World} {weight : IfPtr → Int}

/-- In the world `w` the callback gives each entry its weight, if it does not fault. -/
structure Weighs (callback : MatchCallback) (w : World) (weight : IfPtr → Int) : Prop where
  nonneg : ∀ e, 0 ≤ weight e
  run : ∀ e, Prog.Runs (· = w) (callback e) (fun res w' => res = weight e ∧ w' = w) fun _ => False

def MatchDesc.tally (desc : MatchDesc) : Tally IfPtr := ⟨desc.found, desc.best, desc.count⟩

theorem matchFound_eq (desc : MatchDesc) : matchFound desc = desc.tally.winner := rfl

theorem matchAmbiguous_iff (desc : MatchDesc) : matchAmbiguous desc = true ↔ desc.tally.Tied := by
  simp [matchAmbiguous, Tally.Tied, MatchDesc.tally]

def MatchDesc.entries (desc : MatchDesc) (l : List IfPtr) : List IfPtr :=
  l.filter fun e => desc.exclude ≠ some e

/-- A later state of the search `desc`, with the entries of `l` behind it. -/
structure MatchDesc.Tallied (desc : MatchDesc) (weight : IfPtr → Int) (l : List IfPtr)
    (d : MatchDesc) : Prop where
  mode : d.mode = desc.mode
  exclude : d.exclude = desc.exclude
  tally : d.tally = Tally.scan weight desc.tally (desc.entries l)

theorem MatchDesc.Tallied.append {desc d d' : MatchDesc} {l l' : List IfPtr}
    (h : desc.Tallied weight l d) (h' : d.Tallied weight l' d') :
    desc.Tallied weight (l ++ l') d' := by
  refine ⟨h'.mode.trans h.mode, h'.exclude.trans h.exclude, ?_⟩
  rw [h'.tally, h.tally, MatchDesc.entries, MatchDesc.entries, MatchDesc.entries, h.exclude,
    List.filter_append, Tally.scan_append]

/-- Looking at the entries of `all` in turn, the callback gives each its weight; `I` holds of the
entries behind it. -/
structure Visits (callback : MatchCallback) (weight : IfPtr → Int) (I : List IfPtr → World → Prop)
    (all : List IfPtr) : Prop where
  nonneg : ∀ e, 0 ≤ weight e
  run : ∀ pre e post, all = pre ++ e :: post → Prog.Runs (I pre) (callback e)
    (fun res w => res = weight e ∧ I (pre ++ [e]) w) fun _ => False

theorem Weighs.visits (h : Weighs callback w weight) (all : List IfPtr) :
    Visits callback weight (fun _ w' => w' = w) all := ⟨h.nonneg, fun _ e _ _ => h.run e⟩

section
variable {I : List IfPtr → World → Prop} {all : List IfPtr}

theorem matchEntries_visits (h : Visits callback weight I all) (l : List IfPtr) (d : MatchDesc)
    (hmode : d.mode = .heuristic) {pre post : List IfPtr}
    (hsplit : all = pre ++ (d.entries l ++ post)) :
    Prog.Runs (I pre) (matchEntries callback l d)
      (fun d' w' => d.Tallied weight l d' ∧ I (pre ++ d.entries l) w') fun _ => False := by
  induction l generalizing d pre with
  | nil =>
    apply Prog.Triple.pure
    intro w' hw
    refine ⟨⟨rfl, rfl, rfl⟩, ?_⟩
    show I (pre ++ []) w'
    rwa [List.append_nil]
  | cons entry rest ih =>
    unfold matchEntries
    by_cases hex : d.exclude = some entry
    · have hskip : d.entries (entry :: rest) = d.entries rest := by simp [MatchDesc.entries, hex]
      rw [hskip] at hsplit ⊢
      rw [if_pos hex]
      apply (ih d hmode hsplit).weaken (fun _ => id)
      intro d' w' hw
      refine ⟨⟨hw.1.mode, hw.1.exclude, ?_⟩, hw.2⟩
      rw [hskip]
      exact hw.1.tally
    · have hkeep : d.entries (entry :: rest) = entry :: d.entries rest := by
        simp [MatchDesc.entries, hex]
      have htally : Tally.scan weight d.tally (d.entries [entry]) = d.tally.add weight entry := by
        simp [MatchDesc.entries, hex, Tally.scan]
      rw [hkeep] at hsplit ⊢
      rw [if_neg hex]
      -- one entry, and then those behind it
      have hstep : ∀ d₁ : MatchDesc, d.Tallied weight [entry] d₁ →
          Prog.Runs (I (pre ++ [entry])) (matchEntries callback rest d₁)
            (fun d' w' => d.Tallied weight (entry :: rest) d' ∧
              I (pre ++ entry :: d.entries rest) w') fun _ => False := by
        intro d₁ hd₁
        have hentries : d₁.entries rest = d.entries rest := by
          unfold MatchDesc.entries
          rw [hd₁.exclude]
        have hrest : all = pre ++ [entry] ++ (d₁.entries rest ++ post) := by
          rw [hsplit, hentries]
          simp
        apply (ih d₁ (hd₁.mode.trans hmode) hrest).weaken (fun _ => id)
        intro d' w' hw
        refine ⟨hd₁.append hw.1, ?_⟩
        rw [← hentries, List.append_cons]
        exact hw.2
      have hfirst : d.mode ≠ .first := by simp [hmode]
      apply Prog.Triple.bind (h.run pre entry (d.entries rest ++ post) hsplit)
      intro res
      apply Prog.Triple.of_and
      rintro rfl
      rw [if_neg (not_lt.mpr (h.nonneg entry)), if_neg hfirst]
      have hbest : d.tally.best = d.best := rfl
      by_cases hlt : d.best < weight entry
      · rw [if_pos hlt]
        apply hstep
        refine ⟨rfl, rfl, ?_⟩
        rw [htally, Tally.add, if_pos (hbest ▸ hlt)]
        rfl
      · rw [if_neg hlt]
        by_cases heq : weight entry = d.best
        · rw [if_pos heq]
          apply hstep
          refine ⟨rfl, rfl, ?_⟩
          rw [htally, Tally.add, if_neg (hbest ▸ hlt), if_pos (hbest ▸ heq)]
          rfl
        · rw [if_neg heq]
          apply hstep
          refine ⟨rfl, rfl, ?_⟩
          rw [htally, Tally.add, if_neg (hbest ▸ hlt), if_neg (hbest ▸ heq)]

theorem matchNetns_visits (h : Visits callback weight I all) {ifaces : NsPtr → List IfPtr}
    (hifaces : ∀ pre w, I pre w → ∀ n, (w.nss n).ifaces = ifaces n) (l : List NsPtr)
    (d : MatchDesc) (hmode : d.mode = .heuristic) {pre post : List IfPtr}
    (hsplit : all = pre ++ (d.entries (l.flatMap ifaces) ++ post)) :
    Prog.Runs (I pre) (matchNetns callback l d)
      (fun d' w' => d.Tallied weight (l.flatMap ifaces) d' ∧
        I (pre ++ d.entries (l.flatMap ifaces)) w') fun _ => False := by
  induction l generalizing d pre with
  | nil =>
    apply Prog.Triple.pure
    intro w' hw
    refine ⟨⟨rfl, rfl, rfl⟩, ?_⟩
    show I (pre ++ []) w'
    rwa [List.append_nil]
  | cons n rest ih =>
    have hcons : d.entries ((n :: rest).flatMap ifaces) =
        d.entries (ifaces n) ++ d.entries (rest.flatMap ifaces) := by
      simp [MatchDesc.entries]
    rw [hcons, List.append_assoc] at hsplit
    have hfirst : Prog.Runs (I pre) (matchIfNs { d with ns := some n } callback)
        (fun d' w' => d.Tallied weight (ifaces n) d' ∧ I (pre ++ d.entries (ifaces n)) w')
        fun _ => False := by
      intro w hw r w' hrun
      have hrun : matchEntries callback (w.nss n).ifaces { d with ns := some n } w =
          some (r, w') := hrun
      rw [hifaces pre w hw] at hrun
      have hentries := matchEntries_visits h (ifaces n) { d with ns := some n } hmode hsplit
      have hpost := hentries w hw r w' hrun
      cases r with
      | error e => exact hpost
      | ok d' => exact ⟨⟨hpost.1.mode, hpost.1.exclude, hpost.1.tally⟩, hpost.2⟩
    unfold matchNetns
    apply Prog.Triple.bind hfirst
    intro d'
    apply Prog.Triple.of_and
    intro hd'
    have hentries : d'.entries (rest.flatMap ifaces) = d.entries (rest.flatMap ifaces) := by
      unfold MatchDesc.entries
      rw [hd'.exclude]
    rw [← hentries, ← List.append_assoc] at hsplit
    apply (ih d' (hd'.mode.trans hmode) hsplit).weaken (fun _ => id)
    intro d₂ w' hw
    refine ⟨hd'.append hw.1, ?_⟩
    rw [hcons, ← hentries, ← List.append_assoc]
    exact hw.2

theorem matchIf_visits (desc : MatchDesc) {l : List NsPtr} (hlist : desc.netnsList = some l)
    (hmode : desc.mode = .heuristic) {ifaces : NsPtr → List IfPtr}
    (h : Visits callback weight I (desc.entries (l.flatMap ifaces)))
    (hifaces : ∀ pre w, I pre w → ∀ n, (w.nss n).ifaces = ifaces n) :
    Prog.Runs (I []) (matchIf desc callback)
      (fun d w' => desc.Tallied weight (l.flatMap ifaces) d ∧
        I (desc.entries (l.flatMap ifaces)) w') fun _ => False := by
  unfold matchIf
  rw [hlist]
  have hsplit : desc.entries (l.flatMap ifaces) = [] ++ (desc.entries (l.flatMap ifaces) ++ []) := by
    simp
  exact matchNetns_visits h hifaces l desc hmode hsplit

end

theorem matchEntries_tally (h : Weighs callback w weight) (l : List IfPtr) (d : MatchDesc)
    (hmode : d.mode = .heuristic) :
    Prog.Runs (· = w) (matchEntries callback l d) (fun d' w' => d.Tallied weight l d' ∧ w' = w)
      fun _ => False := by
  have hsplit : d.entries l = [] ++ (d.entries l ++ []) := by simp
  exact matchEntries_visits (h.visits (d.entries l)) l d hmode hsplit

theorem matchIf_tally (h : Weighs callback w weight) (desc : MatchDesc) {l : List NsPtr}
    (hlist : desc.netnsList = some l) (hmode : desc.mode = .heuristic) :
    Prog.Runs (· = w) (matchIf desc callback)
      (fun d w' => desc.Tallied weight (l.flatMap fun n => (w.nss n).ifaces) d ∧ w' = w)
      fun _ => False := by
  apply matchIf_visits desc hlist hmode (h.visits _)
  rintro _ _ rfl n
  rfl

end

/-! ## Absence of faults -/

section
variable {callback : MatchCallback} {I : World → Prop} {ok : IfPtr → Prop}
  {ifaces : NsPtr → List IfPtr}

/-- The callback keeps `I` and never returns an error; where `I` holds it is safe for the
entries that are `ok`. -/
structure SafeCallback (callback : MatchCallback) (I : World → Prop) (ok : IfPtr → Prop) :
    Prop where
  keeps : ∀ e, Prog.Runs I (callback e) (fun res w => 0 ≤ res ∧ I w) fun _ => False
  safe : ∀ e w, I w → (Prog.Safe (callback e) w ↔ ok e)

theorem SafeCallback.triple (h : SafeCallback callback I ok) (e : IfPtr) :
    Prog.Runs I (callback e) (fun res w => (res < 0 → False) ∧ I w) fun _ => False :=
  (h.keeps e).weaken (fun _ => id) fun _ _ hw => ⟨fun hneg => by omega, hw.2⟩

theorem safe_matchEntries (h : SafeCallback callback I ok) (l : List IfPtr) (d : MatchDesc)
    (hmode : d.mode = .heuristic) {w : World} (hw : I w) :
    Prog.Safe (matchEntries callback l d) w ↔ ∀ e ∈ l, d.exclude ≠ some e → ok e := by
  induction l generalizing d w with
  | nil => simp [matchEntries, Prog.safe_pure]
  | cons entry rest ih =>
    unfold matchEntries
    split_ifs with hex
    · rw [ih d hmode hw]
      simp [hex]
    · have hstep : ∀ res w', 0 ≤ res ∧ I w' → (Prog.Safe
          (if res < 0 then Prog.throw (-res)
            else if d.best < res then
              if d.mode = .first then
                pure { d with found := some entry, best := res, count := 1 }
              else matchEntries callback rest
                { d with found := some entry, best := res, count := 1 }
            else if res = d.best then
              matchEntries callback rest { d with count := d.count + 1 }
            else matchEntries callback rest d) w' ↔
              ∀ e ∈ rest, d.exclude ≠ some e → ok e) := by
        rintro res w' ⟨hres, hw'⟩
        have hfirst : d.mode ≠ .first := by simp [hmode]
        rw [if_neg (not_lt.mpr hres), if_neg hfirst]
        split_ifs
        · exact ih { d with found := some entry, best := res, count := 1 } hmode hw'
        · exact ih { d with count := d.count + 1 } hmode hw'
        · exact ih d hmode hw'
      rw [Prog.safe_bind_iff (h.keeps entry) hw hstep, h.safe entry w hw, List.forall_mem_cons]
      simp [hex]

theorem safe_matchIfNs (h : SafeCallback callback I ok) {n : NsPtr} (d : MatchDesc)
    (hmode : d.mode = .heuristic) (hns : d.ns = some n) {w : World} (hw : I w) :
    Prog.Safe (matchIfNs d callback) w ↔
      ∀ e ∈ (w.nss n).ifaces, d.exclude ≠ some e → ok e := by
  unfold matchIfNs
  rw [hns]
  exact safe_matchEntries h _ d hmode hw

theorem safe_matchNetns (h : SafeCallback callback I ok)
    (hifaces : ∀ w, I w → ∀ n, (w.nss n).ifaces = ifaces n) (l : List NsPtr) (d : MatchDesc)
    (hmode : d.mode = .heuristic) {w : World} (hw : I w) :
    Prog.Safe (matchNetns callback l d) w ↔
      ∀ n ∈ l, ∀ e ∈ ifaces n, d.exclude ≠ some e → ok e := by
  induction l generalizing d w with
  | nil => simp [matchNetns, Prog.safe_pure]
  | cons n rest ih =>
    have hfirst := safe_matchIfNs h (n := n) { d with ns := some n } hmode rfl hw
    have hd : d.Advances (fun _ => True) { d with ns := some n } :=
      ⟨rfl, rfl, fun _ _ => trivial⟩
    have hstep := matchIfNs_triple h.triple { d with ns := some n } hd fun _ _ _ _ _ _ => trivial
    have hnext : ∀ d' w', d.Advances (fun _ => True) d' ∧ I w' →
        (Prog.Safe (matchNetns callback rest d') w' ↔
          ∀ n ∈ rest, ∀ e ∈ ifaces n, d.exclude ≠ some e → ok e) := by
      rintro d' w' ⟨hd', hw'⟩
      rw [ih d' (hd'.mode.trans hmode) hw', hd'.exclude]
    unfold matchNetns
    rw [Prog.safe_bind_iff hstep hw hnext, hfirst, hifaces w hw, List.forall_mem_cons]

theorem safe_matchIf (h : SafeCallback callback I ok)
    (hifaces : ∀ w, I w → ∀ n, (w.nss n).ifaces = ifaces n) {d : MatchDesc}
    (hmode : d.mode = .heuristic) (hns : d.netnsList = none → d.ns.isSome) {w : World}
    (hw : I w) :
    Prog.Safe (matchIf d callback) w ↔
      ∀ n ∈ d.netns, ∀ e ∈ ifaces n, d.exclude ≠ some e → ok e := by
  unfold matchIf MatchDesc.netns
  cases hlist : d.netnsList with
  | some l => exact safe_matchNetns h hifaces l d hmode hw
  | none =>
    obtain ⟨n, hn⟩ := Option.isSome_iff_exists.mp (hns hlist)
    show Prog.Safe (matchIfNs d callback) w ↔ _
    rw [safe_matchIfNs h d hmode hn hw, hifaces w hw, hn]
    simp

end

end Plotnetcfg
