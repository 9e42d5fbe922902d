import Plotnetcfg.Core.Match

/-! What a search returns (`match.c`) when its callback is a function of the interface: the best
entry in the heuristic mode, and in the mode `MM_FIRST` the first one, unless an entry of a later
name space gets in its way. -/

namespace Plotnetcfg

def Scores (callback : MatchCallback) (w : World) (score : IfPtr → Int) : Prop :=
  ∀ e, callback e w = some (.ok (score e), w)

/-- The name space list or the single name space to search, after `match_init`. -/
structure MatchDesc.Initialised (desc : MatchDesc) : Prop where
  tally : desc.tally = {}
  ns : desc.netnsList = none → desc.ns.isSome

/-- The entries that the search looks at, for each of its name spaces. -/
def MatchDesc.visitedIn (desc : MatchDesc) (w : World) : List (List IfPtr) :=
  desc.netns.map fun n => desc.entries (w.nss n).ifaces

def MatchDesc.visited (desc : MatchDesc) (w : World) : List IfPtr := (desc.visitedIn w).flatten

def MatchDesc.leaves (desc : MatchDesc) : Bool := desc.mode = .first

def MatchDesc.withTally (desc : MatchDesc) (t : Tally IfPtr) : MatchDesc :=
  { desc with found := t.found, best := t.best, count := t.count }

/-! ## A search is a pass over the scores -/

section
variable {callback : MatchCallback} {w : World} {score : IfPtr → Int}

theorem matchEntries_eq (h : Scores callback w score) (l : List IfPtr) (d : MatchDesc) :
    matchEntries callback l d w =
      some ((Tally.pass d.leaves score d.tally (d.entries l)).map d.withTally, w) := by
  induction l generalizing d with
  | nil => rfl
  | cons entry rest ih =>
    unfold matchEntries
    by_cases hex : d.exclude = some entry
    · have hskip : d.entries (entry :: rest) = d.entries rest := by simp [MatchDesc.entries, hex]
      rw [if_pos hex, hskip, ih]
    · have hkeep : d.entries (entry :: rest) = entry :: d.entries rest := by
        simp [MatchDesc.entries, hex]
      have hbest : d.tally.best = d.best := rfl
      rw [if_neg hex, hkeep, Prog.bind_ok w (h entry), Tally.pass, hbest]
      by_cases hneg : score entry < 0
      · rw [if_pos hneg, if_pos hneg]
        rfl
      rw [if_neg hneg, if_neg hneg]
      by_cases hlt : d.best < score entry
      · have hadd : d.tally.add score entry = ⟨some entry, score entry, 1⟩ := by
          rw [Tally.add, if_pos (hbest ▸ hlt)]
        rw [if_pos hlt, hadd]
        dsimp only
        by_cases hfirst : d.mode = .first
        · have hleaves : d.leaves = true := decide_eq_true hfirst
          rw [if_pos hfirst, if_pos ⟨hleaves, hlt⟩]
          rfl
        · have hleaves : ¬ d.leaves = true := by simp [MatchDesc.leaves, hfirst]
          rw [if_neg hfirst, if_neg fun hand => hleaves hand.1, ih]
          rfl
      · have hnot : ¬ (d.leaves = true ∧ d.best < score entry) := fun hand => hlt hand.2
        rw [if_neg hlt]
        by_cases heq : score entry = d.best
        · have hadd : d.tally.add score entry = { d.tally with count := d.tally.count + 1 } := by
            rw [Tally.add, if_neg (hbest ▸ hlt), if_pos (hbest ▸ heq)]
          rw [if_pos heq, if_neg hnot, hadd, ih]
          rfl
        · have hadd : d.tally.add score entry = d.tally := by
            rw [Tally.add, if_neg (hbest ▸ hlt), if_neg (hbest ▸ heq)]
          rw [if_neg heq, if_neg hnot, hadd, ih]

theorem matchNetns_eq (h : Scores callback w score) (l : List NsPtr) (d : MatchDesc) :
    matchNetns callback l d w =
      some ((Tally.passes d.leaves score d.tally
        (l.map fun n => d.entries (w.nss n).ifaces)).map fun t =>
          { d.withTally t with ns := none }, w) := by
  induction l generalizing d with
  | nil => rfl
  | cons n rest ih =>
    have hfirst : matchIfNs { d with ns := some n } callback w =
        some ((Tally.pass d.leaves score d.tally (d.entries (w.nss n).ifaces)).map
          { d with ns := some n }.withTally, w) := matchEntries_eq h _ _
    unfold matchNetns
    rw [List.map_cons]
    cases hpass : Tally.pass d.leaves score d.tally (d.entries (w.nss n).ifaces) with
    | error e =>
      rw [hpass] at hfirst
      rw [Prog.bind_error w hfirst]
      unfold Tally.passes
      rw [List.foldlM_cons, hpass]
      rfl
    | ok t =>
      rw [hpass] at hfirst
      rw [Prog.bind_ok w hfirst, Tally.passes_cons hpass]
      exact ih _

theorem matchIf_eq (h : Scores callback w score) {desc : MatchDesc} (hdesc : desc.Initialised) :
    ∃ ns, matchIf desc callback w =
      some ((Tally.passes desc.leaves score {} (desc.visitedIn w)).map fun t =>
        { desc.withTally t with ns := ns }, w) := by
  unfold matchIf MatchDesc.visitedIn MatchDesc.netns
  rw [← hdesc.tally]
  cases hlist : desc.netnsList with
  | some l => exact ⟨none, matchNetns_eq h l desc⟩
  | none =>
    obtain ⟨n, hn⟩ := Option.isSome_iff_exists.mp (hdesc.ns hlist)
    refine ⟨some n, ?_⟩
    have hrun : matchIfNs desc callback w =
        some ((Tally.pass desc.leaves score desc.tally (desc.entries (w.nss n).ifaces)).map
          desc.withTally, w) := by
      unfold matchIfNs
      rw [hn]
      exact matchEntries_eq h _ _
    show matchIfNs desc callback w = _
    rw [hrun, hn]
    show _ = some (Except.map _ (Tally.passes desc.leaves score desc.tally
      [desc.entries (w.nss n).ifaces]), w)
    unfold Tally.passes
    rw [List.foldlM_cons]
    cases Tally.pass desc.leaves score desc.tally (desc.entries (w.nss n).ifaces) with
    | error e => rfl
    | ok t =>
      rw [← hn]
      rfl

end

/-! ## What is found weighs something -/

section
variable {callback : MatchCallback} {w : World} {weight : IfPtr → Int} {ok : IfPtr → Prop}

theorem matchEntries_found (h : Weighs callback w weight) (exclude : Option IfPtr)
    (l : List IfPtr) (hok : ∀ x ∈ l, exclude ≠ some x → 0 < weight x → ok x) (d : MatchDesc)
    (hexclude : d.exclude = exclude) (hd : d.Finds ok) :
    Prog.Runs (· = w) (matchEntries callback l d)
      (fun d' w' => (d'.exclude = exclude ∧ d'.Finds ok) ∧ w' = w) fun _ => False := by
  induction l generalizing d with
  | nil => exact Prog.Triple.pure fun _ hw => ⟨⟨hexclude, hd⟩, hw⟩
  | cons entry rest ih =>
    have hrest := ih fun x hx => hok x (List.mem_cons_of_mem entry hx)
    unfold matchEntries
    apply Prog.Triple.ite
    · exact fun _ => hrest d hexclude hd
    intro hentry
    apply Prog.Triple.bind (h.run entry)
    intro res
    apply Prog.Triple.of_and
    rintro rfl
    rw [if_neg (not_lt.mpr (h.nonneg entry))]
    apply Prog.Triple.ite
    · intro hlt
      have hpos : 0 < weight entry := hd.best.trans_lt hlt
      have hnew : ({ d with found := some entry, best := weight entry, count := 1 } :
          MatchDesc).Finds ok := by
        refine ⟨hpos.le, fun x hx => ?_⟩
        obtain rfl := Option.some.inj hx
        exact hok entry List.mem_cons_self (hexclude ▸ hentry) hpos
      apply Prog.Triple.ite
      · exact fun _ => Prog.Triple.pure fun _ hw => ⟨⟨hexclude, hnew⟩, hw⟩
      · exact fun _ => hrest _ hexclude hnew
    · intro _
      apply Prog.Triple.ite
      · exact fun _ => hrest { d with count := d.count + 1 } hexclude ⟨hd.best, hd.found⟩
      · exact fun _ => hrest d hexclude hd

theorem matchNetns_found (h : Weighs callback w weight) (exclude : Option IfPtr)
    (l : List NsPtr)
    (hok : ∀ n ∈ l, ∀ x ∈ (w.nss n).ifaces, exclude ≠ some x → 0 < weight x → ok x)
    (d : MatchDesc) (hexclude : d.exclude = exclude) (hd : d.Finds ok) :
    Prog.Runs (· = w) (matchNetns callback l d)
      (fun d' w' => (d'.exclude = exclude ∧ d'.Finds ok) ∧ w' = w) fun _ => False := by
  induction l generalizing d with
  | nil => exact Prog.Triple.pure fun _ hw => ⟨⟨hexclude, hd.best, hd.found⟩, hw⟩
  | cons n rest ih =>
    have hfirst : Prog.Runs (· = w) (matchIfNs { d with ns := some n } callback)
        (fun d' w' => (d'.exclude = exclude ∧ d'.Finds ok) ∧ w' = w) fun _ => False := by
      rintro _ rfl
      exact matchEntries_found h exclude _ (hok n List.mem_cons_self) { d with ns := some n }
        hexclude ⟨hd.best, hd.found⟩ _ rfl
    apply Prog.Triple.bind hfirst
    intro d'
    apply Prog.Triple.of_and
    rintro ⟨hexclude', hd'⟩
    exact ih (fun m hm => hok m (List.mem_cons_of_mem n hm)) d' hexclude' hd'

/-- In both modes, and also where the callback may fault, the entry that is found is one that the
search looks at, and weighs something. -/
theorem matchIf_found (h : Weighs callback w weight) {desc : MatchDesc}
    (hdesc : desc.Initialised) :
    Prog.Runs (· = w) (matchIf desc callback)
      (fun d w' => (∀ x ∈ matchFound d, x ∈ desc.visited w ∧ 0 < weight x) ∧ w' = w)
      fun _ => False := by
  have hvisited : ∀ n ∈ desc.netns, ∀ x ∈ (w.nss n).ifaces, desc.exclude ≠ some x →
      x ∈ desc.visited w := by
    intro n hn x hx hex
    apply List.mem_flatten.mpr ⟨_, List.mem_map_of_mem hn, ?_⟩
    exact List.mem_filter.mpr ⟨hx, decide_eq_true hex⟩
  have htally : desc.best = 0 ∧ desc.found = none := by
    have ht := hdesc.tally
    exact ⟨congrArg Tally.best ht, congrArg Tally.found ht⟩
  have hd : desc.Finds fun x => x ∈ desc.visited w ∧ 0 < weight x :=
    ⟨htally.1.ge, fun x hx => by simp [htally.2] at hx⟩
  have hsearch : Prog.Runs (· = w) (matchIf desc callback)
      (fun d w' => (d.exclude = desc.exclude ∧
        d.Finds fun x => x ∈ desc.visited w ∧ 0 < weight x) ∧ w' = w) fun _ => False := by
    unfold matchIf
    cases hlist : desc.netnsList with
    | some l =>
      have hnetns : desc.netns = l := by simp [MatchDesc.netns, hlist]
      rw [hnetns] at hvisited
      exact matchNetns_found h _ l (fun n hn x hx hex hpos => ⟨hvisited n hn x hx hex, hpos⟩)
        desc rfl hd
    | none =>
      obtain ⟨n, hn⟩ := Option.isSome_iff_exists.mp (hdesc.ns hlist)
      have hnetns : desc.netns = [n] := by simp [MatchDesc.netns, hlist, hn]
      rw [hnetns] at hvisited
      unfold matchIfNs
      rw [hn]
      rintro _ rfl
      exact matchEntries_found h _ _ (fun x hx hex hpos =>
        ⟨hvisited n (List.mem_singleton_self n) x hx hex, hpos⟩) desc rfl hd _ rfl
  apply hsearch.weaken (fun _ => id)
  rintro d w' ⟨⟨-, hfinds⟩, hw⟩
  refine ⟨fun x hx => ?_, hw⟩
  unfold matchFound at hx
  split_ifs at hx with hpos
  · exact hfinds.found x hx
  · cases hx

end

/-! ## The heuristic mode -/

/-- The search ends with the first negative value. Without one it finds the first of the entries
with the greatest value, if that is positive, and it is ambiguous if several have that value. -/
theorem matchIf_best {callback : MatchCallback} {w : World} {score : IfPtr → Int}
    (h : Scores callback w score) {desc : MatchDesc} (hdesc : desc.Initialised)
    (hmode : desc.mode = .heuristic) :
    (∀ pre e post, desc.visited w = pre ++ e :: post → (∀ x ∈ pre, 0 ≤ score x) → score e < 0 →
      matchIf desc callback w = some (.error (-score e), w)) ∧
    ((∀ x ∈ desc.visited w, 0 ≤ score x) → ∃ d, matchIf desc callback w = some (.ok d, w) ∧
      (matchFound d = none ↔ ∀ x ∈ desc.visited w, score x ≤ 0) ∧
      (∀ e, matchFound d = some e ↔ Tally.FirstBest score (desc.visited w) e) ∧
      (matchAmbiguous d = true ↔ Tally.SeveralBest score (desc.visited w))) := by
  have hleaves : desc.leaves = false := by simp [MatchDesc.leaves, hmode]
  obtain ⟨ns, hrun⟩ := matchIf_eq h hdesc
  have hvisited : (desc.visitedIn w).flatten = desc.visited w := rfl
  rw [hleaves, Tally.passes_flatten, hvisited] at hrun
  constructor
  · intro pre e post hsplit hpre he
    rw [hrun, hsplit, Tally.pass_negative hpre he]
    rfl
  · intro hnonneg
    rw [Tally.pass_nonneg hnonneg] at hrun
    refine ⟨_, hrun, ?_⟩
    rw [matchFound_eq, matchAmbiguous_iff]
    exact ⟨Tally.winner_none, fun e => Tally.winner_eq_some, Tally.tied_iff_severalBest⟩

def threeIfaces : World where
  ifs := fun _ => {}
  nss n := match n with
    | 0 => { ifaces := [1, 2] }
    | _ => { ifaces := [3] }
  nsList := [0, 1]
  free := []

/-- A callback that returns the address, and how a search with it starts. -/
def addressScore (e : IfPtr) : Int := e

theorem addressScore_scores (w : World) : Scores (fun e => pure (addressScore e)) w addressScore :=
  fun _ => rfl

def searchAll (mode : MatchMode) (exclude : Option IfPtr) : MatchDesc :=
  { mode := mode, exclude := exclude, netnsList := some [0, 1] }

theorem searchAll_initialised (mode : MatchMode) (exclude : Option IfPtr) :
    (searchAll mode exclude).Initialised := ⟨rfl, nofun⟩

theorem matchIf_best_threeIfaces : ∃ d,
    matchIf (searchAll .heuristic (some 3)) (fun e => pure (addressScore e)) threeIfaces =
      some (.ok d, threeIfaces) ∧ matchFound d = some 2 := by
  obtain ⟨-, hbest⟩ := matchIf_best (addressScore_scores threeIfaces)
    (searchAll_initialised .heuristic (some 3)) rfl
  obtain ⟨d, hrun, -, hfound, -⟩ := hbest (by decide)
  refine ⟨d, hrun, (hfound 2).mpr ⟨by decide, [1], [], rfl, by decide, nofun⟩⟩

/-! ## The mode `MM_FIRST` -/

/-- A callback that only says yes or no finds the first entry it says yes to, also when `match_if`
goes on. -/
theorem matchIf_find {callback : MatchCallback} {w : World} {score : IfPtr → Int}
    (h : Scores callback w score) (hscore : ∀ e, 0 ≤ score e ∧ score e ≤ 1) {desc : MatchDesc}
    (hdesc : desc.Initialised) (hmode : desc.mode = .first) :
    ∃ d, matchIf desc callback w = some (.ok d, w) ∧
      matchFound d = (desc.visited w).find? (0 < score ·) := by
  have hleaves : desc.leaves = true := by simp [MatchDesc.leaves, hmode]
  obtain ⟨ns, hrun⟩ := matchIf_eq h hdesc
  have hall : ∀ l ∈ desc.visitedIn w, ∀ x ∈ l, 0 ≤ score x ∧ score x ≤ 1 :=
    fun _ _ x _ => hscore x
  obtain ⟨t, hpasses, hfind⟩ := Tally.passes_find hall
  rw [hleaves, hpasses] at hrun
  refine ⟨_, hrun, ?_⟩
  rw [matchFound_eq]
  exact hfind

/-- The search found the first entry with a positive value, or none if there is none, and is not
ambiguous. -/
def TakesFirst (score : IfPtr → Int) (visited : List IfPtr) (d : MatchDesc) : Prop :=
  matchFound d = visited.find? (0 < score ·) ∧ matchAmbiguous d = false

/-- `match_if_ns` returns with the first match, but `match_if` goes on with the next name space.
The first match is what is found, and not ambiguous, exactly when all entries of the name spaces
behind its own have lower values. -/
theorem matchIf_first {callback : MatchCallback} {w : World} {score : IfPtr → Int}
    (h : Scores callback w score) (hnonneg : ∀ e, 0 ≤ score e) {desc : MatchDesc}
    (hdesc : desc.Initialised) (hmode : desc.mode = .first) :
    ∃ d, matchIf desc callback w = some (.ok d, w) ∧
      (TakesFirst score (desc.visited w) d ↔ ∀ e post, Tally.FirstIn score (desc.visitedIn w) e post →
        ∀ later ∈ post, ∀ x ∈ later, score x < score e) := by
  have hleaves : desc.leaves = true := by simp [MatchDesc.leaves, hmode]
  obtain ⟨ns, hrun⟩ := matchIf_eq h hdesc
  have hall : ∀ l ∈ desc.visitedIn w, ∀ x ∈ l, 0 ≤ score x := fun l _ x _ => hnonneg x
  obtain ⟨t, hpasses, hiff⟩ := Tally.passes_first hall
  rw [hleaves, hpasses] at hrun
  refine ⟨_, hrun, ?_⟩
  unfold TakesFirst
  rw [matchFound_eq, ← Bool.not_eq_true, matchAmbiguous_iff]
  exact hiff

theorem matchIf_first_threeIfaces : ∃ d,
    matchIf (searchAll .first (some 3)) (fun e => pure (addressScore e)) threeIfaces =
      some (.ok d, threeIfaces) ∧ TakesFirst addressScore [1, 2] d := by
  have hnonneg : ∀ e, 0 ≤ addressScore e := fun e => Int.natCast_nonneg e
  obtain ⟨d, hrun, hiff⟩ := matchIf_first (addressScore_scores threeIfaces) hnonneg
    (searchAll_initialised .first (some 3)) rfl
  refine ⟨d, hrun, hiff.mpr ?_⟩
  -- nothing is left of the second name space
  rintro e post ⟨-, pre, l, hsplit, -⟩ later hlater x hx
  have hlists : (searchAll .first (some 3)).visitedIn threeIfaces = [[1, 2], []] := by decide
  rw [hlists] at hsplit
  rcases pre with _ | ⟨l', pre⟩
  · obtain ⟨-, rfl⟩ := List.cons.inj hsplit
    obtain rfl := List.mem_singleton.mp hlater
    cases hx
  · have hlength := congrArg List.length hsplit
    have hpos := List.length_pos_of_mem hlater
    simp only [List.length_cons, List.length_nil, List.length_append, List.cons_append] at hlength
    omega

/-- The interface of the second name space replaces the first match. -/
theorem matchIf_first_replaced : ∃ d,
    matchIf (searchAll .first none) (fun e => pure (addressScore e)) threeIfaces =
      some (.ok d, threeIfaces) ∧
    ¬ TakesFirst addressScore ((searchAll .first none).visited threeIfaces) d := by
  have hrun := matchIf_eq (addressScore_scores threeIfaces) (searchAll_initialised .first none)
  obtain ⟨ns, hrun⟩ := hrun
  have hpasses : Tally.passes true addressScore {}
      ((searchAll .first none).visitedIn threeIfaces) = .ok ⟨some 3, 3, 1⟩ := by rfl
  rw [show (searchAll .first none).leaves = true from rfl, hpasses] at hrun
  refine ⟨_, hrun, fun htakes => ?_⟩
  have hfirst : ((searchAll .first none).visited threeIfaces).find? (0 < addressScore ·) = some 1 := by
    decide
  have hfound : some 3 = some 1 := htakes.1.trans hfirst
  exact absurd hfound (by decide)

end Plotnetcfg
