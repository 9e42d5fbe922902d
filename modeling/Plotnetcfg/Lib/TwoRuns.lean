import Mathlib.Data.Option.Basic
import Plotnetcfg.Lib.Prog

/-! Two runs from related states. While nothing tells the states apart the runs end alike; what
does tell them apart is still seen in the end. -/

namespace Prog

variable {ε σ α β ι γ : Type} {R : σ → σ → Prop}

/-- Both runs fault, or they have the same outcome in related states. -/
def Ends (R : σ → σ → Prop) : Option (Except ε α × σ) → Option (Except ε α × σ) → Prop :=
  Option.Rel fun x y => x.1 = y.1 ∧ R x.2 y.2

def Alike (R : σ → σ → Prop) (p q : Prog ε σ α) : Prop := ∀ s t, R s t → Ends R (p s) (q t)

section
variable {p q : Prog ε σ α} {s t : σ}

theorem Ends.of_some {r : Except ε α} {s' t' : σ} (h : R s' t') :
    Ends R (some (r, s')) (some (r, t')) := .some ⟨rfl, h⟩

theorem Ends.right {x : Option (Except ε α × σ)} {r : Except ε α} {s' : σ}
    (h : Ends R (some (r, s')) x) : ∃ t', x = some (r, t') ∧ R s' t' := by
  cases h with
  | some h =>
    obtain ⟨rfl, hR⟩ := h
    exact ⟨_, rfl, hR⟩

theorem Ends.eq_none {x : Option (Except ε α × σ)} (h : Ends R none x) : x = none := by
  cases h
  rfl

theorem Ends.left {x : Option (Except ε α × σ)} {r : Except ε α} {t' : σ}
    (h : Ends R x (some (r, t'))) : ∃ s', x = some (r, s') ∧ R s' t' := by
  cases h with
  | some h =>
    obtain ⟨rfl, hR⟩ := h
    exact ⟨_, rfl, hR⟩

theorem Ends.map {τ : Type} {S : τ → τ → Prop} {x y : Option (Except ε α × σ)}
    (h : Ends R x y) {f g : Except ε α × σ → Except ε β × τ}
    (hfg : ∀ a b, a.1 = b.1 ∧ R a.2 b.2 → (f a).1 = (g b).1 ∧ S (f a).2 (g b).2) :
    Ends S (x.map f) (y.map g) := by
  cases h with
  | none => exact .none
  | some h => exact .some (hfg _ _ h)

theorem Ends.bind {f g : α → Prog ε σ β} (hp : Ends R (p s) (q t))
    (hf : ∀ a s' t', p s = some (.ok a, s') → R s' t' → Ends R (f a s') (g a t')) :
    Ends R ((p >>= f) s) ((q >>= g) t) := by
  rcases hps : p s with _ | ⟨e | a, s'⟩
  · rw [hps] at hp
    rw [bind_fault s hps, bind_fault t hp.eq_none]
    exact .none
  · rw [hps] at hp
    obtain ⟨t', hqt, hR⟩ := hp.right
    rw [bind_error s hps, bind_error t hqt]
    exact .of_some hR
  · rw [hps] at hp
    obtain ⟨t', hqt, hR⟩ := hp.right
    rw [bind_ok s hps, bind_ok t hqt]
    exact hf a s' t' hps hR

theorem Ends.run_iff {x y : Option (Except ε α × σ)} (h : Ends R x y) {A B : Except ε α → σ → Prop}
    (hAB : ∀ r s' t', x = some (r, s') → R s' t' → (A r s' ↔ B r t')) :
    (∃ r s', x = some (r, s') ∧ A r s') ↔ ∃ r t', y = some (r, t') ∧ B r t' := by
  constructor
  · rintro ⟨r, s', rfl, hA⟩
    obtain ⟨t', hy, hR⟩ := h.right
    exact ⟨r, t', hy, (hAB r s' t' rfl hR).mp hA⟩
  · rintro ⟨r, t', rfl, hB⟩
    obtain ⟨s', hx, hR⟩ := h.left
    exact ⟨r, s', hx, (hAB r s' t' hx hR).mpr hB⟩

theorem Ends.reached {l : List β} {f g : β → Prog ε σ Unit} {x : β} {s t : σ} (hR : R s t)
    (h : ∀ y s' t', Reached f l s y s' → R s' t' → Ends R (f y s') (g y t')) {A B : σ → Prop}
    (hAB : ∀ s' t', Reached f l s x s' → R s' t' → (A s' ↔ B t')) :
    (∃ s', Reached f l s x s' ∧ A s') ↔ ∃ t', Reached g l t x t' ∧ B t' := by
  induction l generalizing s t with
  | nil =>
    exact iff_of_false (fun ⟨_, hx, _⟩ => not_reached_nil hx) fun ⟨_, hx, _⟩ => not_reached_nil hx
  | cons y l ih =>
    have hfirst := h y s t (reached_cons.mpr (.inl ⟨rfl, rfl⟩)) hR
    have hlater : ∀ s₁ t₁, f y s = some (.ok (), s₁) → R s₁ t₁ →
        ((∃ s', Reached f l s₁ x s' ∧ A s') ↔ ∃ t', Reached g l t₁ x t' ∧ B t') := by
      intro s₁ t₁ hy hR₁
      exact ih hR₁ (fun z s' t' hz => h z s' t' (reached_cons.mpr (.inr ⟨s₁, hy, hz⟩)))
        fun s' t' hx => hAB s' t' (reached_cons.mpr (.inr ⟨s₁, hy, hx⟩))
    constructor
    · rintro ⟨s', hx, hA⟩
      rcases reached_cons.mp hx with ⟨rfl, rfl⟩ | ⟨s₁, hy, hx'⟩
      · exact ⟨t, reached_cons.mpr (.inl ⟨rfl, rfl⟩), (hAB s t hx hR).mp hA⟩
      · rw [hy] at hfirst
        obtain ⟨t₁, hy', hR₁⟩ := hfirst.right
        obtain ⟨t', ht, hB⟩ := (hlater s₁ t₁ hy hR₁).mp ⟨s', hx', hA⟩
        exact ⟨t', reached_cons.mpr (.inr ⟨t₁, hy', ht⟩), hB⟩
    · rintro ⟨t', hx, hB⟩
      rcases reached_cons.mp hx with ⟨rfl, rfl⟩ | ⟨t₁, hy', hx'⟩
      · have hs : Reached f (y :: l) s y s := reached_cons.mpr (.inl ⟨rfl, rfl⟩)
        exact ⟨s, hs, (hAB s t hs hR).mpr hB⟩
      · rw [hy'] at hfirst
        obtain ⟨s₁, hy, hR₁⟩ := hfirst.left
        obtain ⟨s', hs, hA⟩ := (hlater s₁ t₁ hy hR₁).mpr ⟨t', hx', hB⟩
        exact ⟨s', reached_cons.mpr (.inr ⟨s₁, hy, hs⟩), hA⟩

end

namespace Alike
variable {p q : Prog ε σ α}

theorem pure (a : α) : Alike R (pure a : Prog ε σ α) (pure a) := fun _ _ h => .of_some h

theorem throw (e : ε) : Alike R (throw e : Prog ε σ α) (throw e) := fun _ _ h => .of_some h

theorem deref (x : Option α) : Alike R (deref x : Prog ε σ α) (deref x) := by
  cases x with
  | none => exact fun _ _ _ => .none
  | some a => exact pure a

theorem modify {f g : σ → σ} (h : ∀ s t, R s t → R (f s) (g t)) :
    Alike R (modify f : Prog ε σ Unit) (modify g) := fun s t hR => .of_some (h s t hR)

theorem bind {f g : α → Prog ε σ β} (hp : Alike R p q) (hf : ∀ a, Alike R (f a) (g a)) :
    Alike R (p >>= f) (q >>= g) :=
  fun s t hR => (hp s t hR).bind fun a s' t' _ => hf a s' t'

/-- The states themselves may be looked at, by what does not tell them apart. -/
theorem get_bind {f g : σ → Prog ε σ α} (h : ∀ s t, R s t → Alike R (f s) (g t)) :
    Alike R (get >>= f) (get >>= g) := fun s t hR => h s t hR s t hR

theorem deref_bind {x : Option β} {f g : β → Prog ε σ α}
    (h : ∀ a, x = some a → Alike R (f a) (g a)) :
    Alike R (Prog.deref x >>= f) (Prog.deref x >>= g) := by
  cases x with
  | none => exact fun _ _ _ => .none
  | some a => exact fun s t hR => h a rfl s t hR

theorem ite {c d : Prop} [Decidable c] [Decidable d] {p' q' : Prog ε σ α} (hcd : c ↔ d)
    (hp : c → Alike R p q) (hp' : ¬ c → Alike R p' q') :
    Alike R (if c then p else p') (if d then q else q') := by
  by_cases hc : c
  · rw [if_pos hc, if_pos (hcd.mp hc)]
    exact hp hc
  · rw [if_neg hc, if_neg fun hd => hc (hcd.mpr hd)]
    exact hp' hc

theorem attempt (h : Alike R p q) :
    Alike R (Prog.attempt p : Prog ε σ (Except ε α)) (Prog.attempt q) := fun s t hR => by
  refine (h s t hR).map fun x y hxy => ?_
  exact ⟨congrArg Except.ok hxy.1, hxy.2⟩

theorem zoom {τ : Type} {S : τ → τ → Prop} {get : σ → τ} {set : τ → σ → σ} {p q : Prog ε τ α}
    (h : Alike S p q) (hget : ∀ s t, R s t → S (get s) (get t))
    (hset : ∀ s t a b, R s t → S a b → R (set a s) (set b t)) :
    Alike R (Prog.zoom get set p) (Prog.zoom get set q) := by
  intro s t hR
  refine (h _ _ (hget s t hR)).map fun x y hxy => ?_
  exact ⟨hxy.1, hset s t _ _ hR hxy.2⟩

end Alike

/-! ## What tells the states apart -/

def Spares (obs : ι → σ → γ) (I : ι → Prop) (p : Prog ε σ α) : Prop :=
  ∀ s r s', p s = some (r, s') → ∀ i, I i → obs i s' = obs i s

theorem Spares.mono {obs : ι → σ → γ} {I J : ι → Prop} {p : Prog ε σ α} (h : Spares obs J p)
    (hIJ : ∀ i, I i → J i) : Spares obs I p :=
  fun s r s' hrun i hi => h s r s' hrun i (hIJ i hi)

theorem Spares.bind {obs : ι → σ → γ} {I : ι → Prop} {p : Prog ε σ α} {f : α → Prog ε σ β}
    (hp : Spares obs I p) (hf : ∀ a, Spares obs I (f a)) : Spares obs I (p >>= f) := by
  intro s r s' hrun i hi
  rcases hps : p s with _ | ⟨e | a, s₁⟩
  · rw [bind_fault s hps] at hrun
    cases hrun
  · rw [bind_error s hps] at hrun
    obtain ⟨-, rfl⟩ := Prod.mk.inj (Option.some.inj hrun)
    exact hp s _ _ hps i hi
  · rw [bind_ok s hps] at hrun
    exact (hf a s₁ r s' hrun i hi).trans (hp s _ _ hps i hi)

theorem Spares.pure {obs : ι → σ → γ} {I : ι → Prop} (a : α) :
    Spares obs I (pure a : Prog ε σ α) := by
  intro s r s' hrun i _
  obtain ⟨-, rfl⟩ := Prod.mk.inj (Option.some.inj hrun)
  rfl

theorem Spares.throw {obs : ι → σ → γ} {I : ι → Prop} (e : ε) :
    Spares obs I (throw e : Prog ε σ α) := by
  intro s r s' hrun i _
  obtain ⟨-, rfl⟩ := Prod.mk.inj (Option.some.inj hrun)
  rfl

theorem attempt_eq_some {p : Prog ε σ α} {r : Except ε (Except ε α)} {s s' : σ} :
    attempt p s = some (r, s') ↔ ∃ r₁, p s = some (r₁, s') ∧ r = .ok r₁ := by
  unfold attempt
  rw [Option.map_eq_some_iff]
  constructor
  · rintro ⟨⟨r₁, s₁⟩, hp, heq⟩
    obtain ⟨rfl, rfl⟩ := Prod.mk.inj heq
    exact ⟨r₁, hp, rfl⟩
  · rintro ⟨r₁, hp, rfl⟩
    exact ⟨(r₁, s'), hp, rfl⟩

theorem Spares.attempt {obs : ι → σ → γ} {I : ι → Prop} {p : Prog ε σ α} (h : Spares obs I p) :
    Spares obs I (attempt p : Prog ε σ (Except ε α)) := by
  intro s r s' hrun
  obtain ⟨r₁, hp, -⟩ := attempt_eq_some.mp hrun
  exact h s r₁ s' hp

theorem Spares.forEach {obs : ι → σ → γ} {I : ι → Prop} {l : List β} {f : β → Prog ε σ Unit}
    (h : ∀ x ∈ l, Spares obs I (f x)) : Spares obs I (Prog.forEach l f) := by
  intro s r s' hrun i hi
  have hloop : Runs (fun u => obs i u = obs i s) (Prog.forEach l f)
      (fun _ u => obs i u = obs i s) fun u => obs i u = obs i s := by
    apply Triple.forEach
    intro x hx u hu r u' hrun
    have hkeep := (h x hx u r u' hrun i hi).trans hu
    cases r with
    | ok a => exact hkeep
    | error e => exact hkeep
  have hpost := hloop s rfl r s' hrun
  cases r with
  | ok a => exact hpost
  | error e => exact hpost

theorem Spares.after {obs : ι → σ → γ} {I : ι → Prop} {p : Prog ε σ α} {f : α → Prog ε σ β}
    (hf : ∀ a, Spares obs I (f a)) {s t : σ} {r : Except ε β} (hrun : (p >>= f) s = some (r, t)) :
    ∃ r₁ s₁, p s = some (r₁, s₁) ∧ ∀ i, I i → obs i t = obs i s₁ := by
  rcases hps : p s with _ | ⟨e | a, s₁⟩
  · rw [bind_fault s hps] at hrun
    cases hrun
  · rw [bind_error s hps] at hrun
    obtain ⟨-, rfl⟩ := Prod.mk.inj (Option.some.inj hrun)
    exact ⟨_, _, rfl, fun _ _ => rfl⟩
  · rw [bind_ok s hps] at hrun
    exact ⟨_, _, rfl, hf a s₁ r t hrun⟩

theorem Spares.runs {obs : ι → σ → γ} {I : ι → Prop} {p : Prog ε σ α} (h : Spares obs I p) {i : ι}
    (hi : I i) (P : γ → Prop) :
    Runs (fun s => P (obs i s)) p (fun _ s => P (obs i s)) fun s => P (obs i s) := by
  intro s hs r s' hrun
  have hkeep : P (obs i s') := by
    rw [h s r s' hrun i hi]
    exact hs
  cases r with
  | ok a => exact hkeep
  | error e => exact hkeep

/-- Unless it gets to what is `bad`, a run of `p` ends like one of `q` from a related state. If it
does, the states they end in differ at one of `I`. -/
structure Parts (R : σ → σ → Prop) (obs : ι → σ → γ) (I : ι → Prop) (bad : σ → Prop)
    (p q : Prog ε σ α) : Prop where
  alike : ∀ s t, R s t → ¬ bad s → Ends R (p s) (q t)
  apart : ∀ s t, R s t → bad s → ∀ r s' r' t', p s = some (r, s') → q t = some (r', t') →
    ∃ i, I i ∧ obs i s' ≠ obs i t'

namespace Parts
variable {obs : ι → σ → γ} {I J : ι → Prop} {bad bad' : σ → Prop} {p q : Prog ε σ α}

theorem of_alike (h : Alike R p q) : Parts R obs I (fun _ => False) p q :=
  ⟨fun s t hR _ => h s t hR, fun _ _ _ => False.elim⟩

theorem congr (h : Parts R obs I bad p q) (hbad : ∀ s, bad s ↔ bad' s) :
    Parts R obs I bad' p q := by
  obtain rfl : bad = bad' := funext fun s => propext (hbad s)
  exact h

theorem mono (h : Parts R obs I bad p q) (hIJ : ∀ i, I i → J i) : Parts R obs J bad p q := by
  refine ⟨h.alike, fun s t hR hbad r s' r' t' hp hq => ?_⟩
  obtain ⟨i, hi, hne⟩ := h.apart s t hR hbad r s' r' t' hp hq
  exact ⟨i, hIJ i hi, hne⟩

theorem attempt (h : Parts R obs I bad p q) :
    Parts R obs I bad (attempt p : Prog ε σ (Except ε α)) (attempt q) := by
  constructor
  · intro s t hR hgood
    exact (h.alike s t hR hgood).map fun x y hxy => ⟨congrArg Except.ok hxy.1, hxy.2⟩
  · intro s t hR hbad r s' r' t' hrun hrun'
    obtain ⟨r₁, hp, -⟩ := attempt_eq_some.mp hrun
    obtain ⟨r₂, hq, -⟩ := attempt_eq_some.mp hrun'
    exact h.apart s t hR hbad r₁ s' r₂ t' hp hq

/-- What follows a program leaves alone what the program has told apart. -/
theorem bind {f g : α → Prog ε σ β} {next : α → σ → Prop} (hp : Parts R obs I bad p q)
    (hf : ∀ a, Parts R obs J (next a) (f a) (g a)) (hspare : ∀ a, Spares obs I (f a))
    (hspare' : ∀ a, Spares obs I (g a)) :
    Parts R obs (fun i => I i ∨ J i)
      (fun s => bad s ∨ ∃ a s', p s = some (.ok a, s') ∧ next a s') (p >>= f) (q >>= g) := by
  constructor
  · intro s t hR hgood
    rw [not_or, not_exists] at hgood
    obtain ⟨hgood, hnext⟩ := hgood
    apply (hp.alike s t hR hgood).bind
    intro a s' t' hps hR'
    exact (hf a).alike s' t' hR' fun hbad => hnext a ⟨s', hps, hbad⟩
  · intro s t hR hbad r s' r' t' hrun hrun'
    by_cases hfirst : bad s
    · -- the runs differ after the first programs
      obtain ⟨r₁, s₁, hps, hs⟩ := Spares.after hspare hrun
      obtain ⟨r₂, t₁, hqt, ht⟩ := Spares.after hspare' hrun'
      obtain ⟨i, hi, hne⟩ := hp.apart s t hR hfirst _ _ _ _ hps hqt
      exact ⟨i, .inl hi, by rwa [hs i hi, ht i hi]⟩
    · obtain ⟨a, s₁, hps, hnext⟩ := hbad.resolve_left hfirst
      have hends := hp.alike s t hR hfirst
      rw [hps] at hends
      obtain ⟨t₁, hqt, hR₁⟩ := hends.right
      rw [bind_ok s hps] at hrun
      rw [bind_ok t hqt] at hrun'
      obtain ⟨i, hi, hne⟩ := (hf a).apart s₁ t₁ hR₁ hnext _ _ _ _ hrun hrun'
      exact ⟨i, .inr hi, hne⟩

theorem forEach {l : List β} {I : β → ι → Prop} {bad : β → σ → Prop} {f g : β → Prog ε σ Unit}
    (h : ∀ x ∈ l, Parts R obs (I x) (bad x) (f x) (g x))
    (hspare : l.Pairwise fun x y => Spares obs (I x) (f y) ∧ Spares obs (I x) (g y)) :
    Parts R obs (fun i => ∃ x ∈ l, I x i)
      (fun s => ∃ pre x post s', l = pre ++ x :: post ∧
        Prog.forEach pre f s = some (.ok (), s') ∧ bad x s')
      (Prog.forEach l f) (Prog.forEach l g) := by
  induction l with
  | nil =>
    apply (of_alike (Alike.pure ())).congr
    intro s
    refine iff_of_false id ?_
    rintro ⟨pre, x, post, -, hsplit, -⟩
    exact List.append_ne_nil_of_right_ne_nil _ (List.cons_ne_nil _ _) hsplit.symm
  | cons y ys ih =>
    obtain ⟨hfirst, hrest⟩ := List.pairwise_cons.mp hspare
    have htail := ih (fun x hx => h x (List.mem_cons_of_mem y hx)) hrest
    have hcons := (h y List.mem_cons_self).bind (fun _ => htail)
      (fun _ => Spares.forEach fun x hx => (hfirst x hx).1)
      fun _ => Spares.forEach fun x hx => (hfirst x hx).2
    have hmono := hcons.mono (J := fun i => ∃ x ∈ y :: ys, I x i) (by
      rintro i (hi | ⟨x, hx, hi⟩)
      · exact ⟨y, List.mem_cons_self, hi⟩
      · exact ⟨x, List.mem_cons_of_mem y hx, hi⟩)
    apply hmono.congr
    intro s
    constructor
    · rintro (hbad | ⟨u, s₁, hy, pre, x, post, s', rfl, hpre, hbad⟩)
      · exact ⟨[], y, ys, s, rfl, rfl, hbad⟩
      · refine ⟨y :: pre, x, post, s', rfl, ?_, hbad⟩
        rw [forEach_cons, bind_ok s hy]
        exact hpre
    · rintro ⟨pre, x, post, s', hsplit, hpre, hbad⟩
      cases pre with
      | nil =>
        obtain ⟨rfl, -⟩ : y = x ∧ ys = post := by simpa using hsplit
        obtain rfl : s = s' := by simpa [Prog.forEach, Prog.pure] using hpre
        exact .inl hbad
      | cons z pre =>
        obtain ⟨rfl, htail⟩ : y = z ∧ ys = pre ++ x :: post := by simpa using hsplit
        rw [forEach_cons] at hpre
        obtain ⟨u, s₁, hy, hpre⟩ := (bind_eq_ok s).mp hpre
        exact .inr ⟨u, s₁, hy, pre, x, post, s', htail, hpre, hbad⟩

end Parts

end Prog
