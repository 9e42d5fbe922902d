import Mathlib.Logic.Basic
import Mathlib.Data.List.Basic

/-! Programs over a state that return a value, return an error, or fault. An error keeps the
state reached so far; a fault (a null pointer is followed) leaves nothing. -/

def Prog (ε σ α : Type) : Type := σ → Option (Except ε α × σ)

namespace Prog

variable {ε σ α β : Type}

protected def pure (a : α) : Prog ε σ α := fun s => some (.ok a, s)

protected def bind (p : Prog ε σ α) (f : α → Prog ε σ β) : Prog ε σ β := fun s =>
  match p s with
  | none => none
  | some (.error e, s') => some (.error e, s')
  | some (.ok a, s') => f a s'

instance : Monad (Prog ε σ) where
  pure := Prog.pure
  bind := Prog.bind

def throw (e : ε) : Prog ε σ α := fun s => some (.error e, s)

def fault : Prog ε σ α := fun _ => none

def get : Prog ε σ σ := fun s => some (.ok s, s)

def modify (f : σ → σ) : Prog ε σ Unit := fun s => some (.ok (), f s)

/-- Following a pointer that may be null. -/
def deref (x : Option α) : Prog ε σ α :=
  match x with
  | none => fault
  | some a => Prog.pure a

def forEach : List α → (α → Prog ε σ Unit) → Prog ε σ Unit
  | [], _ => Prog.pure ()
  | x :: xs, f => Prog.bind (f x) fun _ => forEach xs f

def foldM (f : β → α → Prog ε σ β) : List α → β → Prog ε σ β
  | [], b => Prog.pure b
  | x :: xs, b => Prog.bind (f b x) (foldM f xs)

/-- The outcome of a program as a value, errors included. -/
def attempt (p : Prog ε σ α) : Prog ε σ (Except ε α) := fun s =>
  (p s).map fun (r, s') => (.ok r, s')

def zoom {τ : Type} (get : σ → τ) (set : τ → σ → σ) (p : Prog ε τ α) : Prog ε σ α := fun s =>
  (p (get s)).map fun (r, t) => (r, set t s)

def onError (p : Prog ε σ α) (cleanup : ε → Prog ε σ Unit) : Prog ε σ α := fun s =>
  match p s with
  | some (.error e, s') => (cleanup e >>= fun _ => throw e) s'
  | r => r

def mapError {ε' : Type} (f : ε → ε') (p : Prog ε σ α) : Prog ε' σ α := fun s =>
  (p s).map fun (r, s') => (r.mapError f, s')

section
variable (s : σ)

@[simp] theorem pure_apply (a : α) : (pure a : Prog ε σ α) s = some (.ok a, s) := rfl

@[simp] theorem throw_apply (e : ε) : (throw e : Prog ε σ α) s = some (.error e, s) := rfl

@[simp] theorem fault_apply : (fault : Prog ε σ α) s = none := rfl

@[simp] theorem get_apply : (get : Prog ε σ σ) s = some (.ok s, s) := rfl

@[simp] theorem modify_apply (f : σ → σ) : (modify f : Prog ε σ Unit) s = some (.ok (), f s) := rfl

theorem bind_ok {p : Prog ε σ α} {a : α} {s' : σ} (h : p s = some (.ok a, s'))
    (f : α → Prog ε σ β) : (p >>= f) s = f a s' := by
  simp only [Bind.bind, Prog.bind, h]

theorem bind_error {p : Prog ε σ α} {e : ε} {s' : σ} (h : p s = some (.error e, s'))
    (f : α → Prog ε σ β) : (p >>= f) s = some (.error e, s') := by
  simp only [Bind.bind, Prog.bind, h]

theorem bind_fault {p : Prog ε σ α} (h : p s = none) (f : α → Prog ε σ β) :
    (p >>= f) s = none := by
  simp only [Bind.bind, Prog.bind, h]

/-- Programs that end alike from two states may be followed by the same program. -/
theorem bind_congr_run {p q : Prog ε σ α} {t : σ} (h : p s = q t) (f : α → Prog ε σ β) :
    (p >>= f) s = (q >>= f) t := by
  simp only [Bind.bind, Prog.bind, h]

theorem bind_eq_ok {p : Prog ε σ α} {f : α → Prog ε σ β} {b : β} {t : σ} :
    (p >>= f) s = some (.ok b, t) ↔
      ∃ a s', p s = some (.ok a, s') ∧ f a s' = some (.ok b, t) := by
  constructor
  · intro h
    rcases hp : p s with _ | ⟨e | a, s'⟩
    · rw [bind_fault s hp] at h
      cases h
    · rw [bind_error s hp] at h
      cases h
    · rw [bind_ok s hp] at h
      exact ⟨a, s', rfl, h⟩
  · rintro ⟨a, s', hp, hf⟩
    rw [bind_ok s hp, hf]

theorem forEach_cons (x : α) (xs : List α) (f : α → Prog ε σ Unit) :
    forEach (x :: xs) f = f x >>= fun _ => forEach xs f := rfl

protected theorem bind_assoc {γ : Type} (p : Prog ε σ α) (f : α → Prog ε σ β)
    (g : β → Prog ε σ γ) : (p >>= f) >>= g = p >>= fun a => f a >>= g := by
  funext s
  rcases hp : p s with _ | ⟨e | a, s'⟩
  · rw [bind_fault s (bind_fault s hp f), bind_fault s hp]
  · rw [bind_error s (bind_error s hp f), bind_error s hp]
  · have hpf : (p >>= f) s = f a s' := bind_ok s hp f
    rw [bind_ok s hp]
    simp only [Bind.bind, Prog.bind] at hpf ⊢
    rw [hpf]

theorem forEach_append (xs ys : List α) (f : α → Prog ε σ Unit) :
    forEach (xs ++ ys) f = forEach xs f >>= fun _ => forEach ys f := by
  induction xs with
  | nil => rfl
  | cons x xs ih =>
    rw [List.cons_append, forEach_cons, forEach_cons, ih, Prog.bind_assoc]

theorem forEach_singleton (x : α) (f : α → Prog ε σ Unit) : forEach [x] f = f x := by
  funext s
  rcases hx : f x s with _ | ⟨e | a, s'⟩
  · exact bind_fault s hx _
  · exact bind_error s hx _
  · exact bind_ok s hx _

theorem forEach_concat_eq_ok {xs : List α} {x : α} {f : α → Prog ε σ Unit} {t : σ} :
    forEach (xs ++ [x]) f s = some (.ok (), t) ↔
      ∃ s', forEach xs f s = some (.ok (), s') ∧ f x s' = some (.ok (), t) := by
  rw [forEach_append, bind_eq_ok, forEach_singleton]
  constructor
  · rintro ⟨_, s', hxs, hx⟩
    exact ⟨s', hxs, hx⟩
  · rintro ⟨s', hxs, hx⟩
    exact ⟨(), s', hxs, hx⟩

end

/-! ## Partial correctness -/

/-- From a state with `P` the program ends, if it does not fault, with a value and a state
that `Q` relates or with an error and a state that `E` relates. -/
def Triple (P : σ → Prop) (p : Prog ε σ α) (Q : α → σ → Prop) (E : ε → σ → Prop) : Prop :=
  ∀ s, P s → ∀ r s', p s = some (r, s') →
    match r with
    | .ok a => Q a s'
    | .error e => E e s'

abbrev Runs (P : σ → Prop) (p : Prog ε σ α) (Q : α → σ → Prop) (E : σ → Prop) : Prop :=
  Triple P p Q fun _ => E

namespace Triple
variable {P P' : σ → Prop} {Q Q' : α → σ → Prop} {R : β → σ → Prop} {E E' : ε → σ → Prop}

theorem pure {a : α} (h : ∀ s, P s → Q a s) : Triple P (pure a : Prog ε σ α) Q E := by
  intro s hs r s' hrun
  obtain ⟨rfl, rfl⟩ := Prod.mk.inj (Option.some.inj hrun)
  exact h s hs

theorem throw {e : ε} (h : ∀ s, P s → E e s) : Triple P (throw e : Prog ε σ α) Q E := by
  intro s hs r s' hrun
  obtain ⟨rfl, rfl⟩ := Prod.mk.inj (Option.some.inj hrun)
  exact h s hs

theorem get {Q : σ → σ → Prop} (h : ∀ s, P s → Q s s) :
    Triple P (Prog.get : Prog ε σ σ) Q E := by
  intro s hs r s' hrun
  obtain ⟨rfl, rfl⟩ := Prod.mk.inj (Option.some.inj hrun)
  exact h s hs

theorem modify {f : σ → σ} {Q : Unit → σ → Prop} (h : ∀ s, P s → Q () (f s)) :
    Triple P (Prog.modify f : Prog ε σ Unit) Q E := by
  intro s hs r s' hrun
  obtain ⟨rfl, rfl⟩ := Prod.mk.inj (Option.some.inj hrun)
  exact h s hs

theorem deref {x : Option α} (h : ∀ a, x = some a → ∀ s, P s → Q a s) :
    Triple P (Prog.deref x : Prog ε σ α) Q E := by
  cases x with
  | none => exact fun s _ r s' hrun => by cases hrun
  | some a => exact Triple.pure (h a rfl)

theorem bind {p : Prog ε σ α} {f : α → Prog ε σ β} (hp : Triple P p Q E)
    (hf : ∀ a, Triple (Q a) (f a) R E) : Triple P (p >>= f) R E := by
  intro s hs r s' hrun
  cases hps : p s with
  | none =>
    rw [bind_fault s hps] at hrun
    cases hrun
  | some rs =>
    obtain ⟨r₁, s₁⟩ := rs
    have hstep := hp s hs r₁ s₁ hps
    cases r₁ with
    | error e =>
      rw [bind_error s hps] at hrun
      obtain ⟨rfl, rfl⟩ := Prod.mk.inj (Option.some.inj hrun)
      exact hstep
    | ok a =>
      rw [bind_ok s hps] at hrun
      exact hf a s₁ hstep r s' hrun

theorem weaken {p : Prog ε σ α} (hp : Triple P p Q E) (hP : ∀ s, P' s → P s)
    (hQ : ∀ a s, Q a s → Q' a s) : Triple P' p Q' E := by
  intro s hs r s' hrun
  have h := hp s (hP s hs) r s' hrun
  cases r with
  | ok a => exact hQ a s' h
  | error e => exact h

theorem weakenError {p : Prog ε σ α} (hp : Triple P p Q E) (hE : ∀ e s, E e s → E' e s) :
    Triple P p Q E' := by
  intro s hs r s' hrun
  have h := hp s hs r s' hrun
  cases r with
  | ok a => exact h
  | error e => exact hE e s' h

theorem unchanged_and {I : σ → Prop} {R : α → Prop} {p : Prog ε σ α}
    (h : ∀ s, Runs (· = s) p (fun _ s' => s' = s) fun _ => False)
    (hR : Runs (fun _ => True) p (fun a _ => R a) fun _ => True) :
    Triple I p (fun a s => R a ∧ I s) E := by
  intro s hs r s' hrun
  have hpost := h s s rfl r s' hrun
  have hresult := hR s trivial r s' hrun
  cases r with
  | error e => exact hpost.elim
  | ok a => exact ⟨hresult, hpost ▸ hs⟩

theorem ite {c : Prop} [Decidable c] {p q : Prog ε σ α} (hp : c → Triple P p Q E)
    (hq : ¬ c → Triple P q Q E) : Triple P (if c then p else q) Q E := by
  split_ifs with h
  · exact hp h
  · exact hq h

theorem forEach {I : σ → Prop} {l : List β} {f : β → Prog ε σ Unit}
    (h : ∀ x ∈ l, Triple I (f x) (fun _ => I) E) :
    Triple I (forEach l f) (fun _ => I) E := by
  induction l with
  | nil => exact Triple.pure fun s hs => hs
  | cons x xs ih =>
    have hx := h x List.mem_cons_self
    have hxs := ih fun y hy => h y (List.mem_cons_of_mem x hy)
    exact bind hx fun _ => hxs

/-- Nested loops over lists that the loop itself leaves alone are one loop. -/
theorem forEach_flatMap {γ : Type} {I : σ → Prop} {g : β → σ → List γ} {g₀ : β → List γ}
    {f : γ → Prog ε σ Unit} (hg : ∀ s, I s → ∀ x, g x s = g₀ x) (l : List β)
    (hf : ∀ x ∈ l, ∀ y ∈ g₀ x, Triple I (f y) (fun _ => I) E) (s : σ) (hs : I s) :
    Prog.forEach l (fun x => Prog.get >>= fun s => Prog.forEach (g x s) f) s =
      Prog.forEach (l.flatMap g₀) f s := by
  induction l generalizing s with
  | nil => rfl
  | cons x l ih =>
    rw [forEach_cons, List.flatMap_cons, forEach_append]
    have hinner : (Prog.get >>= fun s => Prog.forEach (g x s) f) s = Prog.forEach (g₀ x) f s := by
      show Prog.forEach (g x s) f s = _
      rw [hg s hs]
    have hkeep : Triple I (Prog.forEach (g₀ x) f) (fun _ => I) E :=
      forEach fun y hy => hf x List.mem_cons_self y hy
    rcases hrun : Prog.forEach (g₀ x) f s with _ | ⟨e | a, s'⟩
    · rw [bind_fault s hrun, bind_fault s (hinner.trans hrun)]
    · rw [bind_error s hrun, bind_error s (hinner.trans hrun)]
    · rw [bind_ok s hrun, bind_ok s (hinner.trans hrun)]
      exact ih (fun y hy => hf y (List.mem_cons_of_mem x hy)) s' (hkeep s hs _ s' hrun)

/-- A loop whose invariant tells which elements are behind it. -/
theorem forEachAfter {I : List β → σ → Prop} {f : β → Prog ε σ Unit} (l : List β) (pre : List β)
    (h : ∀ mid x post, l = mid ++ x :: post →
      Triple (I (pre ++ mid)) (f x) (fun _ => I (pre ++ mid ++ [x])) E) :
    Triple (I pre) (Prog.forEach l f) (fun _ => I (pre ++ l)) E := by
  induction l generalizing pre with
  | nil =>
    rw [List.append_nil]
    exact Triple.pure fun _ => id
  | cons x xs ih =>
    have hx := h [] x xs rfl
    rw [List.append_nil] at hx
    refine bind hx fun _ => ?_
    have hxs := ih (pre ++ [x]) fun mid y post hsplit => by
      have hy := h (x :: mid) y post (by rw [hsplit, List.cons_append])
      rwa [List.append_cons] at hy
    rwa [← List.append_cons] at hxs

/-- A loop from one state: an iteration starts where those before it have ended. -/
theorem forEachReached {I : List β → σ → Prop} {l : List β} {f : β → Prog ε σ Unit} {s₀ : σ}
    (h : ∀ pre x post s, l = pre ++ x :: post → Prog.forEach pre f s₀ = some (.ok (), s) →
      I pre s → Triple (· = s) (f x) (fun _ => I (pre ++ [x])) E)
    (h₀ : I [] s₀) : Triple (· = s₀) (Prog.forEach l f) (fun _ => I l) E := by
  have hloop : Triple (fun s => Prog.forEach [] f s₀ = some (.ok (), s) ∧ I [] s)
      (Prog.forEach l f) (fun _ s => Prog.forEach l f s₀ = some (.ok (), s) ∧ I l s) E := by
    refine forEachAfter (I := fun pre s => Prog.forEach pre f s₀ = some (.ok (), s) ∧ I pre s)
      l [] fun mid x post hsplit s hs r s' hrun => ?_
    have hstep := h mid x post s hsplit hs.1 hs.2 s rfl r s' hrun
    cases r with
    | error e => exact hstep
    | ok u => exact ⟨(Prog.forEach_concat_eq_ok s₀).mpr ⟨s, hs.1, hrun⟩, hstep⟩
  rintro _ rfl r s' hrun
  have hpost := hloop _ ⟨rfl, h₀⟩ r s' hrun
  cases r with
  | error e => exact hpost
  | ok u => exact hpost.2

theorem foldM {I : α → σ → Prop} {f : α → β → Prog ε σ α}
    (h : ∀ a b, Triple (I a) (f a b) I E) (l : List β) (a : α) :
    Triple (I a) (foldM f l a) I E := by
  induction l generalizing a with
  | nil => exact Triple.pure fun s => id
  | cons x xs ih => exact bind (h a x) ih

theorem attempt {Q : Except ε α → σ → Prop} {p : Prog ε σ α}
    (h : Triple P p (fun a => Q (.ok a)) fun e => Q (.error e)) :
    Triple P (attempt p : Prog ε σ (Except ε α)) Q E := by
  intro s hs r s' hrun
  cases hps : p s with
  | none => simp [Prog.attempt, hps] at hrun
  | some rs =>
    obtain ⟨r₁, s₁⟩ := rs
    have hstep := h s hs r₁ s₁ hps
    simp only [Prog.attempt, hps, Option.map_some, Option.some.injEq, Prod.mk.injEq] at hrun
    obtain ⟨rfl, rfl⟩ := hrun
    cases r₁ with
    | ok a => exact hstep
    | error e => exact hstep

theorem and {p : Prog ε σ α} (h : Triple P p Q E) (h' : Triple P p Q' E') :
    Triple P p (fun a s => Q a s ∧ Q' a s) fun e s => E e s ∧ E' e s := by
  intro s hs r s' hrun
  have hpost := h s hs r s' hrun
  have hpost' := h' s hs r s' hrun
  cases r with
  | ok a => exact ⟨hpost, hpost'⟩
  | error e => exact ⟨hpost, hpost'⟩

theorem const {p : Prog ε σ α} {C : Prop} :
    Runs (fun _ => C) p (fun _ _ => C) fun _ => C := by
  intro s hC r s' _
  cases r with
  | ok a => exact hC
  | error e => exact hC

theorem of_and {p : Prog ε σ α} {C : Prop} (h : C → Triple P p Q E) :
    Triple (fun s => C ∧ P s) p Q E := fun s hs r s' hrun => h hs.1 s hs.2 r s' hrun

theorem onError {F : ε → σ → Prop} {p : Prog ε σ α} (hp : Triple P p Q F)
    {cleanup : ε → Prog ε σ Unit} (hcleanup : ∀ e, Triple (F e) (cleanup e) (fun _ => E e) E) :
    Triple P (Prog.onError p cleanup) Q E := by
  intro s hs r s' hrun
  cases hps : p s with
  | none => simp [Prog.onError, hps] at hrun
  | some rs =>
    obtain ⟨r₁, s₁⟩ := rs
    have hstep := hp s hs r₁ s₁ hps
    cases r₁ with
    | ok a =>
      simp only [Prog.onError, hps, Option.some.injEq, Prod.mk.injEq] at hrun
      obtain ⟨rfl, rfl⟩ := hrun
      exact hstep
    | error e =>
      simp only [Prog.onError, hps] at hrun
      have hthrow : Triple (F e) (cleanup e >>= fun _ => (Prog.throw e : Prog ε σ α)) Q E :=
        bind (hcleanup e) fun _ => throw fun _ => id
      exact hthrow s₁ hstep r s' hrun

theorem mapError {ε' : Type} {E : ε' → σ → Prop} {f : ε → ε'} {p : Prog ε σ α}
    (h : Triple P p Q fun e => E (f e)) : Triple P (mapError f p) Q E := by
  intro s hs r s' hrun
  cases hps : p s with
  | none => simp [Prog.mapError, hps] at hrun
  | some rs =>
    obtain ⟨r₁, s₁⟩ := rs
    have hstep := h s hs r₁ s₁ hps
    simp only [Prog.mapError, hps, Option.map_some, Option.some.injEq, Prod.mk.injEq] at hrun
    obtain ⟨rfl, rfl⟩ := hrun
    cases r₁ with
    | ok a => exact hstep
    | error e => exact hstep

theorem zoom {τ : Type} {get : σ → τ} {set : τ → σ → σ} {p : Prog ε τ α} {I : σ → Prop}
    {Q : α → σ → Prop}
    (h : ∀ s, I s → Triple (· = get s) p (fun a t => Q a (set t s)) fun e t => E e (set t s)) :
    Triple I (Prog.zoom get set p) Q E := by
  intro s hs r s' hrun
  cases hps : p (get s) with
  | none => simp [Prog.zoom, hps] at hrun
  | some rt =>
    obtain ⟨r₁, t⟩ := rt
    have hstep := h s hs (get s) rfl r₁ t hps
    simp only [Prog.zoom, hps, Option.map_some, Option.some.injEq, Prod.mk.injEq] at hrun
    obtain ⟨rfl, rfl⟩ := hrun
    exact hstep

end Triple

/-! ## Runs that return a value -/

def Returns (p : Prog ε σ α) (s : σ) (Q : α → σ → Prop) : Prop :=
  ∃ a s', p s = some (.ok a, s') ∧ Q a s'

namespace Returns
variable {s : σ} {Q Q' : α → σ → Prop} {R : β → σ → Prop}

theorem pure {a : α} (h : Q a s) : Returns (pure a : Prog ε σ α) s Q := ⟨a, s, rfl, h⟩

theorem bind {p : Prog ε σ α} {f : α → Prog ε σ β} (hp : Returns p s Q)
    (hf : ∀ a s', Q a s' → Returns (f a) s' R) : Returns (p >>= f) s R := by
  obtain ⟨a, s₁, hrun, ha⟩ := hp
  obtain ⟨b, s₂, hrun', hb⟩ := hf a s₁ ha
  refine ⟨b, s₂, ?_, hb⟩
  rw [bind_ok s hrun]
  exact hrun'

theorem get_bind {f : σ → Prog ε σ β} (hf : Returns (f s) s R) : Returns (get >>= f) s R := hf

theorem weaken {p : Prog ε σ α} (hp : Returns p s Q) (h : ∀ a s', Q a s' → Q' a s') :
    Returns p s Q' := by
  obtain ⟨a, s', hrun, ha⟩ := hp
  exact ⟨a, s', hrun, h a s' ha⟩

theorem onError {p : Prog ε σ α} (hp : Returns p s Q) (cleanup : ε → Prog ε σ Unit) :
    Returns (Prog.onError p cleanup) s Q := by
  obtain ⟨a, s', hrun, ha⟩ := hp
  exact ⟨a, s', by simp [Prog.onError, hrun], ha⟩

/-- `R` says what the loop has made of the elements so far, which are given as `g` shows them. -/
theorem foldM {γ : Type} {f : β → α → Prog ε σ β} {g : γ → α} {R : List γ → β → σ → Prop}
    {l : List γ} (hstep : ∀ pre x post b s, l = pre ++ x :: post → R pre b s →
      Returns (f b (g x)) s (R (pre ++ [x]))) {b : β} (hb : R [] b s) :
    Returns (Prog.foldM f (l.map g) b) s (R l) := by
  have hgo : ∀ (rest pre : List γ) (b : β) (s : σ), l = pre ++ rest → R pre b s →
      Returns (Prog.foldM f (rest.map g) b) s (R l) := by
    intro rest
    induction rest with
    | nil =>
      intro pre b s hsplit hpre
      rw [List.append_nil] at hsplit
      exact Returns.pure (hsplit ▸ hpre)
    | cons x rest ih =>
      intro pre b s hsplit hpre
      apply Returns.bind (hstep pre x rest b s hsplit hpre)
      exact fun b' s' hx => ih (pre ++ [x]) b' s' (by rw [hsplit, List.append_assoc]; rfl) hx
  exact hgo l [] b s rfl hb

theorem forEach {I : σ → Prop} {l : List β} {f : β → Prog ε σ Unit}
    (h : ∀ x ∈ l, ∀ s, I s → Returns (f x) s fun _ => I) (hs : I s) :
    Returns (Prog.forEach l f) s fun _ => I := by
  induction l generalizing s with
  | nil => exact Returns.pure hs
  | cons x xs ih =>
    rw [forEach_cons]
    apply Returns.bind (h x List.mem_cons_self s hs)
    exact fun _ s' hs' => ih (fun y hy => h y (List.mem_cons_of_mem x hy)) hs'

end Returns

/-! ## When a program returns a value -/

/-- From `s` the program returns a value if and only if `c` holds, and then `Q` does. -/
structure ReturnsIff (p : Prog ε σ α) (s : σ) (c : Prop) (Q : α → σ → Prop) : Prop where
  returns : c → Returns p s Q
  needed : ∀ a s', p s = some (.ok a, s') → c

namespace ReturnsIff
variable {s : σ} {c d : Prop} {Q Q' : α → σ → Prop} {R : β → σ → Prop}

theorem post {p : Prog ε σ α} (h : ReturnsIff p s c Q) {a : α} {s' : σ}
    (hrun : p s = some (.ok a, s')) : Q a s' := by
  obtain ⟨a', s'', hrun', hQ⟩ := h.returns (h.needed a s' hrun)
  rw [hrun] at hrun'
  obtain ⟨ha, rfl⟩ := Prod.mk.inj (Option.some.inj hrun')
  obtain rfl := Except.ok.inj ha
  exact hQ

theorem of_returns {p : Prog ε σ α} (hc : c) (h : Returns p s Q) : ReturnsIff p s c Q :=
  ⟨fun _ => h, fun _ _ _ => hc⟩

theorem pure {a : α} (hc : c) (h : Q a s) : ReturnsIff (pure a : Prog ε σ α) s c Q :=
  of_returns hc (Returns.pure h)

theorem throw (e : ε) : ReturnsIff (throw e : Prog ε σ α) s False Q := ⟨False.elim, nofun⟩

theorem deref (x : Option α) :
    ReturnsIff (deref x : Prog ε σ α) s (x.isSome = true) fun a s' => x = some a ∧ s' = s := by
  cases x with
  | none => exact ⟨nofun, nofun⟩
  | some a => exact ⟨fun _ => Returns.pure ⟨rfl, rfl⟩, fun _ _ _ => rfl⟩

theorem weaken {p : Prog ε σ α} (hp : ReturnsIff p s c Q) (h : ∀ a s', Q a s' → Q' a s') :
    ReturnsIff p s c Q' := ⟨fun hc => (hp.returns hc).weaken h, hp.needed⟩

/-- That it returned may be used for what holds then. -/
theorem strengthen {p : Prog ε σ α} (hp : ReturnsIff p s c Q)
    (h : c → ∀ a s', Q a s' → Q' a s') : ReturnsIff p s c Q' :=
  ⟨fun hc => (hp.returns hc).weaken (h hc), hp.needed⟩

theorem congr {p : Prog ε σ α} (hp : ReturnsIff p s c Q) (h : c ↔ d) : ReturnsIff p s d Q :=
  ⟨fun hd => hp.returns (h.mpr hd), fun a s' hrun => h.mp (hp.needed a s' hrun)⟩

theorem bind {p : Prog ε σ α} {f : α → Prog ε σ β} (hp : ReturnsIff p s c Q)
    (hf : ∀ a s', Q a s' → ReturnsIff (f a) s' d R) : ReturnsIff (p >>= f) s (c ∧ d) R := by
  constructor
  · rintro ⟨hc, hd⟩
    exact Returns.bind (hp.returns hc) fun a s' hQ => (hf a s' hQ).returns hd
  · intro b t hrun
    obtain ⟨a, s', hrun, hrest⟩ := (bind_eq_ok s).mp hrun
    exact ⟨hp.needed a s' hrun, (hf a s' (hp.post hrun)).needed b t hrest⟩

/-- What follows a program may need no more than the program. -/
theorem bind_returns {p : Prog ε σ α} {f : α → Prog ε σ β} (hp : ReturnsIff p s c Q)
    (hf : ∀ a s', Q a s' → Returns (f a) s' R) : ReturnsIff (p >>= f) s c R :=
  (hp.bind fun a s' hQ => of_returns trivial (hf a s' hQ)).congr (and_iff_left trivial)

theorem get_bind {f : σ → Prog ε σ β} (hf : ReturnsIff (f s) s c R) :
    ReturnsIff (get >>= f) s c R := ⟨hf.returns, hf.needed⟩

/-- A loop whose invariant tells which elements are behind it; the need of an element does not
depend on them. -/
theorem forEach {I : List β → σ → Prop} {C : β → Prop} {l : List β} {f : β → Prog ε σ Unit}
    (h : ∀ pre x post s, l = pre ++ x :: post → I pre s →
      ReturnsIff (f x) s (C x) fun _ => I (pre ++ [x])) (hs : I [] s) :
    ReturnsIff (Prog.forEach l f) s (∀ x ∈ l, C x) fun _ => I l := by
  have hgo : ∀ (rest pre : List β) (s : σ), l = pre ++ rest → I pre s →
      ReturnsIff (Prog.forEach rest f) s (∀ x ∈ rest, C x) fun _ => I l := by
    intro rest
    induction rest with
    | nil =>
      intro pre s hsplit hpre
      rw [List.append_nil] at hsplit
      exact ReturnsIff.pure (fun x hx => absurd hx List.not_mem_nil) (hsplit ▸ hpre)
    | cons x rest ih =>
      intro pre s hsplit hpre
      rw [forEach_cons]
      have hrest := ReturnsIff.bind (h pre x rest s hsplit hpre) fun _ s' hx =>
        ih (pre ++ [x]) s' (by rw [hsplit, List.append_assoc]; rfl) hx
      exact hrest.congr List.forall_mem_cons.symm
  exact hgo l [] s rfl hs

end ReturnsIff

/-- The loop over `l` from `s` gets to the turn of `x` in the state `t`. -/
def Reached (f : β → Prog ε σ Unit) (l : List β) (s : σ) (x : β) (t : σ) : Prop :=
  ∃ pre post, l = pre ++ x :: post ∧ forEach pre f s = some (.ok (), t)

theorem not_reached_nil {f : β → Prog ε σ Unit} {s t : σ} {x : β} : ¬ Reached f [] s x t := by
  rintro ⟨pre, post, hsplit, -⟩
  exact List.append_ne_nil_of_right_ne_nil pre (List.cons_ne_nil x post) hsplit.symm

theorem reached_cons {f : β → Prog ε σ Unit} {y x : β} {l : List β} {s t : σ} :
    Reached f (y :: l) s x t ↔
      y = x ∧ s = t ∨ ∃ u, f y s = some (.ok (), u) ∧ Reached f l u x t := by
  constructor
  · rintro ⟨pre, post, hsplit, hpre⟩
    cases pre with
    | nil =>
      obtain ⟨rfl, -⟩ := List.cons.inj hsplit
      obtain ⟨-, rfl⟩ := Prod.mk.inj (Option.some.inj hpre)
      exact .inl ⟨rfl, rfl⟩
    | cons z pre =>
      obtain ⟨rfl, htail⟩ := List.cons.inj hsplit
      rw [forEach_cons] at hpre
      obtain ⟨_, u, hy, hpre⟩ := (bind_eq_ok s).mp hpre
      exact .inr ⟨u, hy, pre, post, htail, hpre⟩
  · rintro (⟨rfl, rfl⟩ | ⟨u, hy, pre, post, rfl, hpre⟩)
    · exact ⟨[], l, rfl, rfl⟩
    · refine ⟨y :: pre, post, rfl, ?_⟩
      rw [forEach_cons, bind_ok s hy]
      exact hpre

theorem reached_append {f : β → Prog ε σ Unit} {a b : List β} {s t : σ} {x : β} :
    Reached f (a ++ b) s x t ↔
      Reached f a s x t ∨ ∃ u, forEach a f s = some (.ok (), u) ∧ Reached f b u x t := by
  induction a generalizing s with
  | nil =>
    rw [List.nil_append]
    constructor
    · exact fun h => .inr ⟨s, rfl, h⟩
    · rintro (h | ⟨u, hnil, h⟩)
      · exact absurd h not_reached_nil
      · obtain ⟨-, rfl⟩ := Prod.mk.inj (Option.some.inj hnil)
        exact h
  | cons y a ih =>
    rw [List.cons_append, reached_cons, reached_cons, or_assoc]
    refine or_congr_right ?_
    constructor
    · rintro ⟨u, hy, h⟩
      rcases ih.mp h with h | ⟨v, ha, h⟩
      · exact .inl ⟨u, hy, h⟩
      · refine .inr ⟨v, ?_, h⟩
        rw [forEach_cons, bind_ok s hy]
        exact ha
    · rintro (⟨u, hy, h⟩ | ⟨v, ha, h⟩)
      · exact ⟨u, hy, ih.mpr (.inl h)⟩
      · rw [forEach_cons] at ha
        obtain ⟨_, u, hy, ha⟩ := (bind_eq_ok s).mp ha
        exact ⟨u, hy, ih.mpr (.inr ⟨v, ha, h⟩)⟩

theorem forEach_reached {l pre post : List β} {x : β} {f : β → Prog ε σ Unit} {s t : σ}
    (hrun : Prog.forEach l f s = some (.ok (), t)) (hsplit : l = pre ++ x :: post) :
    ∃ s₁ s₂, Prog.forEach pre f s = some (.ok (), s₁) ∧ f x s₁ = some (.ok (), s₂) := by
  rw [hsplit, List.append_cons, forEach_append] at hrun
  obtain ⟨_, s₂, hpre, -⟩ := (bind_eq_ok s).mp hrun
  obtain ⟨s₁, hpre, hx⟩ := (forEach_concat_eq_ok s).mp hpre
  exact ⟨s₁, s₂, hpre, hx⟩

/-! ## The last write of a loop -/

/-- The value that the loop over the list writes last from a state, where `W x s o` says that the
turn of `x` from `s` writes `o`, or nothing. -/
inductive LastWrite {γ : Type} (f : β → Prog ε σ Unit) (W : β → σ → Option γ → Prop) :
    List β → σ → Option γ → Prop where
  | nil (s : σ) : LastWrite f W [] s none
  | next {x : β} {xs : List β} {s s' : σ} {o o' : Option γ} (hturn : W x s o)
      (hrun : f x s = some (.ok (), s')) (hrest : LastWrite f W xs s' o') :
      LastWrite f W (x :: xs) s (o'.or o)
  | stop {x : β} {xs : List β} {s s' : σ} {e : ε} {o : Option γ} (hturn : W x s o)
      (hrun : f x s = some (.error e, s')) : LastWrite f W (x :: xs) s o

section
variable {γ : Type} {f : β → Prog ε σ Unit} {W : β → σ → Option γ → Prop} {l : List β} {s s' : σ}
  {r : Except ε Unit}

/-- After the loop `g` shows what was written last, or what it showed before. -/
theorem LastWrite.shows {o : Option γ} (h : LastWrite f W l s o) {I : σ → Prop}
    {g : σ → Option γ}
    (hturn : ∀ x s o r s', I s → W x s o → f x s = some (r, s') → I s' ∧ g s' = o.or (g s))
    (hs : I s) (hrun : forEach l f s = some (r, s')) : I s' ∧ g s' = o.or (g s) := by
  induction h with
  | nil s =>
    obtain ⟨-, rfl⟩ := Prod.mk.inj (Option.some.inj hrun)
    exact ⟨hs, rfl⟩
  | next hw hx hrest ih =>
    rw [forEach_cons, bind_ok _ hx] at hrun
    obtain ⟨hI, hg⟩ := hturn _ _ _ _ _ hs hw hx
    obtain ⟨hI', hg'⟩ := ih hI hrun
    exact ⟨hI', by rw [hg', hg, Option.or_assoc]⟩
  | stop hw hx =>
    rw [forEach_cons, bind_error _ hx] at hrun
    obtain ⟨-, rfl⟩ := Prod.mk.inj (Option.some.inj hrun)
    exact hturn _ _ _ _ _ hs hw hx

theorem LastWrite.eq_none {o : Option γ} (h : LastWrite f W l s o)
    (hW : ∀ x ∈ l, ∀ s o, W x s o → o = none) : o = none := by
  induction h with
  | nil s => rfl
  | next hw hx hrest ih =>
    rw [hW _ List.mem_cons_self _ _ hw, ih fun y hy => hW y (List.mem_cons_of_mem _ hy)]
    rfl
  | stop hw hx => exact hW _ List.mem_cons_self _ _ hw

theorem exists_lastWrite (hW : ∀ x s r s', f x s = some (r, s') → ∃ o, W x s o)
    (hrun : forEach l f s = some (r, s')) : ∃ o, LastWrite f W l s o := by
  induction l generalizing s with
  | nil => exact ⟨none, .nil s⟩
  | cons x xs ih =>
    rw [forEach_cons] at hrun
    rcases hx : f x s with _ | ⟨e | u, t⟩
    · rw [bind_fault s hx] at hrun
      cases hrun
    · obtain ⟨o, ho⟩ := hW x s _ _ hx
      exact ⟨o, .stop ho hx⟩
    · rw [bind_ok s hx] at hrun
      obtain ⟨o, ho⟩ := hW x s _ _ hx
      obtain ⟨o', ho'⟩ := ih hrun
      exact ⟨o'.or o, .next ho hx ho'⟩

end

/-! ## Absence of faults -/

def Safe (p : Prog ε σ α) (s : σ) : Prop := p s ≠ none

instance (p : Prog ε σ α) (s : σ) : Decidable (Safe p s) :=
  decidable_of_iff ((p s).isSome = true) Option.isSome_iff_ne_none

theorem safe_pure (a : α) (s : σ) : Safe (pure a : Prog ε σ α) s := nofun

theorem safe_throw (e : ε) (s : σ) : Safe (throw e : Prog ε σ α) s := nofun

theorem safe_deref (x : Option α) (s : σ) : Safe (deref x : Prog ε σ α) s ↔ x.isSome := by
  cases x <;> simp [Safe, deref, Prog.pure]

theorem safe_bind (p : Prog ε σ α) (f : α → Prog ε σ β) (s : σ) :
    Safe (p >>= f) s ↔ Safe p s ∧ ∀ a s', p s = some (.ok a, s') → Safe (f a) s' := by
  unfold Safe
  cases hps : p s with
  | none => simp [bind_fault s hps]
  | some rs =>
    obtain ⟨r, s₁⟩ := rs
    cases r with
    | error e => simp [bind_error s hps]
    | ok a => simp [bind_ok s hps]

theorem safe_zoom {τ : Type} (get : σ → τ) (set : τ → σ → σ) (p : Prog ε τ α) (s : σ) :
    Safe (zoom get set p) s ↔ Safe p (get s) := by
  unfold Safe zoom
  cases p (get s) <;> simp

theorem safe_attempt (p : Prog ε σ α) (s : σ) :
    Safe (attempt p : Prog ε σ (Except ε α)) s ↔ Safe p s := by
  unfold Safe attempt
  cases p s <;> simp

theorem safe_attempt_bind (p : Prog ε σ α) (f : Except ε α → Prog ε σ β) (s : σ) :
    Safe (attempt p >>= f) s ↔ Safe p s ∧ ∀ r s', p s = some (r, s') → Safe (f r) s' := by
  rw [safe_bind, safe_attempt]
  refine and_congr_right fun _ => forall_congr' fun r => forall_congr' fun s' => ?_
  have hrun : attempt p s = some (.ok r, s') ↔ p s = some (r, s') := by
    unfold attempt
    cases p s <;> simp [Prod.ext_iff]
  rw [hrun]

theorem safe_onError (p : Prog ε σ α) (cleanup : ε → Prog ε σ Unit) (s : σ) :
    Safe (onError p cleanup) s ↔
      Safe p s ∧ ∀ e s', p s = some (.error e, s') → Safe (cleanup e) s' := by
  unfold Safe onError
  cases hps : p s with
  | none => simp
  | some rs =>
    obtain ⟨r, s₁⟩ := rs
    cases r with
    | ok a => simp
    | error e =>
      have h := safe_bind (cleanup e) (fun _ => (throw e : Prog ε σ α)) s₁
      simp only [Safe] at h
      simp only [h]
      simp

theorem safe_get_bind (f : σ → Prog ε σ β) (s : σ) : Safe (get >>= f) s ↔ Safe (f s) s := Iff.rfl

theorem safe_deref_bind (x : Option α) (f : α → Prog ε σ β) (s : σ) :
    Safe (deref x >>= f) s ↔ ∃ a, x = some a ∧ Safe (f a) s := by
  cases x with
  | none => simp [Safe, bind_fault s (show (deref none : Prog ε σ α) s = none from rfl)]
  | some a =>
    have hrun : (deref (some a) : Prog ε σ α) s = some (.ok a, s) := rfl
    simp [Safe, bind_ok s hrun]

theorem Safe.exists_ok {P : σ → Prop} {p : Prog ε σ α} {Q : α → σ → Prop} {s : σ}
    (hsafe : Safe p s) (h : Runs P p Q fun _ => False) (hs : P s) :
    ∃ a s', p s = some (.ok a, s') ∧ Q a s' := by
  unfold Safe at hsafe
  obtain ⟨⟨r, s'⟩, hrun⟩ := Option.ne_none_iff_exists'.mp hsafe
  have hpost := h s hs r s' hrun
  cases r with
  | error e => exact hpost.elim
  | ok a => exact ⟨a, s', hrun, hpost⟩

theorem safe_bind_of_safe {p : Prog ε σ α} {f : α → Prog ε σ β} (hf : ∀ a s, Safe (f a) s)
    (s : σ) : Safe (p >>= f) s ↔ Safe p s := by
  rw [safe_bind]
  exact and_iff_left fun a s' _ => hf a s'

theorem safe_bind_of_triple {P : σ → Prop} {p : Prog ε σ α} {Q : α → σ → Prop}
    {E : ε → σ → Prop} {s : σ} (h : Triple P p Q E) (hs : P s) {f : α → Prog ε σ β}
    (hf : ∀ a s', Q a s' → Safe (f a) s') : Safe (p >>= f) s ↔ Safe p s := by
  rw [safe_bind]
  exact and_iff_left fun a s' hrun => hf a s' (h s hs _ _ hrun)

/-- After a program that cannot return an error, what is safe is what is safe from every
state it can end in; `c` says when, whichever state that is. -/
theorem safe_bind_iff {P : σ → Prop} {p : Prog ε σ α} {Q : α → σ → Prop} {s : σ}
    (h : Runs P p Q fun _ => False) (hs : P s) {f : α → Prog ε σ β} {c : Prop}
    (hf : ∀ a s', Q a s' → (Safe (f a) s' ↔ c)) : Safe (p >>= f) s ↔ Safe p s ∧ c := by
  rw [safe_bind]
  constructor
  · rintro ⟨hp, hnext⟩
    obtain ⟨a, s', hrun, hQ⟩ := hp.exists_ok h hs
    exact ⟨hp, (hf a s' hQ).mp (hnext a s' hrun)⟩
  · rintro ⟨hp, hc⟩
    exact ⟨hp, fun a s' hrun => (hf a s' (h s hs _ _ hrun)).mpr hc⟩

theorem safe_onError_iff {p : Prog ε σ α} {cleanup : ε → Prog ε σ Unit} {A c : Prop}
    (hp : Runs (fun _ => True) p (fun _ _ => A) fun _ => ¬ A)
    (hcleanup : ∀ e s, Safe (cleanup e) s ↔ c) (s : σ) :
    Safe (onError p cleanup) s ↔ Safe p s ∧ (¬ A → c) := by
  rw [safe_onError]
  refine and_congr_right fun hsafe => ?_
  obtain ⟨⟨r, s'⟩, hrun⟩ := Option.ne_none_iff_exists'.mp hsafe
  have hpost := hp s trivial r s' hrun
  cases r with
  | ok a => exact iff_of_true (fun e s₁ herr => by simp [hrun] at herr) fun hA => absurd hpost hA
  | error e =>
    constructor
    · exact fun h _ => (hcleanup e s').mp (h e s' hrun)
    · exact fun h e₁ s₁ _ => (hcleanup e₁ s₁).mpr (h hpost)

theorem safe_forEach (l : List β) (f : β → Prog ε σ Unit) (s : σ) :
    Safe (forEach l f) s ↔ ∀ pre x post s', l = pre ++ x :: post →
      forEach pre f s = some (.ok (), s') → Safe (f x) s' := by
  induction l generalizing s with
  | nil => simp [Safe, forEach, Prog.pure]
  | cons y ys ih =>
    rw [forEach_cons, safe_bind]
    constructor
    · rintro ⟨hy, hys⟩ pre x post s' hsplit hpre
      cases pre with
      | nil =>
        obtain ⟨rfl, -⟩ : y = x ∧ ys = post := by simpa using hsplit
        obtain rfl : s = s' := by simpa [forEach, Prog.pure] using hpre
        exact hy
      | cons z pre =>
        obtain ⟨rfl, htail⟩ : y = z ∧ ys = pre ++ x :: post := by simpa using hsplit
        rw [forEach_cons] at hpre
        cases hrun : f y s with
        | none =>
          rw [bind_fault s hrun] at hpre
          cases hpre
        | some rs =>
          obtain ⟨r, s₁⟩ := rs
          cases r with
          | error e =>
            rw [bind_error s hrun] at hpre
            cases hpre
          | ok u =>
            rw [bind_ok s hrun] at hpre
            exact (ih s₁).mp (hys u s₁ hrun) pre x post s' htail hpre
    · intro h
      refine ⟨h [] y ys s rfl rfl, fun u s₁ hrun => (ih s₁).mpr fun pre x post s' hsplit hpre => ?_⟩
      refine h (y :: pre) x post s' (by rw [hsplit]; rfl) ?_
      rw [forEach_cons, bind_ok s hrun]
      exact hpre

/-! ## Loops that stop at the first error -/

/-- Every element is `ok` after the ones before it, as far as these are all accepted. -/
def InOrder (accepted : α → Prop) (ok : List α → α → Prop) (l : List α) : Prop :=
  ∀ pre x post, l = pre ++ x :: post → (∀ y ∈ pre, accepted y) → ok pre x

section
variable {f : β → α → Prog ε σ β} {R : List α → β → Prop} {accepted : α → Prop}
  {ok : List α → α → Prop}

/-- A loop whose iterations return a value for the accepted elements, and an error for the
others; `R` relates the elements so far to the value passed on. -/
theorem foldM_triple
    (hstep : ∀ pre x b, R pre b → Runs (fun _ => True) (f b x)
      (fun b' _ => accepted x ∧ R (pre ++ [x]) b') fun _ => ¬ accepted x)
    (l : List α) (pre : List α) {b : β} (hb : R pre b) :
    Runs (fun _ => True) (foldM f l b)
      (fun b' _ => (∀ x ∈ l, accepted x) ∧ R (pre ++ l) b') fun _ => ¬ ∀ x ∈ l, accepted x := by
  induction l generalizing pre b with
  | nil =>
    refine Triple.pure fun s _ => ⟨nofun, ?_⟩
    rwa [List.append_nil]
  | cons x xs ih =>
    intro s _ r s' hrun
    cases hx : f b x s with
    | none =>
      rw [show foldM f (x :: xs) b s = none from bind_fault s hx (foldM f xs)] at hrun
      cases hrun
    | some rs =>
      obtain ⟨r₁, s₁⟩ := rs
      have hpost := hstep pre x b hb s trivial r₁ s₁ hx
      cases r₁ with
      | error e =>
        rw [show foldM f (x :: xs) b s = some (.error e, s₁) from bind_error s hx _] at hrun
        obtain ⟨rfl, rfl⟩ := Prod.mk.inj (Option.some.inj hrun)
        exact fun hall => hpost (hall x List.mem_cons_self)
      | ok b' =>
        rw [show foldM f (x :: xs) b s = foldM f xs b' s₁ from bind_ok s hx _] at hrun
        have hrest := ih (pre ++ [x]) hpost.2 s₁ trivial r s' hrun
        cases r with
        | error e => exact fun hall => hrest fun y hy => hall y (List.mem_cons_of_mem x hy)
        | ok b'' =>
          refine ⟨List.forall_mem_cons.mpr ⟨hpost.1, hrest.1⟩, ?_⟩
          have hR := hrest.2
          rwa [List.append_assoc] at hR

theorem safe_foldM
    (hstep : ∀ pre x b, R pre b → Runs (fun _ => True) (f b x)
      (fun b' _ => accepted x ∧ R (pre ++ [x]) b') fun _ => ¬ accepted x)
    (hsafe : ∀ pre x b s, R pre b → (Safe (f b x) s ↔ ok pre x))
    (l : List α) (pre : List α) {b : β} (hb : R pre b) (s : σ) :
    Safe (foldM f l b) s ↔ InOrder accepted (fun before x => ok (pre ++ before) x) l := by
  unfold InOrder
  induction l generalizing pre b s with
  | nil => simp [Safe, foldM, Prog.pure]
  | cons y ys ih =>
    rw [show foldM f (y :: ys) b = f b y >>= foldM f ys from rfl, safe_bind, hsafe pre y b s hb]
    constructor
    · rintro ⟨hy, hys⟩ before x post hsplit hbefore
      cases before with
      | nil =>
        obtain ⟨rfl, -⟩ : y = x ∧ ys = post := by simpa using hsplit
        rwa [List.append_nil]
      | cons z before =>
        obtain ⟨rfl, htail⟩ : y = z ∧ ys = before ++ x :: post := by simpa using hsplit
        obtain ⟨⟨r, s₁⟩, hrun⟩ := Option.ne_none_iff_exists'.mp ((hsafe pre y b s hb).mpr hy)
        have hpost := hstep pre y b hb s trivial r s₁ hrun
        cases r with
        | error e => exact absurd (hbefore y List.mem_cons_self) hpost
        | ok b' =>
          have hrest := (ih (pre ++ [y]) hpost.2 s₁).mp (hys b' s₁ hrun) before x post htail
            fun u hu => hbefore u (List.mem_cons_of_mem y hu)
          simpa using hrest
    · intro h
      have hy : ok (pre ++ []) y := h [] y ys rfl nofun
      rw [List.append_nil] at hy
      refine ⟨hy, fun b' s₁ hrun => ?_⟩
      have hpost := hstep pre y b hb s trivial (.ok b') s₁ hrun
      refine (ih (pre ++ [y]) hpost.2 s₁).mpr fun before x post hsplit hbefore => ?_
      have hall : ∀ u ∈ y :: before, accepted u := List.forall_mem_cons.mpr ⟨hpost.1, hbefore⟩
      have hok := h (y :: before) x post (by rw [hsplit]; rfl) hall
      simpa using hok

end

end Prog
