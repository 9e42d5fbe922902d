import Mathlib.Data.List.Basic
import Mathlib.Data.Option.Basic

/-! Machines that read symbols one by one, write others, and may refuse their input. What a machine
makes of a text is put together from what it makes of the pieces. -/

structure Transducer (S I O : Type*) where
  step : S → I → Option (S × List O)

namespace Transducer

variable {S T I M O A : Type*}

def run (m : Transducer S I O) : S → List I → Option (S × List O)
  | s, [] => some (s, [])
  | s, x :: xs =>
    match m.step s x with
    | none => none
    | some (t, out) => (m.run t xs).map fun r => (r.1, out ++ r.2)

def Reads (m : Transducer S I O) (s : S) (xs : List I) (t : S) (out : List O) : Prop :=
  m.run s xs = some (t, out)

instance [DecidableEq S] [DecidableEq O] (m : Transducer S I O) (s : S) (xs : List I) (t : S)
    (out : List O) : Decidable (m.Reads s xs t out) :=
  inferInstanceAs (Decidable (_ = _))

section
variable {m : Transducer S I O} {s t u : S} {xs ys : List I} {out out' : List O}

theorem Reads.nil : m.Reads s [] s [] := rfl

theorem Reads.cons {x : I} (hstep : m.step s x = some (t, out)) (h : m.Reads t xs u out') :
    m.Reads s (x :: xs) u (out ++ out') := by
  unfold Reads at *
  rw [run, hstep]
  dsimp only
  rw [h]
  rfl

theorem Reads.single {x : I} (hstep : m.step s x = some (t, out)) : m.Reads s [x] t out := by
  have hall := Reads.cons hstep (.nil (m := m))
  rwa [List.append_nil] at hall

theorem run_append (s : S) (xs ys : List I) : m.run s (xs ++ ys) =
    (m.run s xs).bind fun r => (m.run r.1 ys).map fun r' => (r'.1, r.2 ++ r'.2) := by
  induction xs generalizing s with
  | nil => cases h : m.run s ys <;> simp [run, h]
  | cons x xs ih =>
    rw [List.cons_append, run, run]
    cases m.step s x with
    | none => rfl
    | some r =>
      obtain ⟨t, out⟩ := r
      dsimp only
      rw [ih]
      cases m.run t xs with
      | none => rfl
      | some r' => cases h : m.run r'.1 ys <;> simp [h, List.append_assoc]

theorem Reads.append (h : m.Reads s xs t out) (h' : m.Reads t ys u out') :
    m.Reads s (xs ++ ys) u (out ++ out') := by
  unfold Reads at *
  rw [run_append, h, Option.bind_some, h']
  rfl

/-- Pieces after each of which the machine is where it was. -/
theorem Reads.flatMap {l : List A} {text : A → List I} {written : A → List O}
    (h : ∀ a ∈ l, m.Reads s (text a) s (written a)) :
    m.Reads s (l.flatMap text) s (l.flatMap written) := by
  induction l with
  | nil => exact .nil
  | cons a l ih =>
    rw [List.flatMap_cons, List.flatMap_cons]
    exact (h a List.mem_cons_self).append (ih fun b hb => h b (List.mem_cons_of_mem a hb))

end

/-! ## One machine after the other -/

def comp (m : Transducer S I M) (m' : Transducer T M O) : Transducer (S × T) I O where
  step r x := (m.step r.1 x).bind fun (s, mid) => (m'.run r.2 mid).map fun (t, out) => ((s, t), out)

section
variable {m : Transducer S I M} {m' : Transducer T M O}

theorem comp_run (s : S) (t : T) (xs : List I) : (m.comp m').run (s, t) xs =
    (m.run s xs).bind fun r => (m'.run t r.2).map fun r' => ((r.1, r'.1), r'.2) := by
  induction xs generalizing s t with
  | nil => rfl
  | cons x xs ih =>
    rw [run, run, comp]
    dsimp only
    cases m.step s x with
    | none => rfl
    | some r =>
      obtain ⟨s', mid⟩ := r
      rw [Option.bind_some]
      dsimp only
      cases h : m'.run t mid with
      | none =>
        cases hrest : m.run s' xs with
        | none => rfl
        | some r' => simp [run_append, h]
      | some r' =>
        obtain ⟨t', out⟩ := r'
        rw [Option.map_some]
        dsimp only
        rw [← comp, ih]
        cases hrest : m.run s' xs with
        | none => rfl
        | some r' =>
          simp only [Option.bind_some, Option.map_some, run_append, h]
          cases m'.run t' r'.2 <;> simp

theorem Reads.comp {s s' : S} {t t' : T} {xs : List I} {mid : List M} {out : List O}
    (h : m.Reads s xs s' mid) (h' : m'.Reads t mid t' out) :
    (m.comp m').Reads (s, t) xs (s', t') out := by
  unfold Reads at *
  rw [comp_run, h, Option.bind_some, h']
  rfl

end

end Transducer
