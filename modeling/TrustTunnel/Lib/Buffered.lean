import Mathlib.Data.List.Basic

/-!
# Buffered readers

A reader keeps what it was given in a buffer and takes steps that consume the
front of it, until it needs more.
-/

namespace TrustTunnel.Lib.Buffered

variable {σ α : Type} (step : σ → List α → Option (σ × List α))

def settle : Nat → σ → List α → σ × List α
  | 0, s, buffer => (s, buffer)
  | fuel + 1, s, buffer =>
    match step s buffer with
    | none => (s, buffer)
    | some (s', buffer') => settle fuel s' buffer'

def read (s : σ) (buffer : List α) : σ × List α := settle step (buffer.length + 1) s buffer

structure Incremental : Prop where
  shorter : ∀ {s s' buffer buffer'}, step s buffer = some (s', buffer') →
    buffer'.length < buffer.length
  stable : ∀ {s s' buffer buffer'}, step s buffer = some (s', buffer') →
    ∀ more, step s (buffer ++ more) = some (s', buffer' ++ more)

variable {step}

lemma read_of_none (h : step s buffer = none) : read step s buffer = (s, buffer) := by
  simp [read, settle, h]

lemma read_invariant {Inv : σ → Prop}
    (hstep : ∀ {s s' buffer buffer'}, Inv s → step s buffer = some (s', buffer') → Inv s') {s : σ}
    (hs : Inv s) (buffer : List α) : Inv (read step s buffer).1 := by
  have hse : ∀ fuel s buffer, Inv s → Inv (settle step fuel s buffer).1 := by
    intro fuel
    induction fuel with
    | zero => exact fun _ _ hs => hs
    | succ fuel ih =>
      intro s buffer hs
      cases h : step s buffer with
      | none => simpa only [settle, h] using hs
      | some x => simpa only [settle, h] using ih x.1 x.2 (hstep hs h)
  exact hse _ s buffer hs

section

variable (hstep : Incremental step)

include hstep

lemma settle_eq (h : buffer.length < fuel)
    (h' : buffer.length < fuel') : settle step fuel s buffer = settle step fuel' s buffer := by
  induction fuel generalizing fuel' s buffer with
  | zero => exact absurd h (Nat.not_lt_zero _)
  | succ fuel ih =>
    obtain ⟨fuel', rfl⟩ := Nat.exists_eq_succ_of_ne_zero (Nat.ne_of_gt (Nat.zero_lt_of_lt h'))
    cases hs : step s buffer with
    | none => simp [settle, hs]
    | some =>
      have hshorter := hstep.shorter hs
      simp only [settle, hs]
      exact ih (by omega) (by omega)

lemma read_of_step
    (h : step s buffer = some (s', buffer')) : read step s buffer = read step s' buffer' := by
  have hs := hstep.shorter h
  rw [read, settle, h]
  exact settle_eq hstep hs (Nat.lt_succ_self _)

/-- **More input later is more input now.** -/
lemma read_append (s : σ) (buffer more : List α) : read step s (buffer ++ more) =
      read step (read step s buffer).1 ((read step s buffer).2 ++ more) := by
  -- By induction on the length of the buffer, which every step makes shorter.
  induction hn : buffer.length using Nat.strongRecOn generalizing s buffer with
  | _ n ih =>
    cases h : step s buffer with
    | none => rw [read_of_none h]
    | some x =>
      obtain ⟨s', buffer'⟩ := x
      rw [read_of_step hstep h, read_of_step hstep (hstep.stable h more)]
      exact ih buffer'.length (hn ▸ hstep.shorter h) s' buffer' rfl

end

end TrustTunnel.Lib.Buffered
