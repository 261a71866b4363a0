import TrustTunnel.Lib.Runs

/-!
# Executions without an end

At some moments nothing happens. `Fair`: an event that stays possible happens; `StronglyFair`: one
that is possible again and again.
-/

namespace TrustTunnel.Lib

variable {σ ε : Type}

/-- The states at the moments `0, 1, 2, …`, and the events between them. -/
structure Execution (step : σ → ε → Option σ) (init : σ) where
  state : Nat → σ
  event : Nat → Option ε
  init_eq : state 0 = init
  next : ∀ n, match event n with
    | none => state (n + 1) = state n
    | some e => step (state n) e = some (state (n + 1))

namespace Execution

variable {step : σ → ε → Option σ} {init : σ} (x : Execution step init)

def Fair (enabled : σ → Prop) (e : ε) : Prop :=
  ∀ n, (∀ m, n ≤ m → enabled (x.state m)) → ∃ m, n ≤ m ∧ x.event m = some e

def StronglyFair (enabled : σ → Prop) (E : ε → Prop) : Prop :=
  ∀ n, (∀ m, n ≤ m → ∃ k, m ≤ k ∧ enabled (x.state k)) →
    ∃ m, n ≤ m ∧ ∃ e, x.event m = some e ∧ E e

variable {x}

lemma next_of_none (h : x.event n = none) : x.state (n + 1) = x.state n := by
  have hn := x.next n
  rwa [h] at hn

lemma next_of_some (h : x.event n = some e) : step (x.state n) e = some (x.state (n + 1)) := by
  have hn := x.next n
  rwa [h] at hn

lemma stays {P : σ → Prop} {n : Nat} (hn : P (x.state n))
    (hs : ∀ m e, n ≤ m → x.event m = some e → P (x.state m) → P (x.state (m + 1)))
    {m : Nat} (hm : n ≤ m) : P (x.state m) := by
  induction hm with
  | refl => exact hn
  | @step m hm ih =>
    cases he : x.event m with
    | none =>
      rw [next_of_none he]
      exact ih
    | some e => exact hs m e hm he ih

lemma invariant {Inv : σ → Prop} (hi : Inv init)
    (hs : ∀ s e s', Inv s → step s e = some s' → Inv s') (n : Nat) : Inv (x.state n) := by
  refine stays (n := 0) ?_ (fun m e _ he hin => ?_) (Nat.zero_le n)
  · rw [x.init_eq]
    exact hi
  · exact hs _ e _ hin (next_of_some he)

/-- **Progress rule.** Unless the goal is met, every event keeps `P` and is not the fair one. -/
lemma leadsTo {P enabled : σ → Prop} {e : ε} {Goal : Nat → Prop} {n : Nat}
    (hf : x.Fair enabled e) (hen : ∀ s, P s → enabled s)
    (hs : ∀ m e', n ≤ m → P (x.state m) → x.event m = some e' →
      P (x.state (m + 1)) ∧ e' ≠ e ∨ ∃ k, n ≤ k ∧ Goal k)
    (hn : P (x.state n)) : ∃ k, n ≤ k ∧ Goal k := by
  by_contra hne
  have hke : ∀ m e', n ≤ m → P (x.state m) → x.event m = some e' →
      P (x.state (m + 1)) ∧ e' ≠ e := by
    intro m e' hm hP he
    exact (hs m e' hm hP he).resolve_right hne
  have hkee : ∀ m, n ≤ m → P (x.state m) := by
    intro m hm
    exact stays hn (fun k e' hk he hP => (hke k e' hk hP he).1) hm
  obtain ⟨m, hm, he⟩ := hf n (fun m hm => hen _ (hkee m hm))
  exact (hke m e hm (hkee m hm) he).2 rfl

end Execution

end TrustTunnel.Lib
