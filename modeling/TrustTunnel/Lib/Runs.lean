import Mathlib.Data.List.Basic

/-!
# Runs of a labelled step function

A system is a partial `step : σ → ε → Option σ`; a run is the list of its events.
-/

namespace TrustTunnel.Lib

variable {σ ε : Type} (step : σ → ε → Option σ)

def run : σ → List ε → Option σ
  | s, [] => some s
  | s, e :: es => (step s e).bind (fun s' => run s' es)

/-- Some run from `init` ends in `s`. -/
def Reachable (init s : σ) : Prop := ∃ es, run step init es = some s

/-- `P` holds after each event of the run that can happen. -/
def EveryState (P : σ → Prop) : σ → List ε → Prop
  | _, [] => True
  | s, e :: es => ∀ s', step s e = some s' → P s' ∧ EveryState P s' es

instance EveryState.decidable {P : σ → Prop} [DecidablePred P] :
    (s : σ) → (es : List ε) → Decidable (EveryState step P s es)
  | _, [] => .isTrue trivial
  | s, e :: es =>
    match h : step s e with
    | none => .isTrue (fun s' hs' => by rw [h] at hs'; cases hs')
    | some s1 =>
      have : Decidable (EveryState step P s1 es) := EveryState.decidable s1 es
      decidable_of_iff (P s1 ∧ EveryState step P s1 es)
        ⟨fun hp s' hs' => by rw [h] at hs'; cases hs'; exact hp, fun hp => hp s1 h⟩

/-- `Ok` holds of each event of the run, in the state it happens in. -/
def EveryStep (Ok : σ → ε → Prop) : σ → List ε → Prop
  | _, [] => True
  | s, e :: es => ∀ s', step s e = some s' → Ok s e ∧ EveryStep Ok s' es

instance EveryStep.decidable {Ok : σ → ε → Prop} [DecidableRel Ok] :
    (s : σ) → (es : List ε) → Decidable (EveryStep step Ok s es)
  | _, [] => .isTrue trivial
  | s, e :: es =>
    match h : step s e with
    | none => .isTrue (fun s' hs' => by rw [h] at hs'; cases hs')
    | some s1 =>
      have : Decidable (EveryStep step Ok s1 es) := EveryStep.decidable s1 es
      decidable_of_iff (Ok s e ∧ EveryStep step Ok s1 es)
        ⟨fun hp s' hs' => by rw [h] at hs'; cases hs'; exact hp, fun hp => hp s1 h⟩

/-- The system with an observer. -/
def observed {γ : Type} (next : σ → ε → σ → γ → γ) (x : σ × γ) (e : ε) : Option (σ × γ) :=
  (step x.1 e).map (fun s' => (s', next x.1 e s' x.2))

variable {step}

section

variable {Inv P : σ → Prop} {Ok : σ → ε → Prop} {init s s' s'' : σ} {e : ε} {es : List ε}

lemma observed_eq_some (h : observed step next x e = some y) :
    ∃ s', step x.1 e = some s' ∧ y = (s', next x.1 e s' x.2) := by
  obtain ⟨s', hs', rfl⟩ := Option.map_eq_some_iff.mp h
  exact ⟨s', hs', rfl⟩

lemma run_cons (h : run step s (e :: es) = some s'') :
    ∃ s', step s e = some s' ∧ run step s' es = some s'' :=
  Option.bind_eq_some_iff.mp h

lemma run_append (h : run step s es = some s') (h' : run step s' es' = some s'') :
    run step s (es ++ es') = some s'' := by
  induction es generalizing s with
  | nil =>
    cases h
    exact h'
  | cons e es ih =>
    obtain ⟨s1, h1, h2⟩ := run_cons h
    rw [List.cons_append, run, h1, Option.bind_some]
    exact ih h2

lemma Reachable.run (h : Reachable step init s) (hes : run step s es = some s') :
    Reachable step init s' := by
  obtain ⟨es0, h0⟩ := h
  exact ⟨es0 ++ es, run_append h0 hes⟩

/-- **Invariant rule.** -/
lemma run_invariant (hst : ∀ s e s', Inv s → step s e = some s' → Inv s') (hs : Inv s)
    (h : run step s es = some s') : Inv s' := by
  induction es generalizing s with
  | nil =>
    cases h
    exact hs
  | cons e es ih =>
    obtain ⟨s1, h1, h2⟩ := run_cons h
    exact ih (hst s e s1 hs h1) h2

lemma reachable_invariant (hi : Inv init)
    (hs : ∀ s e s', Inv s → step s e = some s' → Inv s') (h : Reachable step init s) : Inv s := by
  obtain ⟨es, hes⟩ := h
  exact run_invariant hs hi hes

/-- **Conditional invariant rule**, for runs whose steps all meet `Ok`. -/
lemma everyState_of_everyStep (hst : ∀ s e s', Inv s → Ok s e → step s e = some s' → Inv s')
    (hP : ∀ s, Inv s → P s) (hs : Inv s) (h : EveryStep step Ok s es) : EveryState step P s es := by
  induction es generalizing s with
  | nil => trivial
  | cons e es ih =>
    intro s' hs'
    obtain ⟨hok, hr⟩ := h s' hs'
    have hi := hst s e s' hs hok hs'
    exact ⟨hP s' hi, ih hi hr⟩

lemma everyStep_of_forall {P : ε → Prop} (s : σ) (h : ∀ e ∈ es, P e) :
    EveryStep step (fun _ e => P e) s es := by
  induction es generalizing s with
  | nil => trivial
  | cons e es ih =>
    obtain ⟨he, hes⟩ := List.forall_mem_cons.mp h
    exact fun s' _ => ⟨he, ih s' hes⟩

/-- **Relative invariant rule**, for runs whose states all meet `P`. -/
lemma everyState_of_everyState (hst : ∀ s e s', Inv s → P s' → step s e = some s' → Inv s')
    (hs : Inv s) (h : EveryState step P s es) : EveryState step Inv s es := by
  induction es generalizing s with
  | nil => trivial
  | cons e es ih =>
    intro s' hs'
    obtain ⟨hp, hr⟩ := h s' hs'
    have hi := hst s e s' hs hp hs'
    exact ⟨hi, ih hi hr⟩

lemma EveryState.mono (hPQ : ∀ s, P s → Q s) (h : EveryState step P s es) :
    EveryState step Q s es := by
  induction es generalizing s with
  | nil => trivial
  | cons e es ih =>
    intro s' hs'
    obtain ⟨hp, hr⟩ := h s' hs'
    exact ⟨hPQ s' hp, ih hr⟩

lemma EveryState.last (h : EveryState step P s (e :: es))
    (hr : run step s (e :: es) = some s') : P s' := by
  induction es generalizing s e with
  | nil =>
    obtain ⟨s1, h1, h2⟩ := run_cons hr
    cases h2
    exact (h _ h1).1
  | cons e' es ih =>
    obtain ⟨s1, h1, h2⟩ := run_cons hr
    exact ih (h s1 h1).2 h2

/-- **Exact condition rule.** -/
lemma everyState_iff_everyStep (hst : ∀ s e s', Inv s → Ok s e → step s e = some s' → Inv s')
    (hP : ∀ s, Inv s → P s) (hb : ∀ s e s', Inv s → ¬ Ok s e → step s e = some s' → ¬ P s')
    (es : List ε) (hs : Inv s) : EveryState step P s es ↔ EveryStep step Ok s es := by
  refine ⟨fun h => ?_, everyState_of_everyStep hst hP hs⟩
  induction es generalizing s with
  | nil => trivial
  | cons e es ih =>
    intro s' hs'
    obtain ⟨hp, hr⟩ := h s' hs'
    have hok : Ok s e := by
      by_contra hno
      exact hb s e s' hs hno hs' hp
    exact ⟨hok, ih (hst s e s' hs hok hs') hr⟩

/-- **Projection rule.** Another system follows with the events that `f` keeps. -/
lemma run_filterMap {σ' ε' : Type} {step' : σ' → ε' → Option σ'} {f : ε → Option ε'}
    {R : σ → σ' → Prop} (hi : ∀ s e t, Inv s → Ok s e → step s e = some t → Inv t)
    (hd : ∀ s e t s', Inv s → Ok s e → step s e = some t → R s s' → f e = none → R t s')
    (hk : ∀ s e t s' e', Inv s → Ok s e → step s e = some t → R s s' → f e = some e' →
      ∃ t', step' s' e' = some t' ∧ R t t') {t : σ} {s' : σ'} (hs : Inv s)
    (hok : EveryStep step Ok s es) (hR : R s s') (hr : run step s es = some t) :
    ∃ t', run step' s' (es.filterMap f) = some t' ∧ R t t' := by
  induction es generalizing s s' with
  | nil =>
    cases hr
    exact ⟨s', rfl, hR⟩
  | cons e es ih =>
    obtain ⟨s1, hst, hre⟩ := run_cons hr
    obtain ⟨ho, hokes⟩ := hok s1 hst
    have hs1 := hi s e s1 hs ho hst
    cases hf : f e with
    | none =>
      rw [List.filterMap_cons_none hf]
      exact ih hs1 hokes (hd s e s1 s' hs ho hst hR hf) hre
    | some e' =>
      obtain ⟨s1', hst', hR1⟩ := hk s e s1 s' e' hs ho hst hR hf
      obtain ⟨t', hr', hRt⟩ := ih hs1 hokes hR1 hre
      rw [List.filterMap_cons_some hf]
      exact ⟨t', by rw [run, hst', Option.bind_some, hr'], hRt⟩

/-- **Potential rule.** Events that lower a potential happen no oftener than it says. -/
lemma count_le_of_potential (Inv : σ → Prop) (p : ε → Bool) (potential : σ → Nat)
    (hst : ∀ s e s', Inv s → Ok s e → step s e = some s' →
      Inv s' ∧ potential s' + (if p e then 1 else 0) ≤ potential s) (hs : Inv s)
    (hok : EveryStep step Ok s es) (hr : run step s es = some s') :
    es.countP p + potential s' ≤ potential s := by
  induction es generalizing s with
  | nil =>
    cases hr
    simp
  | cons e es ih =>
    obtain ⟨s1, h1, hre⟩ := run_cons hr
    obtain ⟨hoke, ho⟩ := hok s1 h1
    obtain ⟨hs1, hle⟩ := hst s e s1 hs hoke h1
    have hcount := ih hs1 ho hre
    rw [List.countP_cons]
    omega

end

end TrustTunnel.Lib
