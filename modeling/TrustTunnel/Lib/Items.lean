import Mathlib.Data.List.Basic

/-!
# Sequences of items

A reader takes one item off the front of a list.
-/

namespace TrustTunnel.Lib

open List Option

section

variable {ε α β ε' σ : Type} {x : Except ε α} {b : β} {a : α} {f : σ → α → Except ε σ}

lemma bind_eq_ok {f : α → Except ε β} : (x >>= f) = .ok b ↔ ∃ a, x = .ok a ∧ f a = .ok b := by
  cases x with
  | error =>
    refine ⟨fun h => ?_, ?_⟩
    · cases h
    · rintro ⟨a, h, -⟩
      cases h
  | ok a => exact ⟨fun h => ⟨a, rfl, h⟩, by rintro ⟨a', h, hf⟩; cases h; exact hf⟩

lemma ite_error_eq_ok [Decidable c] : (if c then .error e else x) = .ok a ↔ ¬ c ∧ x = .ok a := by
  by_cases hc : c <;> simp [hc]

lemma map_eq_ok_iff {f : α → β} : x.map f = .ok b ↔ ∃ a, x = .ok a ∧ f a = b := by
  cases x <;> simp [Except.map]

lemma toOption_bind (x : Except ε α) (f : α → Except ε β) :
    (x >>= f).toOption = x.toOption.bind (fun a => (f a).toOption) := by
  cases x <;> rfl

lemma mapError_eq_ok {f : ε → ε'} {e : Except ε α} : e.mapError f = .ok a ↔ e = .ok a := by
  cases e <;> simp [Except.mapError]

lemma toOption_mapError (x : Except ε α) (f : ε → ε') : (x.mapError f).toOption = x.toOption := by
  cases x <;> rfl

lemma toOption_eq_some_iff : x.toOption = some a ↔ x = .ok a := by
  cases x <;> simp [Except.toOption]

lemma toOption_foldlM_congr {g : σ → α → Except ε' σ}
    (h : ∀ s a, (f s a).toOption = (g s a).toOption) (l : List α) (s : σ) :
    (l.foldlM f s).toOption = (l.foldlM g s).toOption := by
  induction l generalizing s with
  | nil => rfl
  | cons a l ih =>
    rw [foldlM_cons, foldlM_cons, toOption_bind, toOption_bind, h]
    exact congrArg _ (funext ih)

lemma foldlM_related {τ : Type} {R : σ → τ → Prop} {g : τ → α → Except ε' τ} {l : List α}
    (h : ∀ a ∈ l, ∀ s t s' t', R s t → f s a = .ok s' → g t a = .ok t' → R s' t') {s s' : σ}
    {t t' : τ} (hst : R s t) (hf : l.foldlM f s = .ok s') (hg : l.foldlM g t = .ok t') :
    R s' t' := by
  induction l generalizing s t with
  | nil =>
    cases hf
    cases hg
    exact hst
  | cons a l ih =>
    rw [foldlM_cons] at hf hg
    obtain ⟨s1, hs, hf⟩ := bind_eq_ok.mp hf
    obtain ⟨t1, ht, hg⟩ := bind_eq_ok.mp hg
    have hfi : R s1 t1 := h a mem_cons_self s t s1 t1 hst hs ht
    exact ih (fun b hb => h b (mem_cons_of_mem a hb)) hfi hf hg

lemma foldlM_collect (l acc : List α) :
    l.foldlM (fun acc a => (.ok (acc ++ [a]) : Except ε (List α))) acc = .ok (acc ++ l) := by
  induction l generalizing acc with
  | nil => rw [append_nil]; rfl
  | cons a l ih =>
    rw [foldlM_cons]
    exact (ih (acc ++ [a])).trans (by rw [append_assoc]; rfl)

end

namespace Items

variable {α β γ σ ε : Type}

inductive Reads (next : List α → Option (β × List α)) : List α → List β → Prop
  | nil : Reads next [] []
  | cons {l rest : List α} {b : β} {bs : List β} (h : next l = some (b, rest))
      (hrest : Reads next rest bs) : Reads next l (b :: bs)

def Encodes (next : List α → Option (β × List α)) (e : List α) (b : β) : Prop :=
  ∀ more, next (e ++ more) = some (b, more)

variable {next : List α → Option (β × List α)}

section

variable {p : List α → Option (β × List α)} {q : β → List α → Option (γ × List α)}

def Local (next : List α → Option (β × List α)) : Prop :=
  ∀ l b rest, next l = some (b, rest) → ∃ e, l = e ++ rest ∧ Encodes next e b

structure Sequential (next : List α → Option (β × List α)) : Prop where
  front : Local next
  nil : next [] = none

lemma Local.bind (hp : Local p) (hq : ∀ b, Local (q b)) :
    Local (fun l => (p l).bind (fun x => q x.1 x.2)) := by
  intro l c rest h
  obtain ⟨⟨b, rest1⟩, hb, hc⟩ := bind_eq_some_iff.mp h
  obtain ⟨e1, rfl, henc1⟩ := hp _ _ _ hb
  obtain ⟨e2, rfl, henc2⟩ := hq b _ _ _ hc
  refine ⟨e1 ++ e2, (append_assoc e1 e2 rest).symm, fun more => ?_⟩
  simp [henc1 (e2 ++ more), henc2 more]

lemma Sequential.bind (hp : Sequential p) (hq : ∀ b, Local (q b)) :
    Sequential (fun l => (p l).bind (fun x => q x.1 x.2)) :=
  ⟨hp.front.bind hq, by rw [hp.nil, bind_none]⟩

def take (n : Nat) (l : List α) : Option (List α × List α) :=
  if l.length < n then none else some (l.take n, l.drop n)

lemma take_append (h : e.length = n) (more : List α) : take n (e ++ more) = some (e, more) := by
  subst h
  rw [take, if_neg (by simp), take_left, drop_left]

lemma local_take (n : Nat) : Local (take (α := α) n) := by
  intro l b rest h
  unfold take at h
  split at h
  · cases h
  · cases h
    refine ⟨l.take n, (take_append_drop n l).symm, take_append ?_⟩
    rw [length_take]
    omega

lemma Local.map (hp : Local next) (f : β → γ) :
    Local (fun l => (next l).map (fun x => (f x.1, x.2))) := by
  intro l c rest h
  obtain ⟨⟨b, rest'⟩, hb, heq⟩ := map_eq_some_iff.mp h
  cases heq
  obtain ⟨e, rfl, he⟩ := hp _ _ _ hb
  exact ⟨e, rfl, fun more => by simp only [he more, map_some]⟩

lemma Sequential.map (hp : Sequential next) (f : β → γ) :
    Sequential (fun l => (next l).map (fun x => (f x.1, x.2))) :=
  ⟨hp.front.map f, by rw [hp.nil, map_none]⟩

lemma Sequential.shorter (h : Sequential next)
    (hnex : next l = some (b, rest)) : rest.length < l.length := by
  obtain ⟨e, rfl, he⟩ := h.front _ _ _ hnex
  have hne : e ≠ [] := by
    rintro rfl
    have hn := he []
    rw [nil_append, h.nil] at hn
    cases hn
  have := length_pos_of_ne_nil hne
  rw [length_append]
  omega

end

/-! ## Sequences -/

section

variable {l1 l2 l : List α} {bs1 bs : List β}

lemma Encodes.reads (h : Encodes next e b) : Reads next e [b] := by
  have hn := h []
  rw [append_nil] at hn
  exact .cons hn .nil

lemma reads_flatMap {ι : Type} {item : ι → β} {bytes : ι → List α} {is : List ι}
    (h : ∀ i ∈ is, Encodes next (bytes i) (item i)) :
    Reads next (is.flatMap bytes) (is.map item) := by
  induction is with
  | nil => exact .nil
  | cons i is ih =>
    obtain ⟨hi, his⟩ := forall_mem_cons.mp h
    exact .cons (hi _) (ih his)

lemma Reads.append (h : Sequential next) (h1 : Reads next l1 bs1)
    (h2 : Reads next l2 bs2) : Reads next (l1 ++ l2) (bs1 ++ bs2) := by
  induction h1 with
  | nil => exact h2
  | cons hn _ ih =>
    obtain ⟨e, rfl, he⟩ := h.front _ _ _ hn
    rw [append_assoc]
    exact .cons (he _) ih

lemma Reads.of_append (h : Sequential next) (h1 : Reads next l1 bs1)
    (ha : Reads next (l1 ++ l2) bs) : ∃ bs2, bs = bs1 ++ bs2 ∧ Reads next l2 bs2 := by
  induction h1 generalizing bs with
  | nil => exact ⟨bs, rfl, ha⟩
  | cons hn _ ih =>
    obtain ⟨e, rfl, he⟩ := h.front _ _ _ hn
    rw [append_assoc] at ha
    generalize hl : e ++ (_ ++ l2) = l at ha
    cases ha with
    | nil =>
      obtain ⟨rfl, -⟩ := append_eq_nil_iff.mp hl
      have hni := he []
      rw [nil_append, h.nil] at hni
      cases hni
    | cons hn' hr =>
      rw [← hl, he] at hn'
      cases hn'
      obtain ⟨bs2, rfl, hre⟩ := ih hr
      exact ⟨bs2, rfl, hre⟩

lemma Reads.unique (h : Sequential next) (h1 : Reads next l bs)
    (h2 : Reads next l bs') : bs = bs' := by
  rw [← append_nil l] at h2
  obtain ⟨bs2, rfl, hni⟩ := h1.of_append h h2
  cases hni with
  | nil => rw [append_nil]
  | cons hn =>
    rw [h.nil] at hn
    cases hn

lemma reads_map (hm : ∀ l, next' l = (next l).map (fun x => (f x.1, x.2))) :
    Reads next' l cs ↔ ∃ bs, Reads next l bs ∧ cs = bs.map f := by
  constructor
  · intro h
    induction h with
    | nil => exact ⟨[], .nil, rfl⟩
    | cons hn _ ih =>
      obtain ⟨bs, hbs, rfl⟩ := ih
      rw [hm] at hn
      obtain ⟨⟨b, rest⟩, hb, heq⟩ := map_eq_some_iff.mp hn
      cases heq
      exact ⟨b :: bs, .cons hb hbs, rfl⟩
  · rintro ⟨bs, hbs, rfl⟩
    induction hbs with
    | nil => exact .nil
    | cons hn _ ih => exact .cons (by rw [hm, hn]; rfl) ih

end

/-! ## Loops -/

section

variable {next : List α → Except ε (β × List α)} {step : σ → β → Except ε σ} {fuel : Nat} {s s' : σ}
  {l : List α}

/-- Read items to the end; the length is fuel enough. -/
def loop (next : List α → Except ε (β × List α)) (step : σ → β → Except ε σ) :
    Nat → σ → List α → Except ε σ
  | _, s, [] => .ok s
  | 0, s, _ => .ok s
  | fuel + 1, s, l => do
    let (b, rest) ← next l
    loop next step fuel (← step s b) rest

/-- **A loop is a fold over the items.** -/
lemma loop_eq_ok_iff (h : Sequential (fun l => (next l).toOption)) (hfu : l.length ≤ fuel) :
    loop next step fuel s l = .ok s' ↔
      ∃ bs, Reads (fun l => (next l).toOption) l bs ∧ bs.foldlM step s = .ok s' := by
  induction fuel generalizing s l with
  | zero =>
    obtain rfl := length_eq_zero_iff.mp (Nat.le_zero.mp hfu)
    refine ⟨fun heq => ⟨[], .nil, heq⟩, ?_⟩
    rintro ⟨bs, hr, hf⟩
    obtain rfl := hr.unique h .nil
    exact hf
  | succ fuel ih =>
    cases l with
    | nil =>
      refine ⟨fun heq => ⟨[], .nil, heq⟩, ?_⟩
      rintro ⟨bs, hr, hf⟩
      obtain rfl := hr.unique h .nil
      exact hf
    | cons a l =>
      simp only [loop, bind_eq_ok]
      constructor
      · rintro ⟨⟨b, rest⟩, hn, s1, hs, hl⟩
        have ho : (next (a :: l)).toOption = some (b, rest) := by rw [hn]; rfl
        have hsh := h.shorter ho
        obtain ⟨bs, hr, hf⟩ := (ih (by simp only [length_cons] at *; omega)).mp hl
        exact ⟨b :: bs, .cons ho hr, by rw [foldlM_cons, hs]; exact hf⟩
      · rintro ⟨bs, hr, hf⟩
        cases hr with
        | cons ho hre =>
          rename_i bs
          have hsh := h.shorter ho
          rw [foldlM_cons] at hf
          obtain ⟨s1, hs, hf⟩ := bind_eq_ok.mp hf
          cases hn : next (a :: l) with
          | error =>
            rw [hn] at ho
            cases ho
          | ok =>
            rw [hn] at ho
            cases ho
            exact ⟨_, rfl, s1, hs, (ih (by simp only [length_cons] at *; omega)).mpr ⟨bs, hre, hf⟩⟩

section

variable {next : List α → Except ε (List α × List α)} {P : List α → Prop} {n : Nat}
  {acc pieces new : List (List α)}

lemma length_of_piece (hP : ∀ piece, P piece → piece ≠ []) (h : l = piece ++ rest)
    (hp : P piece) (hfuel : l.length ≤ fuel + 1) : rest.length ≤ fuel ∧ rest.length ≤ l.length := by
  have hpos := length_pos_iff.mpr (hP piece hp)
  rw [h, length_append] at *
  omega

lemma collect_of_loop
    (hn : ∀ l piece rest, l.length ≤ n → next l = .ok (piece, rest) → l = piece ++ rest ∧ P piece)
    (hP : ∀ piece, P piece → piece ≠ []) (hf : l.length ≤ fuel) (hl : l.length ≤ n)
    (h : loop next (fun acc piece => .ok (acc ++ [piece])) fuel acc l = .ok pieces) :
    ∃ new, pieces = acc ++ new ∧ new.flatten = l ∧ ∀ piece ∈ new, P piece := by
  induction fuel generalizing acc l with
  | zero =>
    obtain rfl := length_eq_zero_iff.mp (Nat.le_zero.mp hf)
    cases h
    exact ⟨[], (append_nil _).symm, rfl, fun _ h => (not_mem_nil h).elim⟩
  | succ fuel ih =>
    cases l with
    | nil =>
      cases h
      exact ⟨[], (append_nil _).symm, rfl, fun _ h => (not_mem_nil h).elim⟩
    | cons =>
      simp only [loop, bind_eq_ok] at h
      obtain ⟨⟨piece, rest⟩, ht, _, ⟨⟩, hlo⟩ := h
      obtain ⟨heq, hp⟩ := hn _ _ _ hl ht
      obtain ⟨hr, hs⟩ := length_of_piece hP heq hp hf
      obtain ⟨new, rfl, rfl, hne⟩ := ih hr (Nat.le_trans hs hl) hlo
      exact ⟨piece :: new, by simp, heq.symm, forall_mem_cons.mpr ⟨hp, hne⟩⟩

lemma loop_of_collect (hn : ∀ piece rest, (piece ++ rest).length ≤ n → P piece →
      next (piece ++ rest) = .ok (piece, rest))
    (hP : ∀ piece, P piece → piece ≠ []) (hf : new.flatten.length ≤ fuel)
      (hl : new.flatten.length ≤ n) (h : ∀ piece ∈ new, P piece) :
    loop next (fun acc piece => .ok (acc ++ [piece])) fuel acc new.flatten = .ok (acc ++ new) := by
  induction new generalizing acc fuel with
  | nil =>
    rw [append_nil]
    cases fuel <;> rfl
  | cons piece new ih =>
    obtain ⟨hp, hne⟩ := forall_mem_cons.mp h
    rw [flatten_cons] at hf hl ⊢
    obtain ⟨a, tail, rfl⟩ := exists_cons_of_ne_nil (hP piece hp)
    cases fuel with
    | zero => cases hf
    | succ =>
      obtain ⟨hr, hsh⟩ := length_of_piece hP rfl hp hf
      have hs := hn (a :: tail) new.flatten hl hp
      simp only [cons_append, loop] at hs ⊢
      rw [hs]
      exact (ih hr (Nat.le_trans hsh hl) hne).trans (by simp)

end

end

end Items

end TrustTunnel.Lib
