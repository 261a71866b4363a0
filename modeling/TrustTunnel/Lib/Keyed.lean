import Mathlib.Data.List.Basic

/-!
# Updates under keys

Updates with different keys commute.
-/

namespace TrustTunnel.Lib.Keyed

open List

variable {α κ σ : Type} (key : α → κ)

def keepLast [DecidableEq κ] (k : κ) : List α → List α
  | [] => []
  | a :: l => if key a = k ∧ ∃ b ∈ l, key b = k then keepLast k l else a :: keepLast k l

variable {key} {f : σ → α → σ}

lemma foldl_past (hco : ∀ a b s, key a ≠ key b → f (f s a) b = f (f s b) a) {a : α} {l : List α}
    (hl : ∀ b ∈ l, key b ≠ key a) (s : σ) : l.foldl f (f s a) = f (l.foldl f s) a := by
  induction l generalizing s with
  | nil => rfl
  | cons b l ih =>
    rw [foldl_cons, foldl_cons, hco a b s (Ne.symm (hl b mem_cons_self)),
      ih (fun c hc => hl c (mem_cons_of_mem b hc))]

lemma foldl_undone (hco : ∀ a b s, key a ≠ key b → f (f s a) b = f (f s b) a) {a : α}
    {l : List α} (hu : ∀ b ∈ l, key b = key a → ∀ s, f (f s a) b = f s b)
    (hl : ∃ b ∈ l, key b = key a) (s : σ) : l.foldl f (f s a) = l.foldl f s := by
  induction l generalizing s with
  | nil =>
    obtain ⟨b, hb, -⟩ := hl
    cases hb
  | cons b l ih =>
    by_cases hb : key b = key a
    · rw [foldl_cons, foldl_cons, hu b mem_cons_self hb]
    · have hl' : ∃ c ∈ l, key c = key a := by
        obtain ⟨c, hc, hk⟩ := hl
        rcases mem_cons.mp hc with rfl | hc
        · exact absurd hk hb
        · exact ⟨c, hc, hk⟩
      rw [foldl_cons, foldl_cons, hco a b s (Ne.symm hb),
        ih (fun c hc => hu c (mem_cons_of_mem b hc)) hl']

variable [DecidableEq κ]

section

variable {k : κ} {l l1 l2 : List α} {a : α}

lemma mem_of_mem_keepLast (h : a ∈ keepLast key k l) : a ∈ l := by
  induction l with
  | nil => exact h
  | cons b l ih =>
    unfold keepLast at h
    split at h
    · exact mem_cons_of_mem b (ih h)
    · rcases mem_cons.mp h with rfl | h
      · exact mem_cons_self
      · exact mem_cons_of_mem b (ih h)

lemma exists_split
    (h : ∀ k, (a :: l1).filter (fun b => key b = k) = l2.filter (fun b => key b = k)) :
    ∃ p q, l2 = p ++ a :: q ∧ (∀ b ∈ p, key b ≠ key a) ∧
      ∀ k, l1.filter (fun b => key b = k) = (p ++ q).filter (fun b => key b = k) := by
  have ha := h (key a)
  rw [filter_cons_of_pos (by simp)] at ha
  obtain ⟨p, q, rfl, hp, -, hq⟩ := filter_eq_cons_iff.mp ha.symm
  have hp' : ∀ b ∈ p, key b ≠ key a := fun b hb => by simpa using hp b hb
  refine ⟨p, q, rfl, hp', fun k => ?_⟩
  by_cases hk : key a = k
  · subst hk
    have hn : p.filter (fun b => key b = key a) = [] :=
      filter_eq_nil_iff.mpr (by simpa using hp')
    rw [filter_append, hn, nil_append, hq]
  · have hal := h k
    rw [filter_cons_of_neg (by simpa using hk), filter_append,
      filter_cons_of_neg (by simpa using hk)] at hal
    rw [hal, filter_append]

lemma foldl_eq_of_filter_eq (hc : ∀ a b s, key a ≠ key b → f (f s a) b = f (f s b) a)
    (h : ∀ k, l1.filter (fun a => key a = k) = l2.filter (fun a => key a = k)) (s : σ) :
    l1.foldl f s = l2.foldl f s := by
  induction l1 generalizing l2 s with
  | nil =>
    cases l2 with
    | nil => rfl
    | cons a =>
      have ha := h (key a)
      rw [filter_nil, filter_cons_of_pos (by simp)] at ha
      cases ha
  | cons a l1 ih =>
    obtain ⟨p, q, rfl, hp, hr⟩ := exists_split h
    rw [foldl_cons, ih hr, foldl_append, foldl_append, foldl_cons, foldl_past hc hp]

lemma mem_of_filter_eq (h : ∀ k, l1.filter (fun a => key a = k) = l2.filter (fun a => key a = k))
    (ha : a ∈ l1) : a ∈ l2 := by
  have hm : a ∈ l1.filter (fun b => key b = key a) := mem_filter.mpr ⟨ha, by simp⟩
  rw [h] at hm
  exact (mem_filter.mp hm).1

lemma foldl_keepLast (hco : ∀ a b s, key a ≠ key b → f (f s a) b = f (f s b) a)
    (hu : ∀ a ∈ l, ∀ b ∈ l, key a = k → key b = k → ∀ s, f (f s a) b = f s b) (s : σ) :
    (keepLast key k l).foldl f s = l.foldl f s := by
  induction l generalizing s with
  | nil => rfl
  | cons a l ih =>
    have hu' : ∀ c ∈ l, ∀ b ∈ l, key c = k → key b = k → ∀ s, f (f s c) b = f s b :=
      fun c hc b hb => hu c (mem_cons_of_mem a hc) b (mem_cons_of_mem a hb)
    unfold keepLast
    split
    · rename_i h
      obtain ⟨rfl, hl⟩ := h
      rw [foldl_cons, ih hu', foldl_undone hco (fun b hb hk =>
        hu a mem_cons_self b (mem_cons_of_mem a hb) rfl hk) hl]
    · rw [foldl_cons, foldl_cons, ih hu']

end

/-! ## Rearrangements -/

variable (key)

def keyed (k : κ) (l : List α) : List α := l.filter (fun a => key a = k)

/-- A rearrangement that keeps the order of elements with one key. -/
def SameOrder (l1 l2 : List α) : Prop := ∀ k, keyed key k l1 = keyed key k l2

def front (k : κ) (l : List α) : List α := keyed key k l ++ l.filter (fun a => key a ≠ k)

variable {key}

lemma mem_keyed : a ∈ keyed key k l ↔ a ∈ l ∧ key a = k := by
  rw [keyed, mem_filter, decide_eq_true_eq]

lemma keyed_append (k : κ) (l1 l2 : List α) :
    keyed key k (l1 ++ l2) = keyed key k l1 ++ keyed key k l2 :=
  filter_append ..

lemma keyed_cons (k : κ) (a : α) (l : List α) :
    keyed key k (a :: l) = if key a = k then a :: keyed key k l else keyed key k l := by
  simp [keyed, filter_cons]

lemma keyed_eq_nil (h : ∀ a ∈ l, key a ≠ k) : keyed key k l = [] := by
  refine eq_nil_iff_forall_not_mem.mpr fun a ha => ?_
  exact h a (mem_keyed.mp ha).1 (mem_keyed.mp ha).2

lemma keyed_eq_self (h : ∀ a ∈ l, key a = k) : keyed key k l = l :=
  filter_eq_self.mpr fun a ha => decide_eq_true (h a ha)

lemma SameOrder.mem_iff (h : SameOrder key l1 l2) (a : α) : a ∈ l1 ↔ a ∈ l2 :=
  ⟨mem_of_filter_eq h, mem_of_filter_eq fun k => (h k).symm⟩

variable (key) in
lemma sameOrder_front (k : κ) (l : List α) : SameOrder key l (front key k l) := by
  intro j
  rw [front, keyed_append]
  by_cases hj : j = k
  · subst hj
    have hr : keyed key j (l.filter (fun a => key a ≠ j)) = [] :=
      keyed_eq_nil fun a ha => of_decide_eq_true (mem_filter.mp ha).2
    rw [hr, append_nil, keyed_eq_self fun a ha => (mem_keyed.mp ha).2]
  · have hf : keyed key j (keyed key k l) = [] :=
      keyed_eq_nil fun a ha haj => hj (haj ▸ (mem_keyed.mp ha).2)
    rw [hf, nil_append, keyed, keyed, filter_filter]
    refine filter_congr fun a _ => ?_
    by_cases ha : key a = j
    · simp [ha, hj]
    · simp [ha]

end TrustTunnel.Lib.Keyed
