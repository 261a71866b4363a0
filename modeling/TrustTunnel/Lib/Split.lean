import Mathlib.Data.List.Basic

/-!
# Splitting at a separator

`splitOnce` cuts a list at the first occurrence of a separator.
-/

namespace TrustTunnel.Lib

variable {α : Type} [DecidableEq α]

/-- What comes before and after the first `sep`. -/
def splitOnce (sep : α) : List α → Option (List α × List α)
  | [] => none
  | a :: l => if a = sep then some ([], l) else (splitOnce sep l).map (fun x => (a :: x.1, x.2))

lemma splitOnce_append (ha : sep ∉ a) (b : List α) :
    splitOnce sep (a ++ sep :: b) = some (a, b) := by
  induction a with
  | nil => simp [splitOnce]
  | cons x a ih =>
    obtain ⟨hx, ha⟩ := not_or.mp (mt List.mem_cons.mpr ha)
    have hne : ¬ x = sep := fun h => hx h.symm
    simp [splitOnce, hne, ih ha]

lemma splitOnce_eq_none {sep : α} {l : List α} : splitOnce sep l = none ↔ sep ∉ l := by
  induction l with
  | nil => simp [splitOnce]
  | cons a l ih =>
    by_cases h : a = sep
    · simp [splitOnce, h]
    · have hne : ¬ sep = a := fun h' => h h'.symm
      simp [splitOnce, h, hne, ih]

lemma splitOnce_eq_some {sep : α} {l a b : List α} :
    splitOnce sep l = some (a, b) ↔ l = a ++ sep :: b ∧ sep ∉ a := by
  constructor
  · intro h
    induction l generalizing a with
    | nil => cases h
    | cons x l ih =>
      by_cases hx : x = sep
      · simp only [splitOnce, hx, ↓reduceIte, Option.some.injEq, Prod.mk.injEq] at h
        obtain ⟨rfl, rfl⟩ := h
        exact ⟨by rw [hx, List.nil_append], List.not_mem_nil⟩
      · rw [splitOnce, if_neg hx] at h
        obtain ⟨⟨a', b'⟩, h', heq⟩ := Option.map_eq_some_iff.mp h
        cases heq
        obtain ⟨rfl, ha'⟩ := ih h'
        exact ⟨rfl, mt List.mem_cons.mp (not_or.mpr ⟨fun h => hx h.symm, ha'⟩)⟩
  · rintro ⟨rfl, ha⟩
    exact splitOnce_append ha b

end TrustTunnel.Lib
