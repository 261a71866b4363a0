import Mathlib.Algebra.BigOperators.Group.List.Basic
import Mathlib.Algebra.Ring.Int.Defs
import Mathlib.Data.List.AList

/-!
# Keyed tables

A hash map is an `AList`; what Mathlib lacks is added here.
-/

namespace TrustTunnel.Lib

open List AList

abbrev Table (K V : Type) := AList (fun _ : K => V)

namespace Table

variable {K V : Type} [DecidableEq K]

lemma mem_of_lookup {t : Table K V} {k : K} {v : V} (h : t.lookup k = some v) : k ∈ t :=
  lookup_isSome.mp (by rw [h]; rfl)

lemma exists_lookup {t : Table K V} {k : K} (h : k ∈ t) : ∃ v, t.lookup k = some v :=
  Option.isSome_iff_exists.mp (lookup_isSome.mpr h)

lemma lookup_insert_of_notMem {t : Table K V} {k new : K} {v : V} (h : t.lookup k = some v)
    (hn : new ∉ t) (w : V) : (t.insert new w).lookup k = some v := by
  have hne : k ≠ new := by
    rintro rfl
    exact hn (mem_of_lookup h)
  rwa [lookup_insert_ne hne]

lemma lookup_insert_cases {t : Table K V} {k k' : K} {v w : V}
    (h : (t.insert k v).lookup k' = some w) :
    (k' = k ∧ w = v) ∨ (k' ≠ k ∧ t.lookup k' = some w) := by
  by_cases hk : k' = k
  · subst hk
    rw [lookup_insert] at h
    cases h
    exact .inl ⟨rfl, rfl⟩
  · rw [lookup_insert_ne hk] at h
    exact .inr ⟨hk, h⟩

lemma lookup_erase_cases {t : Table K V} {k k' : K} {w : V}
    (h : (t.erase k).lookup k' = some w) : k' ≠ k ∧ t.lookup k' = some w := by
  by_cases hk : k' = k
  · subst hk
    rw [lookup_erase] at h
    cases h
  · rw [lookup_erase_ne hk] at h
    exact ⟨hk, h⟩

lemma mem_foldl_insert {α : Type} (key : α → K) (value : α → V) (l : List α) (t : Table K V)
    (k : K) : k ∈ l.foldl (fun t x => t.insert (key x) (value x)) t ↔
      k ∈ t ∨ ∃ x ∈ l, key x = k := by
  induction l generalizing t with
  | nil => simp
  | cons a l ih =>
    rw [foldl_cons, ih, mem_insert]
    simp only [mem_cons, exists_eq_or_imp]
    constructor
    · rintro ((rfl | h) | h)
      · exact .inr (.inl rfl)
      · exact .inl h
      · exact .inr (.inr h)
    · rintro (h | rfl | h)
      · exact .inl (.inr h)
      · exact .inl (.inl rfl)
      · exact .inr h

lemma lookup_foldl_insert {α : Type} (key : α → K) (value : α → V) {l : List α} {k : K} {v : V}
    (hv : ∀ x ∈ l, key x = k → value x = v) (t : Table K V)
    (hk : t.lookup k = some v ∨ ∃ x ∈ l, key x = k) :
    (l.foldl (fun t x => t.insert (key x) (value x)) t).lookup k = some v := by
  induction l generalizing t with
  | nil => simpa using hk
  | cons a l ih =>
    refine ih (fun x hx => hv x (mem_cons_of_mem a hx)) (t.insert (key a) (value a)) ?_
    by_cases ha : key a = k
    · left
      rw [ha, lookup_insert, hv a mem_cons_self ha]
    · rw [lookup_insert_ne (Ne.symm ha)]
      refine hk.imp_right ?_
      rintro ⟨x, hx, hxk⟩
      exact ⟨x, (mem_cons.mp hx).resolve_left (fun e => ha (e ▸ hxk)), hxk⟩

/-- Remove the keys of `ks`, one after the other. -/
def eraseAll (t : Table K V) (ks : List K) : Table K V :=
  ks.foldl (fun t k => t.erase k) t

@[simp] lemma mem_eraseAll (t : Table K V) (ks : List K) (k : K) :
    k ∈ eraseAll t ks ↔ k ∉ ks ∧ k ∈ t := by
  induction ks generalizing t with
  | nil => simp [eraseAll]
  | cons a ks ih =>
    have h := ih (t.erase a)
    simp only [eraseAll, foldl_cons] at h ⊢
    rw [h, mem_erase, mem_cons, not_or]
    tauto

lemma lookup_eraseAll (t : Table K V) (ks : List K) (k : K) :
    (eraseAll t ks).lookup k = if k ∈ ks then none else t.lookup k := by
  induction ks generalizing t with
  | nil => rfl
  | cons a ks ih =>
    have h := ih (t.erase a)
    simp only [eraseAll, foldl_cons] at h ⊢
    rw [h]
    by_cases ha : k = a
    · subst ha
      simp [lookup_erase]
    · rw [lookup_erase_ne ha]
      simp [ha]

/-- The keys whose value passes the test `p`. -/
def keysWhere (t : Table K V) (p : V → Bool) : List K :=
  (t.entries.filter (fun e => p e.2)).map Sigma.fst

lemma mem_keysWhere {t : Table K V} {p : V → Bool} {k : K} :
    k ∈ keysWhere t p ↔ ∃ v, t.lookup k = some v ∧ p v := by
  constructor
  · intro h
    obtain ⟨⟨k', v⟩, he, rfl⟩ := mem_map.mp h
    obtain ⟨hm, hp⟩ := mem_filter.mp he
    exact ⟨v, mem_lookup_iff.mpr hm, hp⟩
  · rintro ⟨v, hv, hp⟩
    exact mem_map.mpr ⟨⟨k, v⟩, mem_filter.mpr ⟨mem_lookup_iff.mp hv, hp⟩, rfl⟩

omit [DecidableEq K] in
lemma nodup_keysWhere (t : Table K V) (p : V → Bool) : (keysWhere t p).Nodup :=
  t.keys_nodup.sublist (filter_sublist.map Sigma.fst)

lemma entries_of_lookup {t : Table K V} {k : K} {v : V} (h : t.lookup k = some v) :
    ∃ l1 l2, t.entries = l1 ++ ⟨k, v⟩ :: l2 ∧ (t.erase k).entries = l1 ++ l2 := by
  obtain ⟨v', l1, l2, -, he, her⟩ := exists_of_kerase (mem_of_lookup h)
  have hm : v' ∈ t.lookup k := mem_lookup_iff.mpr (by simp [he])
  rw [h] at hm
  cases hm
  exact ⟨l1, l2, he, her⟩

/-- The number of values that pass the test `p`. -/
def count (t : Table K V) (p : V → Bool) : Nat := t.entries.countP (fun e => p e.2)

lemma count_erase {t : Table K V} {k : K} {v : V} (h : t.lookup k = some v) (p : V → Bool) :
    count t p = count (t.erase k) p + (p v).toNat := by
  obtain ⟨l1, l2, he, her⟩ := entries_of_lookup h
  rw [count, count, her, he, countP_append, countP_append, countP_cons]
  cases p v <;> simp +arith

lemma count_insert (t : Table K V) (k : K) (v : V) (p : V → Bool) :
    count (t.insert k v) p = count (t.erase k) p + (p v).toNat := by
  have he : (t.erase k).entries = t.entries.kerase k := rfl
  rw [count, count, entries_insert, he, countP_cons]
  cases p v <;> simp

lemma count_erase_of_notMem {t : Table K V} {k : K} (h : k ∉ t) (p : V → Bool) :
    count (t.erase k) p = count t p := by
  have he : (t.erase k).entries = t.entries := kerase_of_notMem_keys h
  rw [count, count, he]

/-- The sum of `f` over the entries. -/
def sum (t : Table K V) (f : K → V → Int) : Int := (t.entries.map (fun e => f e.1 e.2)).sum

omit [DecidableEq K] in
@[simp] lemma sum_empty (f : K → V → Int) : sum (∅ : Table K V) f = 0 := rfl

lemma sum_eq_zero {t : Table K V} {f : K → V → Int}
    (h : ∀ k v, t.lookup k = some v → f k v = 0) : sum t f = 0 := by
  have hz : ∀ e ∈ t.entries, f e.1 e.2 = 0 :=
    fun e he => h e.1 e.2 (mem_lookup_iff.mpr he)
  rw [sum, map_congr_left hz]
  simp

lemma sum_erase {t : Table K V} {k : K} {v : V} (h : t.lookup k = some v) (f : K → V → Int) :
    sum (t.erase k) f = sum t f - f k v := by
  obtain ⟨l1, l2, he, her⟩ := entries_of_lookup h
  rw [sum, sum, her, he]
  simp only [map_append, map_cons, sum_append, sum_cons]
  omega

lemma sum_insert_of_notMem (h : k ∉ t) (v : V) (f : K → V → Int) :
    sum (t.insert k v) f = sum t f + f k v := by
  have he : t.entries.kerase k = t.entries := kerase_of_notMem_keys h
  rw [sum, sum, entries_insert, he, map_cons, sum_cons, Int.add_comm]

lemma sum_insert_of_lookup (h : t.lookup k = some w) (v : V)
    (f : K → V → Int) : sum (t.insert k v) f = sum t f - f k w + f k v := by
  rw [← sum_erase h f, sum, sum, entries_insert, map_cons, sum_cons, Int.add_comm]
  rfl

omit [DecidableEq K] in
lemma count_eq_sum (t : Table K V) (p : V → Bool) :
    (count t p : Int) = sum t (fun _ v => if p v then 1 else 0) := by
  rw [count, sum]
  induction t.entries with
  | nil => rfl
  | cons e l ih =>
    rw [countP_cons, map_cons, sum_cons, Int.natCast_add, ih, Int.add_comm]
    cases p e.2 <;> rfl

end Table

end TrustTunnel.Lib
