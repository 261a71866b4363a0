import Mathlib.Data.List.Infix

/-!
# Segmentations

Items arrive in segments; some may be cut anywhere, some not, and some must end one
(`Item.Respected`).
-/

namespace TrustTunnel.Lib.Segments

open List

variable {α : Type}

/-- There is a cut right after `x`. -/
def Boundary (segments : List (List α)) (x : List α) : Prop :=
  ∃ A, A <+: segments ∧ A.flatten = x

/-- An item may be cut anywhere, not inside, or so that a segment ends with it. -/
inductive Kind where
  | free
  | whole
  | closing

structure Item (α : Type) where
  kind : Kind
  elems : List α
  ne_nil : elems ≠ []

/-- The item that comes after `before` is cut as it may be. -/
def Item.Respected (segments : List (List α)) (before : List α) (item : Item α) : Prop :=
  match item.kind with
  | .free => True
  | .whole => ∀ x y, item.elems = x ++ y → x ≠ [] → y ≠ [] → ¬ Boundary segments (before ++ x)
  | .closing => Boundary segments (before ++ item.elems)

def RespectsFrom (segments : List (List α)) : List α → List (Item α) → Prop
  | _, [] => True
  | before, item :: items =>
    item.Respected segments before ∧ RespectsFrom segments (before ++ item.elems) items

def Respects (segments : List (List α)) (items : List (Item α)) : Prop :=
  RespectsFrom segments [] items

/-! ## Deciding it -/

lemma uncut_iff (elems : List α) (Q : List α → Prop) :
    (∀ x y, elems = x ++ y → x ≠ [] → y ≠ [] → Q x) ↔
      ∀ x ∈ elems.inits, x ≠ [] → x ≠ elems → Q x := by
  constructor
  · intro h x hx hne hlt
    obtain ⟨y, rfl⟩ := (mem_inits _ _).mp hx
    exact h x y rfl hne (by simpa using hlt)
  · rintro h x y rfl hx hy
    exact h x ((mem_inits _ _).mpr (prefix_append x y)) hx (by simpa using hy)

section

variable [DecidableEq α]

instance (segments : List (List α)) (x : List α) : Decidable (Boundary segments x) :=
  decidable_of_iff (∃ A ∈ segments.inits, A.flatten = x) (by simp [Boundary])

instance (segments : List (List α)) (before : List α) (item : Item α) :
    Decidable (item.Respected segments before) :=
  match h : item.kind with
  | .free => .isTrue (by simp [Item.Respected, h])
  | .whole => decidable_of_iff (∀ x ∈ item.elems.inits, x ≠ [] → x ≠ item.elems →
      ¬ Boundary segments (before ++ x)) (by
        simp only [Item.Respected, h]
        exact (uncut_iff item.elems fun x => ¬ Boundary segments (before ++ x)).symm)
  | .closing => decidable_of_iff (Boundary segments (before ++ item.elems)) (by
      simp [Item.Respected, h])

instance decidableRespectsFrom (segments : List (List α)) :
    (before : List α) → (items : List (Item α)) → Decidable (RespectsFrom segments before items)
  | _, [] => .isTrue trivial
  | before, item :: items =>
    have := decidableRespectsFrom segments (before ++ item.elems) items
    inferInstanceAs (Decidable (_ ∧ _))

instance (segments : List (List α)) (items : List (Item α)) : Decidable (Respects segments items) :=
  inferInstanceAs (Decidable (RespectsFrom segments [] items))

end

/-! ## Boundaries -/

section

variable {segments : List (List α)} {s x : List α}

lemma eq_nil_of_flatten (hne : ∀ s ∈ segments, s ≠ []) (h : segments.flatten = []) :
    segments = [] := by
  cases segments with
  | nil => rfl
  | cons s =>
    exact absurd (append_eq_nil_iff.mp h).1 (hne s mem_cons_self)

lemma boundary_nil_cons (segments : List (List α)) (x : List α) :
    Boundary ([] :: segments) x ↔ Boundary segments x := by
  constructor
  · rintro ⟨A, hA, rfl⟩
    cases A with
    | nil => exact ⟨[], nil_prefix, rfl⟩
    | cons a A =>
      obtain ⟨rfl, hr⟩ := cons_prefix_cons.mp hA
      exact ⟨A, hr, rfl⟩
  · rintro ⟨A, hA, rfl⟩
    exact ⟨[] :: A, cons_prefix_cons.mpr ⟨rfl, hA⟩, rfl⟩

lemma boundary_cons (hx : x ≠ []) :
    Boundary (s :: segments) x ↔ ∃ y, x = s ++ y ∧ Boundary segments y := by
  constructor
  · rintro ⟨A, hA, rfl⟩
    cases A with
    | nil => exact absurd rfl hx
    | cons a A =>
      obtain ⟨rfl, hr⟩ := cons_prefix_cons.mp hA
      exact ⟨A.flatten, rfl, A, hr, rfl⟩
  · rintro ⟨y, rfl, A, hA, rfl⟩
    exact ⟨s :: A, cons_prefix_cons.mpr ⟨rfl, hA⟩, rfl⟩

lemma boundary_append (b t : List α) (hz : z ≠ []) (segments : List (List α)) :
    Boundary ((b ++ t) :: segments) (b ++ z) ↔ Boundary (t :: segments) z := by
  rw [boundary_cons (by simp [hz]), boundary_cons hz]
  simp

lemma not_boundary_append (hb : b ≠ []) (ht : t ≠ [])
    (segments : List (List α)) : ¬ Boundary ((b ++ t) :: segments) b := by
  intro h
  obtain ⟨y, hy, -⟩ := (boundary_cons hb).mp h
  rw [append_assoc] at hy
  exact ht (append_eq_nil_iff.mp (self_eq_append_right.mp hy)).1

lemma boundary_merge (hx : v.length < x.length) (segments : List (List α)) :
    Boundary (v :: s :: segments) x ↔ Boundary ((v ++ s) :: segments) x := by
  have hne : x ≠ [] := by
    rintro rfl
    simp at hx
  rw [boundary_cons hne, boundary_cons hne]
  constructor
  · rintro ⟨y, rfl, hy⟩
    have hy' : y ≠ [] := by
      rintro rfl
      simp at hx
    obtain ⟨z, rfl, hz⟩ := (boundary_cons hy').mp hy
    exact ⟨z, by simp, hz⟩
  · rintro ⟨z, rfl, hz⟩
    refine ⟨s ++ z, by simp, ?_⟩
    by_cases hsz : s ++ z = []
    · exact ⟨[], nil_prefix, hsz.symm⟩
    · exact (boundary_cons hsz).mpr ⟨z, rfl, hz⟩

lemma Boundary.of_merge (h : Boundary ((v ++ s) :: segments) x) :
    Boundary (v :: s :: segments) x := by
  obtain ⟨A, hA, rfl⟩ := h
  cases A with
  | nil => exact ⟨[], nil_prefix, rfl⟩
  | cons a A =>
    obtain ⟨rfl, hr⟩ := cons_prefix_cons.mp hA
    exact ⟨v :: s :: A, by simpa using hr, by simp⟩

lemma Boundary.prefix_flatten (h : Boundary segments x) : x <+: segments.flatten := by
  obtain ⟨A, ⟨B, rfl⟩, rfl⟩ := h
  exact ⟨B.flatten, by rw [flatten_append]⟩

end

/-! ## Items -/

section

variable {segments left : List (List α)} {item : Item α} {v rest : List α}

lemma respectsFrom_of_length_le (h : segments.flatten.length ≤ before.length)
    (hi : ∀ item ∈ items, item.kind ≠ .closing) : RespectsFrom segments before items := by
  induction items generalizing before with
  | nil => trivial
  | cons item items ih =>
    refine ⟨?_, ih (by rw [length_append]; omega) (fun x hx => hi x (mem_cons_of_mem item hx))⟩
    unfold Item.Respected
    cases hk : item.kind with
    | free => trivial
    | whole =>
      intro x y _ hx _ hb
      have hl := hb.prefix_flatten.length_le
      have := length_pos_iff.mpr hx
      rw [length_append] at hl
      omega
    | closing => exact absurd hk (hi item mem_cons_self)

lemma respectsFrom_congr
    (h : ∀ z, z ≠ [] → (Boundary segments (b ++ z) ↔ Boundary segments' (b' ++ z)))
    (items : List (Item α)) : RespectsFrom segments b items ↔ RespectsFrom segments' b' items := by
  induction items generalizing b b' with
  | nil => exact Iff.rfl
  | cons item items ih =>
    refine and_congr ?_ (ih fun z hz => ?_)
    · unfold Item.Respected
      cases item.kind with
      | free => exact Iff.rfl
      | whole =>
        refine forall₂_congr fun x y => imp_congr_right fun _ => ?_
        refine forall_congr' fun hx => imp_congr_right fun _ => ?_
        rw [h x hx]
      | closing => exact h _ item.ne_nil
    · simpa using h (item.elems ++ z) (by simp [hz])

lemma respects_nil_cons (segments : List (List α)) (items : List (Item α)) :
    Respects ([] :: segments) items ↔ Respects segments items :=
  respectsFrom_congr (fun _ _ => boundary_nil_cons segments _) items

/-- A reader takes `b` off the segments, joining them until it is complete. -/
inductive Consumes (b : List α) : List (List α) → List (List α) → Prop
  | all (segments : List (List α)) : Consumes b (b :: segments) segments
  | rest {t : List α} (ht : t ≠ []) (segments : List (List α)) :
      Consumes b ((b ++ t) :: segments) (t :: segments)
  | more {v s : List α} {segments left : List (List α)} (hv : v.length < b.length)
      (h : Consumes b ((v ++ s) :: segments) left) : Consumes b (v :: s :: segments) left

lemma Consumes.of_append (t : List α) (segments : List (List α)) :
    Consumes b ((b ++ t) :: segments) (if t = [] then segments else t :: segments) := by
  split
  · rename_i ht
    subst ht
    rw [append_nil]
    exact .all segments
  · rename_i ht
    exact .rest ht segments

lemma Consumes.boundary (h : Consumes b segments left) (hz : z ≠ []) :
    Boundary segments (b ++ z) ↔ Boundary left z := by
  induction h with
  | all segments =>
    have := boundary_append b [] hz segments
    rwa [append_nil, boundary_nil_cons] at this
  | rest _ segments => exact boundary_append b _ hz segments
  | more hv _ ih =>
    rw [← ih]
    refine boundary_merge ?_ _
    rw [length_append]
    omega

lemma Consumes.respectsFrom (h : Consumes b segments left) (items : List (Item α)) :
    RespectsFrom segments b items ↔ Respects left items :=
  respectsFrom_congr (fun _ hz => h.boundary hz) items

lemma Consumes.respects_free (hk : item.kind = .free) (h : Consumes item.elems segments left)
    (items : List (Item α)) : Respects segments (item :: items) ↔ Respects left items := by
  rw [← h.respectsFrom items]
  simp [Respects, RespectsFrom, Item.Respected, hk]

lemma respects_whole (hk : item.kind = .whole) (t : List α) (segments : List (List α))
    (items : List (Item α)) :
    Respects ((item.elems ++ t) :: segments) (item :: items) ↔ Respects (t :: segments) items := by
  have hu : item.Respected ((item.elems ++ t) :: segments) [] := by
    simp only [Item.Respected, hk, nil_append]
    rintro x y hxy hx hy hb
    obtain ⟨z, hz, -⟩ := (boundary_cons hx).mp hb
    have hl := congrArg length hz
    rw [hxy] at hl
    have := length_pos_iff.mpr hy
    simp only [length_append] at hl
    omega
  have hr : RespectsFrom ((item.elems ++ t) :: segments) item.elems items ↔
      Respects (t :: segments) items :=
    respectsFrom_congr (fun z hz => boundary_append item.elems t hz segments) items
  rw [← hr]
  simp [Respects, RespectsFrom, hu]

lemma not_respects_whole (hk : item.kind = .whole) (hi : item.elems = v ++ y)
    (hv : v ≠ []) (hy : y ≠ []) (segments : List (List α)) (items : List (Item α)) :
    ¬ Respects (v :: segments) (item :: items) := by
  rintro ⟨hu, -⟩
  simp only [Item.Respected, hk, nil_append] at hu
  exact hu v y hi hv hy ⟨[v], by simp, by simp⟩

lemma respects_closing (item : Item α) (hk : item.kind = .closing)
    (segments : List (List α)) (items : List (Item α)) :
    Respects (item.elems :: segments) (item :: items) ↔ Respects segments items := by
  have hc : item.Respected (item.elems :: segments) [] := by
    simp only [Item.Respected, hk, nil_append]
    exact ⟨[item.elems], by simp, by simp⟩
  rw [← (Consumes.all (b := item.elems) segments).respectsFrom items]
  simp [Respects, RespectsFrom, hc]

lemma not_respects_closing (item : Item α) (hk : item.kind = .closing)
    (ht : t ≠ []) (segments : List (List α)) (items : List (Item α)) :
    ¬ Respects ((item.elems ++ t) :: segments) (item :: items) := by
  rintro ⟨hc, -⟩
  simp only [Item.Respected, hk, nil_append] at hc
  obtain ⟨z, hz, -⟩ := (boundary_cons item.ne_nil).mp hc
  have hl := congrArg length hz
  have := length_pos_iff.mpr ht
  simp only [length_append] at hl
  omega

lemma respects_merge (hk : item.kind ≠ .whole) (hv : v.length < item.elems.length)
    (segments : List (List α)) (items : List (Item α)) :
    Respects (v :: s :: segments) (item :: items) ↔
      Respects ((v ++ s) :: segments) (item :: items) := by
  refine and_congr ?_ (respectsFrom_congr (fun z _ => boundary_merge ?_ segments) items)
  · unfold Item.Respected
    cases hc : item.kind with
    | free => exact Iff.rfl
    | whole => exact absurd hc hk
    | closing => exact boundary_merge (by simpa using hv) segments
  · simp only [nil_append, length_append]
    omega

lemma cut_or_whole (h : (v :: segments).flatten = b ++ rest) :
    (∃ y, b = v ++ y ∧ y ≠ [] ∧ segments ≠ []) ∨
      ∃ t, v = b ++ t ∧ (t :: segments).flatten = rest := by
  rw [flatten_cons] at h
  rcases append_eq_append_iff.mp h with ⟨y, hb, hs⟩ | ⟨t, hv, hr⟩
  · by_cases hy : y = []
    · subst hy
      exact .inr ⟨[], by simp [hb], hs⟩
    · refine .inl ⟨y, hb, hy, ?_⟩
      rintro rfl
      exact hy (append_eq_nil_iff.mp hs.symm).1
  · exact .inr ⟨t, hv, hr.symm⟩

/-- **Induction along an item**: as long as the first segment cuts `b`, the next one is joined
to it. -/
@[elab_as_elim]
lemma joining {b : List α} {motive : List α → List (List α) → Prop}
    (h : (v :: segments).flatten = b ++ rest)
    (complete : ∀ t segments, (t :: segments).flatten = rest → motive (b ++ t) segments)
    (more : ∀ v s segments, v <+: b → v.length < b.length → motive (v ++ s) segments →
      motive v (s :: segments)) : motive v segments := by
  induction segments generalizing v with
  | nil =>
    rcases cut_or_whole h with ⟨_, _, _, hne⟩ | ⟨t, rfl, ht⟩
    · exact absurd rfl hne
    · exact complete t [] ht
  | cons s segments ih =>
    rcases cut_or_whole h with ⟨y, rfl, hy, _⟩ | ⟨t, rfl, ht⟩
    · refine more v s segments (prefix_append v y) ?_ (ih (by simpa using h))
      have := length_pos_iff.mpr hy
      rw [length_append]
      omega
    · exact complete t (s :: segments) ht

/-- A reader that buffers `b` comes to all of it with `t` after it, empty exactly if there was a
cut. -/
lemma joined {β : Type} {b : List α} {F : List α → List (List α) → β} (hb : b ≠ [])
    (h : (v :: segments).flatten = b ++ rest)
    (hm : ∀ x s rest, Boundary (v :: segments) x → x <+: b → x.length < b.length →
      F x (s :: rest) = F (x ++ s) rest) :
    ∃ t segments', F v segments = F (b ++ t) segments' ∧ (t :: segments').flatten = rest ∧
      (t = [] ↔ Boundary (v :: segments) b) ∧
      ∀ z, z ≠ [] → (Boundary (v :: segments) (b ++ z) ↔ Boundary (t :: segments') z) := by
  revert hm
  refine joining h (fun t segments ht _ => ?_) (fun v s segments hp hv ih hm => ?_)
  · refine ⟨t, segments, rfl, ht, ?_, fun z hz => boundary_append b t hz segments⟩
    by_cases hn : t = []
    · subst hn
      exact iff_of_true rfl ⟨[b ++ []], by simp, by simp⟩
    · exact iff_of_false hn (not_boundary_append hb hn segments)
  · obtain ⟨t, segments', hF, hr, hcu, hc⟩ := ih fun x s rest hx => hm x s rest hx.of_merge
    refine ⟨t, segments', ?_, hr, ?_, fun z hz => ?_⟩
    · rw [hm v s segments ⟨[v], by simp, by simp⟩ hp hv, hF]
    · rw [hcu, boundary_merge hv]
    · rw [boundary_merge (by rw [length_append]; omega), hc z hz]

lemma Consumes.exists {b : List α} (h : (v :: segments).flatten = b ++ rest) :
    ∃ left, Consumes b (v :: segments) left :=
  joining h (fun t segments _ => ⟨_, .of_append t segments⟩)
    fun _ _ _ _ hv ⟨left, hl⟩ => ⟨left, .more hv hl⟩

lemma Consumes.flatten (h : Consumes b segments left) : segments.flatten = b ++ left.flatten := by
  induction h with
  | all => rfl
  | rest => simp
  | more _ _ ih => simpa using ih

lemma Consumes.prefix_of_length (h : Consumes b (v :: segments) left)
    (hv : v.length ≤ b.length) : v <+: b := by
  have hv' : v <+: b ++ left.flatten := ⟨segments.flatten, by rw [← h.flatten]; rfl⟩
  exact prefix_of_prefix_length_le hv' (prefix_append b left.flatten) hv

lemma Consumes.ne_nil (h : Consumes b (v :: segments) left)
    (hse : ∀ s ∈ segments, s ≠ []) : ∀ s ∈ left, s ≠ [] := by
  generalize hw : v :: segments = w at h
  induction h generalizing v segments with
  | all =>
    cases hw
    exact hse
  | rest ht =>
    cases hw
    simpa [ht] using hse
  | more _ _ ih =>
    cases hw
    exact ih (fun s hs => hse s (mem_cons_of_mem _ hs)) rfl

lemma exists_consumes (hb : b ≠ []) (hne : ∀ s ∈ segments, s ≠ [])
    (h : segments.flatten = b ++ rest) :
    ∃ v segments' left, segments = v :: segments' ∧ Consumes b (v :: segments') left ∧
      left.flatten = rest ∧ ∀ s ∈ left, s ≠ [] := by
  cases segments with
  | nil => exact absurd (append_eq_nil_iff.mp h.symm).1 hb
  | cons v segments =>
    obtain ⟨left, hl⟩ := Consumes.exists h
    rw [hl.flatten] at h
    exact ⟨v, segments, left, rfl, hl, append_cancel_left h,
      hl.ne_nil fun s hs => hne s (mem_cons_of_mem v hs)⟩

lemma cut_or_consumes (hb : b ≠ []) (hne : ∀ s ∈ segments, s ≠ [])
    (h : segments.flatten ++ missing = b ++ rest) :
    (segments.flatten <+: b ∧ segments.flatten.length < b.length) ∨
      ∃ v segments' left, segments = v :: segments' ∧ Consumes b (v :: segments') left ∧
        left.flatten ++ missing = rest ∧ ∀ s ∈ left, s ≠ [] := by
  by_cases hs : segments.flatten.length < b.length
  · exact .inl ⟨prefix_of_prefix_length_le ⟨missing, h⟩ (prefix_append _ _)
      (Nat.le_of_lt hs), hs⟩
  · obtain ⟨x, hx⟩ : b <+: segments.flatten :=
      prefix_of_prefix_length_le ⟨rest, rfl⟩ ⟨missing, h⟩ (Nat.le_of_not_lt hs)
    obtain ⟨v, segments', left, rfl, hl, rfl, hleft_ne⟩ := exists_consumes hb hne hx.symm
    rw [← hx, append_assoc] at h
    exact .inr ⟨v, segments', left, rfl, hl, append_cancel_left h, hleft_ne⟩

end

end TrustTunnel.Lib.Segments
