import TrustTunnel.UdpRecords

/-!
# When records are emitted

A record should come out with its last byte. `decode_chunk` goes on only while there are bytes, so
one without payload waits for another's.
-/

namespace TrustTunnel.HttpUdpCodec

open Io List

/-! ## What a chunk emits -/

/-- The datagrams emitted while a chunk and its tails are decoded. -/
inductive Feeds : Decoder → Bytes → List Downstream.UdpDatagram → Decoder → Prop
  | more {d d' x} (h : d.decodeChunk x = some (d', .wantMore)) : Feeds d x [] d'
  | last {d d' x datagram} (h : d.decodeChunk x = some (d', .complete datagram [])) :
    Feeds d x [datagram] d'
  | tail {d d' d'' x datagram tail ds} (h : d.decodeChunk x = some (d', .complete datagram tail))
    (htail : tail ≠ []) (hrest : Feeds d' tail ds d'') : Feeds d x (datagram :: ds) d''

lemma Feeds.unique (h1 : Feeds d x ds1 d1) (h2 : Feeds d x ds2 d2) : ds1 = ds2 ∧ d1 = d2 := by
  induction h1 generalizing ds2 d2 with
  | more h =>
    cases h2 with
    | more h' =>
      cases h.symm.trans h'
      exact ⟨rfl, rfl⟩
    | last h' | tail h' => cases h.symm.trans h'
  | last h =>
    cases h2 with
    | more h' => cases h.symm.trans h'
    | last h' =>
      cases h.symm.trans h'
      exact ⟨rfl, rfl⟩
    | tail h' ht =>
      cases h.symm.trans h'
      exact absurd rfl ht
  | tail h ht _ ih =>
    cases h2 with
    | more h' => cases h.symm.trans h'
    | last h' =>
      cases h.symm.trans h'
      exact absurd rfl ht
    | tail h' _ hr =>
      cases h.symm.trans h'
      obtain ⟨rfl, rfl⟩ := ih hr
      exact ⟨rfl, rfl⟩

inductive FeedsAll : Decoder → List Bytes → List (List Downstream.UdpDatagram) → Prop
  | nil {d} : FeedsAll d [] []
  | cons {d d' x chunks ds dss} (h : Feeds d x ds d') (hrest : FeedsAll d' chunks dss) :
    FeedsAll d (x :: chunks) (ds :: dss)

/-! ## What a chunk should emit -/

section

variable {a b : Nat} {records past : List (Nat × Record)}

def ends : Nat → List Record → List (Nat × Record)
  | _, [] => []
  | start, r :: rs => (start + r.encode.length, r) :: ends (start + r.encode.length) rs

/-- Records that end behind `a` and not behind `b`. -/
def due (records : List (Nat × Record)) (a b : Nat) : List Downstream.UdpDatagram :=
  (records.filter (fun x => decide (a < x.1 ∧ x.1 ≤ b))).map (fun x => x.2.datagram)

def dueAll (records : List (Nat × Record)) : Nat → List Bytes → List (List Downstream.UdpDatagram)
  | _, [] => []
  | a, x :: chunks => due records a (a + x.length) :: dueAll records (a + x.length) chunks

def boundaries : Nat → List Bytes → List Nat
  | _, [] => []
  | a, x :: chunks => (a + x.length) :: boundaries (a + x.length) chunks

lemma lt_of_mem_ends (h : x ∈ ends start rs) : start < x.1 := by
  induction rs generalizing start with
  | nil => cases h
  | cons r rs ih =>
    have hp : 0 < r.encode.length := length_pos_iff.mpr r.encode_ne_nil
    rcases mem_cons.mp h with rfl | h
    · exact Nat.lt_add_of_pos_right hp
    · have := ih h
      omega

lemma le_of_mem_boundaries (h : b ∈ boundaries a chunks) : a ≤ b := by
  induction chunks generalizing a with
  | nil => cases h
  | cons x chunks ih =>
    rcases mem_cons.mp h with rfl | h
    · exact Nat.le_add_right a _
    · have := ih h
      omega

lemma due_eq_nil (h : ∀ x ∈ records, b < x.1) : due records a b = [] := by
  rw [due, filter_eq_nil_iff.mpr, map_nil]
  intro x hx
  have := h x hx
  simp only [decide_eq_true_eq]
  omega

lemma due_cons (ha : a < e) (hb : e ≤ b) (h : ∀ x ∈ records, e < x.1) :
    due ((e, r) :: records) a b = r.datagram :: due records e b := by
  have hs : records.filter (fun x => decide (a < x.1 ∧ x.1 ≤ b)) =
      records.filter (fun x => decide (e < x.1 ∧ x.1 ≤ b)) := by
    refine filter_congr (fun x hx => ?_)
    have := h x hx
    simp only [decide_eq_decide]
    omega
  rw [due, due, filter_cons_of_pos (by simp [ha, hb]), hs, map_cons]

lemma due_append (h : ∀ x ∈ past, x.1 ≤ a) : due (past ++ records) a b = due records a b := by
  have ho : past.filter (fun x => decide (a < x.1 ∧ x.1 ≤ b)) = [] := by
    refine filter_eq_nil_iff.mpr (fun x hx => ?_)
    have := h x hx
    simp only [decide_eq_true_eq]
    omega
  rw [due, due, filter_append, ho, nil_append]

lemma dueAll_append (h : ∀ x ∈ past, x.1 ≤ a) (chunks : List Bytes) :
    dueAll (past ++ records) a chunks = dueAll records a chunks := by
  induction chunks generalizing a with
  | nil => rfl
  | cons x chunks ih =>
    have hn : ∀ y ∈ past, y.1 ≤ a + x.length := fun y hy => by
      have := h y hy
      omega
    rw [dueAll, dueAll, due_append h, ih hn]

end

/-! ## Positions in a stream -/

/-- It has got `a` bytes and everything due is out. -/
inductive At (a : Nat) (d : Decoder) : List (Nat × Record) → Bytes → Prop
  | finished (hd : Ready d) : At a d [] []
  | inside {r rs bs} (hd : Awaits r d bs) (hbs : bs ≠ []) :
    At a d ((a + bs.length, r) :: ends (a + bs.length) rs) (bs ++ encodeAll rs)

lemma Ready.at (hd : Ready d) (a : Nat) (rs : List Record) :
    At a d (ends a rs) (encodeAll rs) := by
  cases rs with
  | nil => exact .finished hd
  | cons r => exact .inside (hd.awaits r) r.encode_ne_nil

/-- No record without payload ends at `b`. -/
def ClearAt (records : List (Nat × Record)) (b : Nat) : Prop :=
  ∀ x ∈ records, x.2.payload = [] → x.1 ≠ b

/-- `x` emits what is due, unless an empty record ends with it. -/
def Handles (a : Nat) (d : Decoder) (records : List (Nat × Record)) (rest x : Bytes) : Prop :=
  ∃ ds d', Feeds d x ds d' ∧
    (ClearAt records (a + x.length) →
      ds = due records a (a + x.length) ∧
        ∃ past records' rest', records = past ++ records' ∧ (∀ y ∈ past, y.1 ≤ a + x.length) ∧
          rest = x ++ rest' ∧ At (a + x.length) d' records' rest') ∧
    (¬ ClearAt records (a + x.length) → ds ≠ due records a (a + x.length))

section Inside

variable {a : Nat} {d : Decoder} {r : Record} {rs : List Record} {bs x : Bytes}

lemma handles_short (hd : Awaits r d (x ++ bs')) (hx : x ≠ []) (hbs' : bs' ≠ []) :
    Handles a d ((a + (x ++ bs').length, r) :: ends (a + (x ++ bs').length) rs)
      (x ++ bs' ++ encodeAll rs) x := by
  obtain ⟨d', hc, hd'⟩ := (progress_of_awaits hd).more x bs' hx rfl (.inl hbs')
  have hpos : 0 < bs'.length := length_pos_iff.mpr hbs'
  have hs : a + (x ++ bs').length = a + x.length + bs'.length := by
    rw [length_append, Nat.add_assoc]
  have hl : ∀ y ∈ (a + (x ++ bs').length, r) :: ends (a + (x ++ bs').length) rs,
      a + x.length < y.1 := by
    intro y hy
    rcases mem_cons.mp hy with rfl | hy
    · omega
    · have := lt_of_mem_ends hy
      omega
  refine ⟨[], d', .more hc, fun _ => ⟨by rw [due_eq_nil hl], ?_⟩, fun hb => ?_⟩
  · refine ⟨[], _, bs' ++ encodeAll rs, rfl, by simp, by rw [append_assoc], ?_⟩
    rw [hs]
    exact .inside hd' hbs'
  · refine absurd (fun y hy _ heq => ?_) hb
    have := hl y hy
    omega

lemma handles_end (hd : Awaits r d x) (hx : x ≠ []) :
    Handles a d ((a + x.length, r) :: ends (a + x.length) rs) (x ++ encodeAll rs) x := by
  have hpos : 0 < x.length := length_pos_iff.mpr hx
  have hdu : due ((a + x.length, r) :: ends (a + x.length) rs) a (a + x.length) = [r.datagram] := by
    rw [due_cons (by omega) (Nat.le_refl _) (fun y hy => lt_of_mem_ends hy),
      due_eq_nil (fun y hy => lt_of_mem_ends hy)]
  by_cases hp : r.payload = []
  · obtain ⟨d', hc, -⟩ := (progress_of_awaits hd).more x [] hx (by simp) (.inr hp)
    refine ⟨[], d', .more hc, fun hcl => ?_, fun _ => by rw [hdu]; simp⟩
    exact absurd rfl (hcl _ mem_cons_self hp)
  · obtain ⟨d', hc, hd'⟩ := (progress_of_awaits hd).done x [] hx (by simp) (.inr hp)
    refine ⟨[r.datagram], d', .last hc, fun _ => ⟨hdu.symm, ?_⟩, fun hb => ?_⟩
    · exact ⟨[(a + x.length, r)], ends (a + x.length) rs, encodeAll rs, rfl, by simp, rfl,
        hd'.at _ rs⟩
    · refine absurd (fun y hy hn heq => ?_) hb
      rcases mem_cons.mp hy with rfl | hy
      · exact hp hn
      · have := lt_of_mem_ends hy
        omega

lemma handles_tail (hd : Awaits r d bs) (hbs : bs ≠ []) (hy : y ≠ []) (hre : ∀ d', Ready d' →
      Handles (a + bs.length) d' (ends (a + bs.length) rs) (encodeAll rs) y) :
    Handles a d ((a + bs.length, r) :: ends (a + bs.length) rs) (bs ++ encodeAll rs) (bs ++ y) := by
  have hpos : 0 < bs.length := length_pos_iff.mpr hbs
  have hypos : 0 < y.length := length_pos_iff.mpr hy
  obtain ⟨d', hc, hd'⟩ :=
    (progress_of_awaits hd).done (bs ++ y) y (by simp [hbs]) rfl (.inl hy)
  obtain ⟨ds, d'', hf, hcl, hba⟩ := hre d' hd'
  have hsu : a + (bs ++ y).length = a + bs.length + y.length := by
    rw [length_append, Nat.add_assoc]
  have hdu : due ((a + bs.length, r) :: ends (a + bs.length) rs) a (a + bs.length + y.length) =
      r.datagram :: due (ends (a + bs.length) rs) (a + bs.length) (a + bs.length + y.length) :=
    due_cons (by omega) (by omega) (fun z hz => lt_of_mem_ends hz)
  have hs : ClearAt ((a + bs.length, r) :: ends (a + bs.length) rs)
      (a + bs.length + y.length) ↔ ClearAt (ends (a + bs.length) rs)
        (a + bs.length + y.length) := by
    refine ⟨fun h z hz => h z (mem_cons_of_mem _ hz), fun h z hz hn => ?_⟩
    rcases mem_cons.mp hz with rfl | hz
    · simp only [ne_eq]
      omega
    · exact h z hz hn
  refine ⟨r.datagram :: ds, d'', .tail hc hy hf, ?_, ?_⟩
  · rw [hsu, hs, hdu]
    intro h
    obtain ⟨rfl, past, records', rest', hr, ho, hb, hat⟩ := hcl h
    refine ⟨rfl, (a + bs.length, r) :: past, records', rest', by rw [hr, cons_append],
      fun z hz => ?_, by rw [hb, append_assoc], hat⟩
    rcases mem_cons.mp hz with rfl | hz
    · exact Nat.le_add_right _ _
    · exact ho z hz
  · rw [hsu, hs, hdu]
    intro h heq
    exact hba h (cons.inj heq).2

/-- The induction is on the records that the chunk goes over. -/
lemma handles_inside (hd : Awaits r d bs) (hbs : bs ≠ []) (hx : x ≠ [])
    (hr : x <+: bs ++ encodeAll rs) :
    Handles a d ((a + bs.length, r) :: ends (a + bs.length) rs) (bs ++ encodeAll rs) x := by
  induction rs generalizing a d r bs x with
  | nil =>
    obtain ⟨z, hz⟩ := hr
    rw [encodeAll_nil, append_nil] at hz
    subst hz
    by_cases hz : z = []
    · subst hz
      rw [append_nil] at hd ⊢
      exact handles_end hd hx
    · exact handles_short hd hx hz
  | cons r' rs ih =>
    obtain ⟨z, hz⟩ := hr
    rcases append_eq_append_iff.mp hz with ⟨bs', rfl, -⟩ | ⟨y, rfl, hy⟩
    · by_cases hbs' : bs' = []
      · subst hbs'
        rw [append_nil] at hd ⊢
        exact handles_end hd hx
      · exact handles_short hd hx hbs'
    · by_cases hn : y = []
      · subst hn
        rw [append_nil]
        exact handles_end hd hbs
      · refine handles_tail hd hbs hn (fun d' hd' => ?_)
        exact ih (hd'.awaits r') r'.encode_ne_nil hn ⟨z, hy.symm⟩

end Inside

lemma handles_of_at
    (hat : At a d records rest) (hx : x <+: rest) : Handles a d records rest x := by
  by_cases hn : x = []
  · subst hn
    have hl : ∀ y ∈ records, a < y.1 := by
      cases hat with
      | finished => exact fun y hy => absurd hy (by simp)
      | @inside r rs bs _ hbs =>
        have hp : 0 < bs.length := length_pos_iff.mpr hbs
        intro y hy
        rcases mem_cons.mp hy with rfl | hy
        · exact Nat.lt_add_of_pos_right hp
        · have := lt_of_mem_ends hy
          omega
    refine ⟨[], d, .more (Decoder.decodeChunk_nil d), fun _ => ⟨?_, ?_⟩, fun hb => ?_⟩
    · exact (due_eq_nil (b := a + 0) hl).symm
    · exact ⟨[], records, rest, rfl, by simp, rfl, hat⟩
    · refine absurd (fun y hy _ heq => ?_) hb
      have := hl y hy
      simp only [length_nil] at heq
      omega
  · cases hat with
    | finished => exact absurd (prefix_nil.mp hx) hn
    | inside hd hbs => exact handles_inside hd hbs hn hx

/-! ## Promptness -/

lemma feedsAll_iff (hat : At a d records rest) (h : chunks.flatten <+: rest) :
    FeedsAll d chunks (dueAll records a chunks) ↔ ∀ b ∈ boundaries a chunks, ClearAt records b := by
  induction chunks generalizing a d records rest with
  | nil => exact ⟨fun _ b hb => absurd hb (by simp [boundaries]), fun _ => .nil⟩
  | cons x chunks ih =>
    have hx : x <+: rest := (prefix_append x chunks.flatten).trans h
    obtain ⟨ds, d', hf, hcl, hba⟩ := handles_of_at hat hx
    simp only [boundaries, forall_mem_cons, dueAll]
    by_cases hok : ClearAt records (a + x.length)
    · obtain ⟨rfl, past, records', rest', rfl, ho, rfl, hat'⟩ := hcl hok
      have hr : chunks.flatten <+: rest' := (prefix_append_right_inj x).mp h
      have hl : ∀ b ∈ boundaries (a + x.length) chunks,
          ClearAt (past ++ records') b ↔ ClearAt records' b := by
        intro b hb
        have hle := le_of_mem_boundaries hb
        refine ⟨fun hc z hz => hc z (mem_append_right past hz), fun hc z hz hn => ?_⟩
        rcases mem_append.mp hz with hz' | hz'
        · have hne := hok z hz hn
          have := ho z hz'
          omega
        · exact hc z hz' hn
      have hco : (∀ b ∈ boundaries (a + x.length) chunks, ClearAt (past ++ records') b) ↔
          ∀ b ∈ boundaries (a + x.length) chunks, ClearAt records' b :=
        forall₂_congr hl
      rw [hco, dueAll_append ho, ← ih hat' hr]
      constructor
      · intro ha
        cases ha with
        | cons hf' hr' =>
          obtain ⟨-, rfl⟩ := hf.unique hf'
          exact ⟨hok, hr'⟩
      · exact fun ha => .cons hf ha.2
    · refine ⟨fun ha => ?_, fun ha => absurd ha.1 hok⟩
      cases ha with
      | cons hf' => exact absurd (hf.unique hf').1 (hba hok)

/-- **Promptness** fails exactly for records without payload that end a chunk. -/
theorem prompt_iff (rs : List Record) (chunks : List Bytes) (h : chunks.flatten <+: encodeAll rs) :
    FeedsAll Decoder.new chunks (dueAll (ends 0 rs) 0 chunks) ↔
      ∀ b ∈ boundaries 0 chunks, ClearAt (ends 0 rs) b :=
  feedsAll_iff (ready_new.at 0 rs) h

/-- The first chunk ends in the second record's name. -/
def cutInName : List Bytes := [(encodeAll twoRecords).take 90, (encodeAll twoRecords).drop 90]

theorem cutInName_prompt :
    FeedsAll Decoder.new cutInName (dueAll (ends 0 twoRecords) 0 cutInName) := by
  refine (prompt_iff twoRecords cutInName (by decide +kernel)).mpr ?_
  intro b _ x hx hn
  rcases mem_cons.mp hx with rfl | hx
  · cases hn
  · rw [mem_singleton.mp hx] at hn
    cases hn

/-- It is due, and does not come out. -/
theorem emptyPayload_late :
    dueAll (ends 0 [sampleRecord [] (by decide)]) 0 [(sampleRecord [] (by decide)).encode] =
        [[(sampleRecord [] (by decide)).datagram]] ∧
    ¬ FeedsAll Decoder.new [(sampleRecord [] (by decide)).encode]
        [[(sampleRecord [] (by decide)).datagram]] := by
  have hd : dueAll (ends 0 [sampleRecord [] (by decide)]) 0
      [(sampleRecord [] (by decide)).encode] = [[(sampleRecord [] (by decide)).datagram]] := by
    decide +kernel
  refine ⟨hd, fun h => ?_⟩
  rw [← hd, feedsAll_iff (ready_new.at 0 [sampleRecord [] (by decide)]) (by decide +kernel)] at h
  exact h 41 (by decide +kernel) (41, sampleRecord [] (by decide))
    (mem_singleton.mpr (Prod.ext (by decide +kernel) rfl)) rfl rfl

end TrustTunnel.HttpUdpCodec
