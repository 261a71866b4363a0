import TrustTunnel.Io

/-!
# The client's random (`tls_listener.rs`)

A stream's head is read until its first record can be parsed, at most `maxPrebufferLen` bytes; the
parser, a parameter, sticks to its answers.
-/

namespace TrustTunnel.TlsListener

open Io List

inductive TlsMessage where
  | clientHello (random : Bytes)
  | other

/-- The answers of `parse_tls_plaintext`. -/
inductive Parsed where
  | record (msg : List TlsMessage)
  | incomplete
  | failed

inductive ClientRandomExtraction where
  | found (clientRandom : Bytes)
  | needMoreData
  | notFound
  deriving DecidableEq

def TlsMessage.random : TlsMessage → Option Bytes
  | .clientHello random => if 32 ≤ random.length then some (random.take 32) else none
  | .other => none

def maxPrebufferLen : Nat := 16 * 1024
def readChunkLen : Nat := 1024

/-- What was read, in front of what was not. -/
structure PrebufferedTcpStream where
  prebuffer : Bytes
  stream : List Bytes

def read (len : Nat) : List Bytes → Bytes × List Bytes
  | [] => ([], [])
  | part :: parts =>
    if part.length ≤ len then (part, parts) else (part.take len, part.drop len :: parts)

section

variable (parse : Bytes → Parsed)

def extractClientRandom (data : Bytes) : ClientRandomExtraction :=
  match parse data with
  | .record msg =>
    match msg.findSome? TlsMessage.random with
    | some clientRandom => .found clientRandom
    | none => .notFound
  | .incomplete => .needMoreData
  | .failed => .notFound

/-- `read_client_random_and_wrap_stream`, from the loop on. -/
def readClientRandomAndWrapStream (prebuffer : Bytes) (stream : List Bytes) :
    PrebufferedTcpStream × Option Bytes :=
  if prebuffer.length < maxPrebufferLen then
    match extractClientRandom parse prebuffer with
    | .found clientRandom => (⟨prebuffer, stream⟩, some clientRandom)
    | .notFound => (⟨prebuffer, stream⟩, none)
    | .needMoreData =>
      let remaining := maxPrebufferLen - prebuffer.length
      let tmp := read (min readChunkLen remaining) stream
      if tmp.1 = [] then (⟨prebuffer, tmp.2⟩, none)
      else readClientRandomAndWrapStream (prebuffer ++ tmp.1) tmp.2
  else (⟨prebuffer, stream⟩, none)
termination_by maxPrebufferLen - prebuffer.length
decreasing_by
  rename_i hread
  have hpos : 0 < tmp.1.length := length_pos_iff.mpr hread
  show maxPrebufferLen - (prebuffer ++ tmp.1).length < maxPrebufferLen - prebuffer.length
  rw [length_append]
  omega

def clientRandom (parts : List Bytes) : Option Bytes := (readClientRandomAndWrapStream parse [] parts).2

end

/-! ## Reads -/

lemma read_flatten (len : Nat) (parts : List Bytes) :
    (read len parts).1 ++ (read len parts).2.flatten = parts.flatten := by
  cases parts with
  | nil => rfl
  | cons =>
    simp only [read]
    split
    · rfl
    · rw [flatten_cons, flatten_cons, ← append_assoc, take_append_drop]

lemma length_read_le (len : Nat) (parts : List Bytes) : (read len parts).1.length ≤ len := by
  cases parts with
  | nil => exact Nat.zero_le len
  | cons part =>
    simp only [read]
    split
    · assumption
    · exact length_take_le len part

lemma read_ne_nil (hle : 0 < len) (hne : ∀ part ∈ parts, part ≠ []) :
    (parts ≠ [] → (read len parts).1 ≠ []) ∧ ∀ part ∈ (read len parts).2, part ≠ [] := by
  cases parts with
  | nil => exact ⟨fun h => absurd rfl h, fun part h => absurd h not_mem_nil⟩
  | cons =>
    obtain ⟨hpa, hp⟩ := forall_mem_cons.mp hne
    simp only [read]
    split
    · exact ⟨fun _ => hpa, hp⟩
    · rename_i hl
      refine ⟨fun _ => ?_, forall_mem_cons.mpr ⟨?_, hp⟩⟩
      · rw [ne_eq, take_eq_nil_iff, not_or]
        exact ⟨Nat.pos_iff_ne_zero.mp hle, hpa⟩
      · rw [ne_eq, drop_eq_nil_iff]
        exact hl

/-! ## The parser -/

/-- The answer is the same for everything that starts like this. -/
def Stable (parse : Bytes → Parsed) : Prop :=
  ∀ data more, parse data ≠ .incomplete → parse (data ++ more) = parse data

section

variable {parse : Bytes → Parsed} (hstable : Stable parse)

include hstable

lemma extract_append (h : extractClientRandom parse data ≠ .needMoreData) (more : Bytes) :
    extractClientRandom parse (data ++ more) = extractClientRandom parse data := by
  have hp : parse data ≠ .incomplete := by
    intro hi
    exact h (by simp [extractClientRandom, hi])
  simp [extractClientRandom, hstable data more hp]

lemma extract_extend (hl : data <+: longer) (h : extractClientRandom parse data ≠ .needMoreData) :
    extractClientRandom parse longer = extractClientRandom parse data := by
  obtain ⟨more, rfl⟩ := hl
  exact extract_append hstable h more

lemma length_lt_of_needMoreData {stream head : Bytes} {n : Nat} {random : Bytes}
    (hf : extractClientRandom parse (stream.take n) = .found random) (hh : head <+: stream)
    (hn : extractClientRandom parse head = .needMoreData) :
    head.length < n ∧ head.length < stream.length := by
  rw [← Nat.lt_min, ← length_take]
  by_contra hle
  have ht : stream.take n <+: stream := take_prefix n stream
  have hl : stream.take n <+: head :=
    prefix_of_prefix_length_le ht hh (Nat.not_lt.mp hle)
  have hs := extract_extend hstable hl (by rw [hf]; nofun)
  rw [hn, hf] at hs
  cases hs

end

/-! ## The loop -/

section

variable {parse : Bytes → Parsed}

section

variable {prebuffer random : Bytes} {parts : List Bytes}

/-- **What is found** is in a head shorter than the buffer. -/
lemma random_sound (h : (readClientRandomAndWrapStream parse prebuffer parts).2 = some random) :
    ∃ head, head <+: prebuffer ++ parts.flatten ∧ head.length < maxPrebufferLen ∧
      extractClientRandom parse head = .found random := by
  fun_induction readClientRandomAndWrapStream parse prebuffer parts with
  | case1 prebuffer parts hl clientRandom hf =>
    cases h
    exact ⟨prebuffer, prefix_append _ _, hl, hf⟩
  | case4 prebuffer parts _ _ remaining tmp _ ih =>
    obtain ⟨head, hh, hr⟩ := ih h
    rw [append_assoc, read_flatten] at hh
    exact ⟨head, hh, hr⟩
  | case2 | case3 | case5 => cases h

def nextRead (prebuffer : Bytes) (parts : List Bytes) : Bytes × List Bytes :=
  read (min readChunkLen (maxPrebufferLen - prebuffer.length)) parts

lemma wrap_of_needMoreData (hl : prebuffer.length < maxPrebufferLen)
    (hn : extractClientRandom parse prebuffer = .needMoreData)
    (hr : (nextRead prebuffer parts).1 ≠ []) : readClientRandomAndWrapStream parse prebuffer parts =
      readClientRandomAndWrapStream parse (prebuffer ++ (nextRead prebuffer parts).1)
        (nextRead prebuffer parts).2 := by
  rw [readClientRandomAndWrapStream, if_pos hl, hn]
  exact if_neg hr

lemma wrap_of_full (parts : List Bytes) (hlen : prebuffer.length = maxPrebufferLen) :
    (readClientRandomAndWrapStream parse prebuffer parts).2 = none := by
  rw [readClientRandomAndWrapStream, if_neg (by omega)]

/-- **What is there is found** while reads do not fill the buffer. -/
lemma random_of_room (hstable : Stable parse) (Inv : Bytes → List Bytes → Prop)
    (hi : ∀ prebuffer parts, Inv prebuffer parts →
      extractClientRandom parse prebuffer = .needMoreData → (nextRead prebuffer parts).1 ≠ [] ∧
      Inv (prebuffer ++ (nextRead prebuffer parts).1) (nextRead prebuffer parts).2)
    (hl : ∀ prebuffer parts, Inv prebuffer parts → prebuffer.length < maxPrebufferLen)
    (h : Inv prebuffer parts)
    (hf : extractClientRandom parse ((prebuffer ++ parts.flatten).take (maxPrebufferLen - 1)) =
      .found random) : (readClientRandomAndWrapStream parse prebuffer parts).2 = some random := by
  -- an answer for the buffer is the answer for the longest head that is looked at
  have hs : ∀ prebuffer parts, Inv prebuffer parts →
      extractClientRandom parse ((prebuffer ++ parts.flatten).take (maxPrebufferLen - 1)) =
        .found random →
      extractClientRandom parse prebuffer ≠ .needMoreData →
      extractClientRandom parse prebuffer = .found random := by
    intro prebuffer parts h hf hd
    have hle := hl prebuffer parts h
    rw [← hf]
    refine (extract_extend hstable ?_ hd).symm
    exact prefix_take_iff.mpr ⟨prefix_append _ _, by omega⟩
  fun_induction readClientRandomAndWrapStream parse prebuffer parts with
  | case1 prebuffer parts _ clientRandom hn =>
    have hr := hs prebuffer parts h hf (by rw [hn]; nofun)
    rw [hn] at hr
    cases hr
    rfl
  | case2 prebuffer parts _ hn =>
    have hr := hs prebuffer parts h hf (by rw [hn]; nofun)
    rw [hn] at hr
    cases hr
  | case3 prebuffer parts _ hn remaining tmp he =>
    exact absurd he (hi prebuffer parts h hn).1
  | case4 prebuffer parts _ hn remaining tmp _ ih =>
    refine ih (hi prebuffer parts h hn).2 ?_
    rw [append_assoc, read_flatten]
    exact hf
  | case5 prebuffer parts hle => exact absurd (hl prebuffer parts h) hle

end

/-! ## How a stream is cut -/

section

variable {stream random : Bytes} {parts : List Bytes}

structure Delivers (parts : List Bytes) (stream : Bytes) : Prop where
  flatten : parts.flatten = stream
  nonempty : ∀ part ∈ parts, part ≠ []

def SegmentationFree (parse : Bytes → Parsed) (stream : Bytes) : Prop :=
  ∀ parts parts', Delivers parts stream → Delivers parts' stream →
    clientRandom parse parts = clientRandom parse parts'

/-- It is in the longest head that is looked at, but not in one shorter by one read. -/
def Straddles (parse : Bytes → Parsed) (stream : Bytes) : Prop :=
  maxPrebufferLen ≤ stream.length ∧
  extractClientRandom parse (stream.take (maxPrebufferLen - readChunkLen)) = .needMoreData ∧
  ∃ random, extractClientRandom parse (stream.take (maxPrebufferLen - 1)) = .found random

lemma delivers_bytes (stream : Bytes) : Delivers (stream.map fun b => [b]) stream := by
  refine ⟨?_, ?_⟩
  · rw [← flatMap_def, flatMap_singleton']
  · intro part hp
    obtain ⟨b, -, rfl⟩ := mem_map.mp hp
    exact cons_ne_nil b []

lemma delivers_whole (hne : stream ≠ []) : Delivers [stream] stream := by
  refine ⟨flatten_singleton, ?_⟩
  intro part hp
  rw [mem_singleton.mp hp]
  exact hne

lemma clientRandom_bytes (hstable : Stable parse)
    (hf : extractClientRandom parse (stream.take (maxPrebufferLen - 1)) = .found random) :
    clientRandom parse (stream.map fun b => [b]) = some random := by
  refine random_of_room hstable (fun prebuffer parts => prebuffer.length < maxPrebufferLen ∧
    ∃ t, stream = prebuffer ++ t ∧ parts = t.map fun b => [b]) ?_ (fun _ _ h => h.1)
    ⟨by decide, stream, rfl, rfl⟩ ?_
  · rintro prebuffer parts ⟨hle, t, rfl, rfl⟩ hn
    obtain ⟨hshort, hl⟩ := length_lt_of_needMoreData hstable hf (prefix_append _ _) hn
    cases t with
    | nil => exact absurd hl (by simp)
    | cons b t =>
      have hr : nextRead prebuffer ((b :: t).map fun b => [b]) = ([b], t.map fun b => [b]) := by
        have ho : 1 ≤ min readChunkLen (maxPrebufferLen - prebuffer.length) :=
          Nat.le_min.mpr ⟨by decide, Nat.sub_pos_of_lt hle⟩
        rw [nextRead, map_cons, read, if_pos (show [b].length ≤ _ from ho)]
      rw [hr]
      refine ⟨cons_ne_nil b [], ?_, t, by simp, rfl⟩
      rw [length_append, length_singleton]
      omega
  · rw [(delivers_bytes stream).flatten, nil_append]
    exact hf

/-- By induction on the chunks there is room for. -/
lemma clientRandom_whole (hstable : Stable parse) (hlength : maxPrebufferLen ≤ stream.length)
    (hno : extractClientRandom parse (stream.take (maxPrebufferLen - readChunkLen)) =
      .needMoreData) : clientRandom parse [stream] = none := by
  suffices h : ∀ n prebuffer rest, stream = prebuffer ++ rest →
      maxPrebufferLen = prebuffer.length + (n + 1) * 1024 →
      (readClientRandomAndWrapStream parse prebuffer [rest]).2 = none by
    exact h 15 [] stream rfl rfl
  -- no head that is a chunk short of the buffer has an answer
  have hn : ∀ prebuffer rest, stream = prebuffer ++ rest →
      prebuffer.length ≤ maxPrebufferLen - readChunkLen →
      extractClientRandom parse prebuffer = .needMoreData := by
    intro prebuffer rest hs hle
    by_contra hd
    have hl : prebuffer <+: stream.take (maxPrebufferLen - readChunkLen) :=
      prefix_take_iff.mpr ⟨⟨rest, hs.symm⟩, hle⟩
    rw [extract_extend hstable hl hd] at hno
    exact hd hno
  have hmax : maxPrebufferLen = 16384 := rfl
  have hchunk : readChunkLen = 1024 := rfl
  intro n
  induction n with
  | zero =>
    intro prebuffer rest hs hro
    have hre : stream.length = prebuffer.length + rest.length := by
      rw [hs, length_append]
    have hr : (nextRead prebuffer [rest]).1.length = readChunkLen := by
      have hm : min readChunkLen (maxPrebufferLen - prebuffer.length) = readChunkLen := by omega
      simp only [nextRead, hm, read]
      split
      · simp only
        omega
      · rw [length_take]
        omega
    have hne : (nextRead prebuffer [rest]).1 ≠ [] := by
      rw [← length_pos_iff, hr]
      decide
    rw [wrap_of_needMoreData (by omega) (hn prebuffer rest hs (by omega)) hne]
    refine wrap_of_full _ ?_
    rw [length_append, hr]
    omega
  | succ n ih =>
    intro prebuffer rest hs hro
    have hre : stream.length = prebuffer.length + rest.length := by
      rw [hs, length_append]
    have hlo : readChunkLen < rest.length := by omega
    have hr : nextRead prebuffer [rest] = (rest.take readChunkLen, [rest.drop readChunkLen]) := by
      have hm : min readChunkLen (maxPrebufferLen - prebuffer.length) = readChunkLen := by omega
      simp [nextRead, hm, read, if_neg (Nat.not_le.mpr hlo)]
    have hne : (nextRead prebuffer [rest]).1 ≠ [] := by
      rw [hr, ← length_pos_iff, length_take]
      omega
    rw [wrap_of_needMoreData (by omega) (hn prebuffer rest hs (by omega)) hne, hr]
    refine ih _ _ ?_ ?_
    · rw [append_assoc, take_append_drop, hs]
    · rw [length_append, length_take]
      omega

lemma clientRandom_of_room (hstable : Stable parse) (hno : ¬ Straddles parse stream)
    (hf : extractClientRandom parse (stream.take (maxPrebufferLen - 1)) = .found random)
    (hp : Delivers parts stream) : clientRandom parse parts = some random := by
  refine random_of_room hstable (fun prebuffer parts => prebuffer.length < maxPrebufferLen ∧
    prebuffer ++ parts.flatten = stream ∧ ∀ part ∈ parts, part ≠ []) ?_ (fun _ _ h => h.1)
    ⟨by decide, hp.flatten, hp.nonempty⟩ ?_
  · rintro prebuffer parts ⟨hlen, hs, hne⟩ hn
    have hh : prebuffer <+: stream := ⟨parts.flatten, hs⟩
    obtain ⟨-, hl⟩ := length_lt_of_needMoreData hstable hf hh hn
    have hp : parts ≠ [] := by
      rintro rfl
      rw [← hs] at hl
      exact absurd hl (by simp)
    have hr : 0 < min readChunkLen (maxPrebufferLen - prebuffer.length) :=
      Nat.lt_min.mpr ⟨by decide, Nat.sub_pos_of_lt hlen⟩
    obtain ⟨hre, hres⟩ := read_ne_nil hr hne
    have hfl : prebuffer ++ (nextRead prebuffer parts).1 ++ (nextRead prebuffer parts).2.flatten =
        stream := by
      rw [append_assoc, nextRead, read_flatten, hs]
    refine ⟨hre hp, ?_, hfl, hres⟩
    by_cases hlength : maxPrebufferLen ≤ stream.length
    · -- the random is found a chunk before the end of the buffer
      have hd :
          extractClientRandom parse (stream.take (maxPrebufferLen - readChunkLen)) ≠
            .needMoreData :=
        fun hnee => hno ⟨hlength, hnee, random, hf⟩
      have he : extractClientRandom parse (stream.take (maxPrebufferLen - readChunkLen)) =
          .found random := by
        rw [← hf]
        exact (extract_extend hstable (take_prefix_take_left (by decide)) hd).symm
      have hshort := (length_lt_of_needMoreData hstable he hh hn).1
      have hle : (nextRead prebuffer parts).1.length ≤ readChunkLen :=
        Nat.le_trans (length_read_le _ parts) (Nat.min_le_left _ _)
      rw [length_append]
      omega
    · have hle := congrArg length hfl
      rw [length_append] at hle
      omega
  · rw [nil_append, hp.flatten]
    exact hf

lemma clientRandom_eq_none (hstable : Stable parse)
    (hn : ¬ ∃ random, extractClientRandom parse (stream.take (maxPrebufferLen - 1)) = .found random)
    (hp : Delivers parts stream) : clientRandom parse parts = none := by
  cases hr : clientRandom parse parts with
  | none => rfl
  | some random =>
    obtain ⟨head, hh, hlength, hf⟩ := random_sound hr
    rw [nil_append, hp.flatten] at hh
    have hl : head <+: stream.take (maxPrebufferLen - 1) :=
      prefix_take_iff.mpr ⟨hh, by omega⟩
    refine absurd ⟨random, ?_⟩ hn
    rw [extract_extend hstable hl (by rw [hf]; nofun), hf]

/-- **The random does not depend on the cuts** if and only if it does not straddle the last
chunk. -/
theorem segmentation_free_iff (parse : Bytes → Parsed) (hstable : Stable parse) (stream : Bytes) :
    SegmentationFree parse stream ↔ ¬ Straddles parse stream := by
  constructor
  · rintro hfr ⟨hl, hno, random, hf⟩
    have hne : stream ≠ [] := by
      rintro rfl
      exact absurd hl (by decide)
    have hs := hfr _ _ (delivers_bytes stream) (delivers_whole hne)
    rw [clientRandom_bytes hstable hf, clientRandom_whole hstable hl hno] at hs
    cases hs
  · intro hn parts parts' hp hp'
    by_cases hf : ∃ random, extractClientRandom parse (stream.take (maxPrebufferLen - 1)) =
      .found random
    · obtain ⟨random, hf⟩ := hf
      rw [clientRandom_of_room hstable hn hf hp, clientRandom_of_room hstable hn hf hp']
    · rw [clientRandom_eq_none hstable hf hp, clientRandom_eq_none hstable hf hp']

end

end

/-! ## A record that straddles -/

/-- Every record is a hello, with the random after a type, a length and a version. -/
def helloRecord : Bytes → Parsed
  | _ :: _ :: _ :: high :: low :: body =>
    let length := high.toNat * 256 + low.toNat
    if body.length < length then .incomplete
    else .record [.clientHello (((body.take length).drop 6).take 32)]
  | _ => .incomplete

lemma stable_helloRecord : Stable helloRecord := by
  intro data more h
  rcases data with _ | ⟨a, _ | ⟨b, _ | ⟨c, _ | ⟨high, _ | ⟨low, body⟩⟩⟩⟩⟩
  iterate 5 exact absurd rfl h
  simp only [cons_append, helloRecord, length_append] at h ⊢
  split at h
  · exact absurd rfl h
  · rename_i hl
    rw [if_neg hl, if_neg (by omega), take_append_of_le_length (by omega)]

def zeroRecord (high low : UInt8) (more : Nat) : Bytes :=
  [22, 3, 1, high, low] ++ replicate (high.toNat * 256 + low.toNat + more) 0

lemma extract_zeroRecord (hn : 5 ≤ n) (hmore : n ≤ 5 + (high.toNat * 256 + low.toNat + more))
      (hlength : 38 ≤ high.toNat * 256 + low.toNat) :
    extractClientRandom helloRecord ((zeroRecord high low more).take n) =
      if n < 5 + (high.toNat * 256 + low.toNat) then .needMoreData else .found
        (replicate 32 0) := by
  obtain ⟨n, rfl⟩ : ∃ m, n = m + 5 := ⟨n - 5, by omega⟩
  have hm : min n (high.toNat * 256 + low.toNat + more) = n := by omega
  have ht : (zeroRecord high low more).take (n + 5) = [22, 3, 1, high, low] ++ replicate n 0 := by
    simp [zeroRecord, hm]
  rw [ht]
  simp only [extractClientRandom, helloRecord, cons_append, nil_append, length_replicate]
  by_cases hs : n < high.toNat * 256 + low.toNat
  · rw [if_pos hs, if_pos (by omega)]
  · have hr : min (min (high.toNat * 256 + low.toNat) n - 6) 32 = 32 := by omega
    rw [if_neg hs, if_neg (by omega), take_replicate, drop_replicate, take_replicate,
      Nat.min_comm 32, hr]
    rfl

/-- A short hello, with something after it. -/
theorem shortHello_segmentation_free :
    Stable helloRecord ∧ SegmentationFree helloRecord (zeroRecord 1 0 100) := by
  refine ⟨stable_helloRecord, (segmentation_free_iff helloRecord stable_helloRecord _).mpr ?_⟩
  rintro ⟨hl, -⟩
  simp only [zeroRecord, length_append, length_replicate] at hl
  exact absurd hl (by decide)

/-- Found byte by byte, but not at once. -/
theorem longHello_straddles : Stable helloRecord ∧
    Delivers ((zeroRecord 62 123 4000).map fun b => [b]) (zeroRecord 62 123 4000) ∧
    Delivers [zeroRecord 62 123 4000] (zeroRecord 62 123 4000) ∧
    clientRandom helloRecord ((zeroRecord 62 123 4000).map fun b => [b]) = some (replicate 32 0) ∧
    clientRandom helloRecord [zeroRecord 62 123 4000] = none := by
  refine ⟨stable_helloRecord, delivers_bytes _, delivers_whole ?_, ?_, ?_⟩
  · exact append_ne_nil_of_left_ne_nil (cons_ne_nil _ _) _
  · refine clientRandom_bytes stable_helloRecord ?_
    rw [extract_zeroRecord (by decide) (by decide) (by decide)]
    decide
  · refine clientRandom_whole stable_helloRecord ?_ ?_
    · simp only [zeroRecord, length_append, length_replicate]
      decide
    · rw [extract_zeroRecord (by decide) (by decide) (by decide)]
      decide

end TrustTunnel.TlsListener
