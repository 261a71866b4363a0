import TrustTunnel.Lib.BigEndian
import TrustTunnel.Lib.Items

/-!
# Tag, length, value

The first two bits of an integer say how many bytes it takes.
-/

namespace TrustTunnel.Lib.Tlv

open Items Option

/-! ## Integers -/

def width (first : UInt8) : Nat :=
  match first.toNat / 64 with
  | 0 => 1
  | 1 => 2
  | 2 => 4
  | _ => 8

def readVarint (bytes : List UInt8) : Option (Nat × List UInt8) :=
  match bytes with
  | [] => none
  | first :: _ =>
    (take (width first) bytes).map
      (fun x => (ofBigEndian x.1 % 2 ^ (8 * width first - 2), x.2))

/-- In the least width; numbers from `2 ^ 62` on cannot be written. -/
def writeVarint (n : Nat) : List UInt8 :=
  if n ≤ 0x3f then bigEndian 1 n
  else if n ≤ 0x3fff then bigEndian 2 (0x4000 + n)
  else if n ≤ 0x3fffffff then bigEndian 4 (0x80000000 + n)
  else bigEndian 8 (0xc000000000000000 + n)

lemma width_pos (first : UInt8) : 0 < width first := by
  unfold width
  split <;> decide

lemma sequential_readVarint : Sequential readVarint := by
  refine ⟨fun bytes n rest h => ?_, rfl⟩
  cases bytes with
  | nil => cases h
  | cons first =>
    obtain ⟨⟨e, rest'⟩, ht, heq⟩ := map_eq_some_iff.mp h
    cases heq
    obtain ⟨e', hsp, he⟩ := local_take _ _ _ _ ht
    have hs : take (width first) (e' ++ []) = some (e, []) := he []
    refine ⟨e', hsp, fun more => ?_⟩
    cases e' with
    | nil =>
      rw [take, if_pos (by simpa using width_pos first)] at hs
      cases hs
    | cons =>
      obtain ⟨rfl, -⟩ := List.cons.inj hsp
      have := he more
      rw [List.cons_append] at this ⊢
      rw [readVarint, this, map_some]

lemma readVarint_bigEndian (w flag : Nat) (hw : 0 < w) (hn : n < 2 ^ (8 * w - 2))
    (hwi : width (UInt8.ofNat ((2 ^ (8 * w - 2) * flag + n) / 256 ^ (w - 1))) = w)
    (hflag : flag < 4) (rest : List UInt8) :
    readVarint (bigEndian w (2 ^ (8 * w - 2) * flag + n) ++ rest) = some (n, rest) := by
  obtain ⟨w, rfl⟩ : ∃ v, w = v + 1 := ⟨w - 1, by omega⟩
  have hp : 256 ^ (w + 1) = 2 ^ (8 * (w + 1) - 2) * 4 := by
    rw [show 256 = 2 ^ 8 by rfl, ← pow_mul, show 8 * (w + 1) = 8 * (w + 1) - 2 + 2 by omega,
      pow_add]
    rfl
  have hlt : 2 ^ (8 * (w + 1) - 2) * flag + n < 256 ^ (w + 1) := by
    have : 2 ^ (8 * (w + 1) - 2) * (flag + 1) ≤ 2 ^ (8 * (w + 1) - 2) * 4 := by gcongr; omega
    rw [hp]
    rw [Nat.mul_succ] at this
    omega
  have ht := take_append (length_bigEndian (w + 1) (2 ^ (8 * (w + 1) - 2) * flag + n)) rest
  rw [Nat.add_sub_cancel] at hwi
  rw [bigEndian, List.cons_append] at ht ⊢
  rw [readVarint, hwi, ht, map_some, ← bigEndian, ofBigEndian_bigEndian,
    Nat.mod_eq_of_lt hlt, Nat.mul_add_mod, Nat.mod_eq_of_lt hn]

lemma width_ofNat (n : Nat) : width (UInt8.ofNat n) = match n % 256 / 64 with
    | 0 => 1
    | 1 => 2
    | 2 => 4
    | _ => 8 := by
  rw [width, UInt8.toNat_ofNat']

lemma readVarint_writeVarint (h : n < 2 ^ 62) (rest : List UInt8) :
    readVarint (writeVarint n ++ rest) = some (n, rest) := by
  unfold writeVarint
  split
  · have hf : n % 256 / 64 = 0 := by omega
    have := readVarint_bigEndian 1 0 (n := n) (by omega) (by omega)
      (by simp [width_ofNat, hf]) (by omega) rest
    simpa using this
  split
  · have hf : (0x4000 + n) / 256 % 256 / 64 = 1 := by omega
    have := readVarint_bigEndian 2 1 (n := n) (by omega) (by omega)
      (by simp [width_ofNat, hf]) (by omega) rest
    simpa using this
  split
  · have hf : (0x80000000 + n) / 16777216 % 256 / 64 = 2 := by omega
    have := readVarint_bigEndian 4 2 (n := n) (by omega) (by omega)
      (by simp [width_ofNat, hf]) (by omega) rest
    simpa using this
  · have hf : (0xc000000000000000 + n) / 72057594037927936 % 256 / 64 = 3 := by omega
    have := readVarint_bigEndian 8 3 (n := n) (by omega) (by omega)
      (by simp [width_ofNat, hf]) (by omega) rest
    simpa using this

/-! ## Entries -/

def readBlock (bytes : List UInt8) : Option (List UInt8 × List UInt8) :=
  (readVarint bytes).bind (fun x => take x.1 x.2)

def readEntry (bytes : List UInt8) : Option ((Nat × List UInt8) × List UInt8) :=
  (readVarint bytes).bind (fun x => (readBlock x.2).map (fun y => ((x.1, y.1), y.2)))

def writeBlock (value : List UInt8) : List UInt8 := writeVarint value.length ++ value

def writeEntry (tag : Nat) (value : List UInt8) : List UInt8 := writeVarint tag ++ writeBlock value

lemma sequential_readBlock : Sequential readBlock :=
  sequential_readVarint.bind (q := fun n => take n) (fun n => local_take n)

lemma sequential_readEntry : Sequential readEntry :=
  sequential_readVarint.bind
    (q := fun tag bytes => (readBlock bytes).map (fun y : List UInt8 × List UInt8 =>
      ((tag, y.1), y.2)))
    (fun tag => sequential_readBlock.front.map (fun value => (tag, value)))

lemma length_le_of_readEntry
    (h : readEntry bytes = some ((tag, value), rest)) : value.length ≤ bytes.length := by
  obtain ⟨⟨tag', bytes1⟩, hta, h⟩ := bind_eq_some_iff.mp h
  obtain ⟨⟨value', rest'⟩, hb, heq⟩ := map_eq_some_iff.mp h
  cases heq
  obtain ⟨⟨length, bytes2⟩, hl, ht⟩ := bind_eq_some_iff.mp hb
  have h1 := sequential_readVarint.shorter hta
  have h2 := sequential_readVarint.shorter hl
  obtain ⟨-, ⟨⟩⟩ := ite_none_left_eq_some.mp ht
  simp only [List.length_take] at h2 ⊢
  omega

lemma length_le_of_reads
    (h : Reads readEntry bytes entries) : ∀ e ∈ entries, e.2.length ≤ bytes.length := by
  induction h with
  | nil => exact List.forall_mem_nil _
  | cons hn hrest ih =>
    have hs := sequential_readEntry.shorter hn
    refine List.forall_mem_cons.mpr ⟨length_le_of_readEntry hn, fun e he => ?_⟩
    exact Nat.le_trans (ih e he) (Nat.le_of_lt hs)

lemma encodes_writeBlock (h : value.length < 2 ^ 62) :
    Encodes readBlock (writeBlock value) value := by
  intro more
  rw [readBlock, writeBlock, List.append_assoc, readVarint_writeVarint h, bind_some]
  exact take_append rfl more

lemma encodes_writeEntry (ht : tag < 2 ^ 62)
    (h : value.length < 2 ^ 62) : Encodes readEntry (writeEntry tag value) (tag, value) := by
  intro more
  rw [readEntry, writeEntry, List.append_assoc, readVarint_writeVarint ht, bind_some,
    encodes_writeBlock h, map_some]

end TrustTunnel.Lib.Tlv
