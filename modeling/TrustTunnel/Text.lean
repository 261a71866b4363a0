import TrustTunnel.Io
import TrustTunnel.Lib.Http1
import TrustTunnel.Lib.Split

/-!
# Texts (the standard library's `str`)

Cutting a text at the first separator.
-/

namespace TrustTunnel.Text

open String

def splitOnce (sep : Char) (s : String) : Option (String × String) :=
  (Lib.splitOnce sep s.toList).map (fun x => (ofList x.1, ofList x.2))

def rsplitOnce (sep : Char) (s : String) : Option (String × String) :=
  (Lib.splitOnce sep s.toList.reverse).map (fun x => (ofList x.2.reverse, ofList x.1.reverse))

/-- `str::split(sep).next()`: what comes before the first separator. -/
def firstPart (sep : Char) (s : String) : String :=
  match splitOnce sep s with
  | some (a, _) => a
  | none => s

def contains (c : Char) (s : String) : Bool := decide (c ∈ s.toList)

def startsWith (p s : String) : Bool := p.toList.isPrefixOf s.toList

lemma splitOnce_eq_none : splitOnce sep s = none ↔ sep ∉ s.toList := by
  rw [splitOnce, Option.map_eq_none_iff, Lib.splitOnce_eq_none]

lemma splitOnce_append (ha : sep ∉ a.toList) (b : String) :
    splitOnce sep (a ++ singleton sep ++ b) = some (a, b) := by
  have ht : (a ++ singleton sep ++ b).toList = a.toList ++ sep :: b.toList := by simp
  rw [splitOnce, ht, Lib.splitOnce_append ha]
  simp

lemma firstPart_notMem (sep : Char) (s : String) : sep ∉ (firstPart sep s).toList := by
  unfold firstPart
  cases hs : splitOnce sep s with
  | none => exact splitOnce_eq_none.mp hs
  | some =>
    obtain ⟨⟨a, b⟩, hab, rfl⟩ := Option.map_eq_some_iff.mp hs
    simpa using (Lib.splitOnce_eq_some.mp hab).2

/-! ## Bytes -/

lemma utf8_eq_flatMap (s : String) : Lib.Http1.utf8 s = s.toList.flatMap utf8EncodeChar := by
  have h : Lib.Http1.utf8 (ofList s.toList) = s.toList.flatMap utf8EncodeChar := by
    simp only [Lib.Http1.utf8, toByteArray_ofList, List.utf8Encode, List.data_toByteArray,
      List.toList_toArray]
  rwa [ofList_toList] at h

lemma utf8EncodeChar_ascii (hc : c.toNat < 128) : utf8EncodeChar c = [UInt8.ofNat c.toNat] := by
  have hv : c.val.toNat ≤ 127 := Nat.le_of_lt_succ hc
  simp only [utf8EncodeChar, if_pos hv]
  rfl

end TrustTunnel.Text
