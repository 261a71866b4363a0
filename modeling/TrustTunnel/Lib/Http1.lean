import Mathlib.Data.List.DropRight

/-!
# HTTP/1.1 message syntax

How a strict recipient reads one request: the line, the fields, and the body they delimit.
-/

namespace TrustTunnel.Lib.Http1

open List Option

/-! ## Characters -/

def utf8 (s : String) : List UInt8 := s.toByteArray.data.toList

lemma fromUTF8_utf8 (s : String) : String.fromUTF8? ⟨(utf8 s).toArray⟩ = some s := by
  simp only [utf8, String.fromUTF8?, Array.toArray_toList]
  exact dif_pos s.isValidUTF8

lemma utf8_of_fromUTF8 (h : String.fromUTF8? ⟨bytes.toArray⟩ = some s) : utf8 s = bytes := by
  unfold String.fromUTF8? at h
  split at h
  · cases h
    rfl
  · cases h

def isDigit (b : UInt8) : Bool := 48 ≤ b && b ≤ 57

def isUpper (b : UInt8) : Bool := 65 ≤ b && b ≤ 90

def isTokenByte (b : UInt8) : Bool :=
  isDigit b || isUpper b || (97 ≤ b && b ≤ 122)
    || [33, 35, 36, 37, 38, 39, 42, 43, 45, 46, 94, 95, 96, 124, 126].contains b

def isOws (b : UInt8) : Bool := b == 32 || b == 9

def lower (b : UInt8) : UInt8 := if isUpper b then b + 32 else b

def trim (bs : List UInt8) : List UInt8 := (bs.dropWhile isOws).rdropWhile isOws

def decimal (digits : List UInt8) : Nat :=
  digits.foldl (fun n b => n * 10 + (b.toNat - 48)) 0

def hexDigit (b : UInt8) : Option Nat :=
  if isDigit b then some (b.toNat - 48)
  else if 97 ≤ lower b && lower b ≤ 102 then some ((lower b).toNat - 87)
  else none

def hexadecimal (digits : List UInt8) : Nat :=
  digits.foldl (fun n b => n * 16 + (hexDigit b).getD 0) 0

/-! ## Lines -/

section

variable {line bytes rest : List UInt8} {fuel : Nat} {lines : List (List UInt8)}

def crlf : List UInt8 := [13, 10]

def takeLine : List UInt8 → Option (List UInt8 × List UInt8)
  | [] => none
  | b :: rest =>
    if b = 13 ∧ rest.head? = some 10 then some ([], rest.tail)
    else (takeLine rest).map (fun x => (b :: x.1, x.2))

/-- The lines up to the first empty one, and the rest; the number of bytes is fuel enough. -/
def takeLines : Nat → List UInt8 → Option (List (List UInt8) × List UInt8)
  | 0, _ => none
  | fuel + 1, bytes =>
    match takeLine bytes with
    | none => none
    | some ([], rest) => some ([], rest)
    | some (line, rest) => (takeLines fuel rest).map (fun x => (line :: x.1, x.2))

lemma takeLine_append (hl : 13 ∉ line) (rest : List UInt8) :
    takeLine (line ++ crlf ++ rest) = some (line, rest) := by
  induction line with
  | nil => rfl
  | cons b line ih =>
    simp only [mem_cons, not_or] at hl
    have hb : ¬ (b = 13 ∧ (line ++ crlf ++ rest).head? = some 10) := fun h => hl.1 h.1.symm
    simp only [cons_append, takeLine, hb, if_false, ih hl.2, map_some]

lemma takeLine_more (h : takeLine bytes = some (line, rest)) (more : List UInt8) :
    takeLine (bytes ++ more) = some (line, rest ++ more) := by
  induction bytes generalizing line with
  | nil => cases h
  | cons b bytes ih =>
    unfold takeLine at h
    split at h
    · rename_i hcr
      cases h
      cases bytes with
      | nil => cases hcr.2
      | cons c =>
        have hc : c = 10 := some.inj hcr.2
        simp [takeLine, hcr.1, hc]
    · rename_i hcr
      obtain ⟨⟨l, r⟩, hx, heq⟩ := map_eq_some_iff.mp h
      simp only [Prod.mk.injEq] at heq
      obtain ⟨rfl, rfl⟩ := heq
      cases bytes with
      | nil => cases hx
      | cons c bytes =>
        have hr : ¬ (b = 13 ∧ (c :: bytes ++ more).head? = some 10) := hcr
        rw [cons_append, takeLine, if_neg hr, ih hx]
        rfl

lemma takeLine_length (h : takeLine bytes = some (line, rest)) :
    bytes.length = line.length + 2 + rest.length := by
  induction bytes generalizing line with
  | nil => cases h
  | cons b bytes ih =>
    unfold takeLine at h
    split at h
    · rename_i hc
      cases h
      cases bytes with
      | nil => cases hc.2
      | cons =>
        simp only [length_cons, tail_cons, length_nil]
        omega
    · obtain ⟨⟨l, r⟩, hx, heq⟩ := map_eq_some_iff.mp h
      simp only [Prod.mk.injEq] at heq
      obtain ⟨rfl, rfl⟩ := heq
      have := ih hx
      simp only [length_cons]
      omega

lemma takeLines_length (h : takeLines fuel bytes = some (lines, rest)) :
    rest.length + 2 ≤ bytes.length := by
  induction fuel generalizing bytes lines with
  | zero => cases h
  | succ fuel ih =>
    unfold takeLines at h
    split at h
    · cases h
    · rename_i hl
      cases h
      have := takeLine_length hl
      omega
    · rename_i hl
      obtain ⟨⟨ls, r⟩, hx, heq⟩ := map_eq_some_iff.mp h
      simp only [Prod.mk.injEq] at heq
      obtain ⟨-, rfl⟩ := heq
      have hrest := ih hx
      have hbytes := takeLine_length hl
      omega

lemma length_le_lines (lines : List (List UInt8)) :
    lines.length ≤ (lines.flatMap (fun l => l ++ crlf)).length := by
  induction lines with
  | nil => exact Nat.le_refl 0
  | cons =>
    have hc : crlf.length = 2 := rfl
    simp only [flatMap_cons, length_append, length_cons, hc]
    omega

lemma takeLines_append (hlin : ∀ l ∈ lines, l ≠ [] ∧ 13 ∉ l) (rest : List UInt8)
    (hf : lines.length < fuel) :
    takeLines fuel (lines.flatMap (fun l => l ++ crlf) ++ crlf ++ rest) = some (lines, rest) := by
  induction lines generalizing fuel with
  | nil =>
    obtain ⟨fuel, rfl⟩ := Nat.exists_eq_succ_of_ne_zero (Nat.ne_of_gt hf)
    have hli : takeLine (crlf ++ rest) = some ([], rest) :=
      takeLine_append (not_mem_nil) rest
    simp [takeLines, hli]
  | cons l lines ih =>
    obtain ⟨fuel, rfl⟩ := Nat.exists_eq_succ_of_ne_zero (Nat.ne_of_gt (Nat.zero_lt_of_lt hf))
    obtain ⟨hne, hcr⟩ := hlin l mem_cons_self
    have hli := takeLine_append hcr (lines.flatMap (fun l => l ++ crlf) ++ crlf ++ rest)
    have hr := ih (fun l hl => hlin l (mem_cons_of_mem _ hl)) (Nat.lt_of_succ_lt_succ hf)
    simp only [flatMap_cons, append_assoc] at hli hr ⊢
    cases l with
    | nil => exact absurd rfl hne
    | cons => simp only [takeLines, hli, hr, map_some]

end

/-! ## The head -/

structure RequestLine where
  method : List UInt8
  target : List UInt8
  major : Nat
  minor : Nat

/-- `HTTP/` and two digits with a point between them. -/
def parseVersion (v : List UInt8) : Option (Nat × Nat) :=
  match v.drop 5 with
  | [major, point, minor] =>
    if v.take 5 = utf8 "HTTP/" ∧ point = 46 ∧ isDigit major ∧ isDigit minor then
      some (major.toNat - 48, minor.toNat - 48)
    else none
  | _ => none

def parseRequestLine (line : List UInt8) : Option RequestLine :=
  let method := line.takeWhile (fun b => b != 32)
  let rest := line.drop (method.length + 1)
  let target := rest.takeWhile (fun b => b != 32)
  if method ≠ [] ∧ method.all isTokenByte ∧ target ≠ [] then
    (parseVersion (rest.drop (target.length + 1))).map fun v => ⟨method, target, v.1, v.2⟩
  else none

structure Field where
  name : List UInt8
  value : List UInt8

def parseField (line : List UInt8) : Option Field :=
  let name := line.takeWhile (fun b => b != 58)
  match line.drop name.length with
  | [] => none
  | _ :: value =>
    if name ≠ [] ∧ name.all isTokenByte then some ⟨name.map lower, trim value⟩ else none

def values (name : List UInt8) (fields : List Field) : List (List UInt8) :=
  (fields.filter (fun f => f.name == name)).map Field.value

lemma values_append (name : List UInt8) (fields fields' : List Field) :
    values name (fields ++ fields') = values name fields ++ values name fields' := by
  simp [values]

lemma takeWhile_append_cons (hl : ∀ c ∈ l, p c) (hb : p b = false) (rest : List UInt8) :
    (l ++ b :: rest).takeWhile p = l := by
  rw [takeWhile_append_of_pos hl, takeWhile_cons_of_neg (by simp [hb]), append_nil]

lemma parseRequestLine_append
    (hme : method ≠ [] ∧ method.all isTokenByte) (htg : 32 ∉ target) (v : List UInt8) :
    parseRequestLine (method ++ 32 :: (target ++ 32 :: v)) = if target = [] then none
      else (parseVersion v).map fun x => ⟨method, target, x.1, x.2⟩ := by
  have hm : (method ++ 32 :: (target ++ 32 :: v)).takeWhile (fun b => b != 32) = method := by
    refine takeWhile_append_cons (fun c hc => ?_) (by decide) _
    have hto := all_eq_true.mp hme.2 c hc
    rw [bne_iff_ne]
    rintro rfl
    exact absurd hto (by decide)
  have ht : (target ++ 32 :: v).takeWhile (fun b => b != 32) = target := by
    refine takeWhile_append_cons (fun c hc => ?_) (by decide) _
    rw [bne_iff_ne]
    rintro rfl
    exact htg hc
  have hd : ∀ l r : List UInt8, (l ++ 32 :: r).drop (l.length + 1) = r := fun l r => by
    rw [← drop_drop, drop_left]
    rfl
  simp only [parseRequestLine, hm, hd, ht]
  by_cases he : target = [] <;> simp [he, hme]

lemma parseField_append (hna : name ≠ [] ∧ name.all isTokenByte) (value : List UInt8) :
    parseField (name ++ 58 :: value) = some ⟨name.map lower, trim value⟩ := by
  have hn : (name ++ 58 :: value).takeWhile (fun b => b != 58) = name := by
    refine takeWhile_append_cons (fun c hc => ?_) (by decide) _
    have ht := all_eq_true.mp hna.2 c hc
    rw [bne_iff_ne]
    rintro rfl
    exact absurd ht (by decide)
  simp [parseField, hn, hna]

/-! ## The body -/

section

variable {lines : List (List UInt8)}

inductive BodyFraming where
  | length (n : Nat)
  | chunked
  deriving DecidableEq

def codings (values : List (List UInt8)) : List (List UInt8) :=
  ((values.flatMap (fun v => v.splitOn 44)).map (fun c => (trim c).map lower)).filter
    (fun c => !c.isEmpty)

def finalChunked (values : List (List UInt8)) : Bool :=
  (codings values).getLast? == some (utf8 "chunked")
    && (codings values).count (utf8 "chunked") == 1

/-- A transfer coding needs version 1.1 and excludes a length; there is one length at most. -/
def framingOf (major minor : Nat) :
    (codings lengths : List (List UInt8)) → Option BodyFraming
  | [], [] => some (.length 0)
  | [], [v] => if v ≠ [] ∧ v.all isDigit then some (.length (decimal v)) else none
  | [], _ :: _ :: _ => none
  | v :: vs, [] =>
    if major = 1 ∧ minor ≥ 1 ∧ finalChunked (v :: vs) then some .chunked else none
  | _ :: _, _ :: _ => none

def bodyFraming (major minor : Nat) (fields : List Field) : Option BodyFraming :=
  framingOf major minor (values (utf8 "transfer-encoding") fields)
    (values (utf8 "content-length") fields)

def chunkSize (line : List UInt8) : Option Nat :=
  let digits := line.takeWhile (fun b => (hexDigit b).isSome)
  let rest := line.drop digits.length
  if digits ≠ [] ∧ (rest = [] ∨ (rest.dropWhile isOws).head? = some 59) then
    some (hexadecimal digits)
  else none

/-- The content of a chunked body, and what follows it; the trailer is dropped. -/
def decodeChunked : Nat → List UInt8 → Option (List UInt8 × List UInt8)
  | 0, _ => none
  | fuel + 1, bytes =>
    match takeLine bytes with
    | none => none
    | some (line, rest) =>
      match chunkSize line with
      | none => none
      | some 0 =>
        match takeLines (rest.length + 1) rest with
        | none => none
        | some (trailer, rest) => (trailer.mapM parseField).map (fun _ => ([], rest))
      | some n =>
        if (rest.drop n).take 2 = crlf then
          (decodeChunked fuel (rest.drop (n + 2))).map (fun x => (rest.take n ++ x.1, x.2))
        else none

lemma decodeChunked_length (h : decodeChunked fuel bytes = some (content, rest)) :
    content.length + rest.length < bytes.length := by
  induction fuel generalizing bytes content with
  | zero => cases h
  | succ fuel ih =>
    unfold decodeChunked at h
    split at h
    · cases h
    · rename_i hl
      have hbytes := takeLine_length hl
      split at h
      · cases h
      · split at h
        · cases h
        · rename_i ht
          have hr := takeLines_length ht
          obtain ⟨_, -, heq⟩ := map_eq_some_iff.mp h
          cases heq
          simp only [length_nil]
          omega
      · split at h
        · obtain ⟨⟨c, r⟩, hx, heq⟩ := map_eq_some_iff.mp h
          simp only [Prod.mk.injEq] at heq
          obtain ⟨rfl, rfl⟩ := heq
          have hr := ih hx
          simp only [length_drop] at hr
          simp only [length_append, length_take]
          omega
        · cases h

def readBody : BodyFraming → List UInt8 → Option (List UInt8 × List UInt8 × List UInt8)
  | .length n, bytes =>
    if n ≤ bytes.length then some (bytes.take n, bytes.take n, bytes.drop n) else none
  | .chunked, bytes =>
    (decodeChunked (bytes.length + 1) bytes).map fun x =>
      (bytes.take (bytes.length - x.2.length), x.1, x.2)

structure Request where
  line : RequestLine
  fields : List Field
  octets : List UInt8
  content : List UInt8

def parseRequest (bytes : List UInt8) : Option (Request × List UInt8) := do
  let (line, rest) ← takeLine bytes
  let line ← parseRequestLine line
  let (lines, rest) ← takeLines (rest.length + 1) rest
  let fields ← lines.mapM parseField
  let framing ← bodyFraming line.major line.minor fields
  let (octets, content, rest) ← readBody framing rest
  pure (⟨line, fields, octets, content⟩, rest)

def headFields (bytes : List UInt8) : Option (List Field) := do
  let (_, rest) ← takeLine bytes
  let (lines, _) ← takeLines (rest.length + 1) rest
  lines.mapM parseField

lemma headFields_lines {line : List UInt8} (hli : 13 ∉ line) (hl : ∀ l ∈ lines, l ≠ [] ∧ 13 ∉ l) :
    headFields (line ++ crlf ++ (lines.flatMap (fun l => l ++ crlf) ++ crlf)) =
      lines.mapM parseField := by
  have hf : lines.length < (lines.flatMap (fun l => l ++ crlf) ++ crlf).length + 1 := by
    have := length_le_lines lines
    simp only [length_append]
    omega
  have ht := takeLines_append hl [] hf
  rw [append_nil] at ht
  simp only [headFields, takeLine_append hli, ht, bind_eq_bind, bind_some]

lemma parseRequest_lines {line : List UInt8} (hli : 13 ∉ line)
    (hl : ∀ l ∈ lines, l ≠ [] ∧ 13 ∉ l) (body : List UInt8) :
    parseRequest (line ++ crlf ++ (lines.flatMap (fun l => l ++ crlf) ++ crlf ++ body)) = (do
      let line ← parseRequestLine line
      let fields ← lines.mapM parseField
      let framing ← bodyFraming line.major line.minor fields
      let (octets, content, rest) ← readBody framing body
      pure (⟨line, fields, octets, content⟩, rest)) := by
  have hf : lines.length < (lines.flatMap (fun l => l ++ crlf) ++ crlf ++ body).length + 1 := by
    have := length_le_lines lines
    simp only [length_append]
    omega
  simp only [parseRequest, takeLine_append hli, takeLines_append hl body hf,
    bind_eq_bind, bind_some]

end

end TrustTunnel.Lib.Http1
