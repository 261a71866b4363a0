import TrustTunnel.DeeplinkToConfig

/-!
# Certificates as text and back (`deeplink/src/cert.rs`)

`rustls_pemfile::certs` is a parameter with the law `ReadsSections`. Proved here:

* `derToPem_eq`: the text is the sections of the certificates, one after the other;
* `pemToDer_derToPem`: it is read back as the same bytes.
-/

namespace TrustTunnel.DeepLink

open Io Lib Credentials List

variable {encode : Bytes → String} {decode : String → Except String Bytes}

/-! ## Lines -/

lemma flatten_toChunks {α : Type} (n : Nat) (l : List α) : (l.toChunks n).flatten = l := by
  have hgo (n : Nat) (l : List α) (acc : Array α) (done : Array (List α)) :
      (toChunks.go n l acc done).flatten = done.toList.flatten ++ (acc.toList ++ l) := by
    induction l generalizing acc done with
    | nil => simp [toChunks.go]
    | cons a l ih =>
      rw [toChunks.go]
      split <;> simp [ih]
  cases l with
  | nil => simp [toChunks]
  | cons a l => cases n <;> simp [toChunks, hgo]

lemma intercalate_newline (h : lines ≠ []) :
    ['\n'].intercalate lines ++ ['\n'] = lines.flatMap (· ++ ['\n']) := by
  induction lines with
  | nil => exact absurd rfl h
  | cons line lines ih =>
    cases lines with
    | nil => simp
    | cons => rw [intercalate_cons_cons, append_assoc, ih (cons_ne_nil _ _)]; simp

/-- What stands between the first line and the last one. -/
def bodyLines (text : List Char) : List (List Char) :=
  if text = [] then [[]] else text.toChunks 64

/-- A `CERTIFICATE` section with these lines between its first and its last one. -/
def sectionText (body : List (List Char)) : List Char :=
  (beginLine.toList :: (body ++ [endLine.toList])).flatMap (· ++ ['\n'])

/-- What is assumed of `rustls_pemfile::certs`: it gives the decoded contents of the sections, in
their order. -/
def ReadsSections (decode : String → Except String Bytes)
    (certs : String → Except String (List Bytes)) : Prop :=
  ∀ sections : List (List (List Char) × Bytes),
    (∀ x ∈ sections, (∀ line ∈ x.1, ∀ c ∈ line, c ≠ '-' ∧ c ≠ '\n') ∧
      decode (String.ofList x.1.flatten) = .ok x.2) →
    certs (String.ofList (sections.flatMap (fun x => sectionText x.1))) =
      .ok (sections.map Prod.snd)

lemma flatten_bodyLines (text : List Char) : (bodyLines text).flatten = text := by
  unfold bodyLines
  split
  · rename_i h
    rw [h]
    rfl
  · exact flatten_toChunks 64 text

lemma pemBlock_eq (encode : Bytes → String) (der : Bytes) :
    pemBlock encode der = (beginLine ++ String.singleton '\n') ++
      "\n".intercalate (((encode der).toList.toChunks 64).map String.ofList) ++
        (String.singleton '\n' ++ endLine) := by
  have hb : "-----BEGIN CERTIFICATE-----\n" = beginLine ++ String.singleton '\n' :=
    by decide +kernel
  have he : "\n-----END CERTIFICATE-----" = String.singleton '\n' ++ endLine := by decide +kernel
  unfold pemBlock
  rw [← hb, ← he]

lemma pemBlock_newline (der : Bytes) :
    (pemBlock encode der).toList ++ ['\n'] = sectionText (bodyLines (encode der).toList) := by
  have hb : ['\n'].intercalate ((encode der).toList.toChunks 64) ++ ['\n'] =
      (bodyLines (encode der).toList).flatMap (· ++ ['\n']) := by
    unfold bodyLines
    split
    · rename_i h
      rw [h]
      rfl
    · rename_i h
      refine intercalate_newline fun hn => h ?_
      rw [← flatten_toChunks 64 (encode der).toList, hn]
      rfl
  have hm : (((encode der).toList.toChunks 64).map String.ofList).map String.toList =
      (encode der).toList.toChunks 64 := by
    simp [map_map, Function.comp_def]
  rw [pemBlock_eq, sectionText, flatMap_cons, flatMap_append, flatMap_singleton, ← hb]
  simp only [String.toList_append, String.toList_intercalate, hm, String.toList_singleton,
    append_assoc]
  rfl

/-! ## Reading -/

lemma derToPem_eq (h : certs ≠ []) :
    "\n".intercalate (certs.map (pemBlock encode)) ++ "\n" =
      String.ofList (certs.flatMap (fun der => sectionText (bodyLines (encode der).toList))) := by
  have hb : (certs.map (pemBlock encode)).map String.toList ≠ [] := by simpa using h
  apply String.toList_injective
  rw [String.toList_append, String.toList_intercalate, String.toList_ofList]
  refine (intercalate_newline hb).trans ?_
  simp [flatMap_map, pemBlock_newline]

lemma notMem_of_mem_bodyLines (h : Base64 encode decode)
    (hdash : ∀ bytes, '-' ∉ (encode bytes).toList) (hl : line ∈ bodyLines (encode der).toList)
    (hc : c ∈ line) : c ≠ '-' ∧ c ≠ '\n' := by
  have hm : c ∈ (encode der).toList := by
    rw [← flatten_bodyLines (encode der).toList]
    exact mem_flatten_of_mem hl hc
  constructor
  · rintro rfl
    exact hdash der hm
  · rintro rfl
    exact absurd (h.visible der _ hm).1 (by decide)

/-- **The round trip** of certificates through their text. -/
theorem pemToDer_derToPem (h : Base64 encode decode)
    (hdash : ∀ bytes, '-' ∉ (encode bytes).toList) (hcerts : ReadsSections decode certs)
    (der : Bytes) (hder : der ≠ []) (pem : String) (hpem : derToPem encode der = .ok pem) :
    pemToDer certs pem = .ok der := by
  obtain ⟨pieces, hp, ⟨⟩⟩ := bind_eq_ok.mp hpem
  obtain ⟨hf, -⟩ := Scripts.DeeplinkToConfig.pieces_of_splitDerCerts hp
  have hne : pieces ≠ [] := by
    rintro rfl
    exact hder hf.symm
  have hread := hcerts (pieces.map (fun der => (bodyLines (encode der).toList, der))) (by
    intro x hx
    obtain ⟨piece, -, rfl⟩ := mem_map.mp hx
    refine ⟨fun line hl c hc => notMem_of_mem_bodyLines h hdash hl hc, ?_⟩
    rw [flatten_bodyLines, String.ofList_toList, h.decode_encode])
  rw [flatMap_map, map_map, ← derToPem_eq hne, show Prod.snd ∘ (fun der =>
    (bodyLines (encode der).toList, der)) = id from rfl, map_id] at hread
  rw [pemToDer, hread]
  cases pieces with
  | nil => exact absurd rfl hne
  | cons => exact congrArg Except.ok hf

/-! ## A reader of whole lines -/

/-- `body` is what was read since the first line of a section. -/
def lineCerts (decode : String → Except String Bytes) :
    Option String → List String → Except String (List Bytes)
  | none, [] => .ok []
  | some _, [] => .error "section end missing"
  | none, line :: lines => lineCerts decode (if line = beginLine then some "" else none) lines
  | some body, line :: lines =>
    if line = endLine then do
      let der ← decode body
      let certs ← lineCerts decode none lines
      return der :: certs
    else lineCerts decode (some (body ++ line)) lines

lemma splitOn_flatMap (h : ∀ line ∈ lines, '\n' ∉ line) :
    (lines.flatMap (· ++ ['\n'])).splitOn '\n' = lines ++ [[]] := by
  have hla : lines.flatMap (· ++ ['\n']) = ['\n'].intercalate (lines ++ [[]]) := by
    clear h
    induction lines with
    | nil => rfl
    | cons line lines ih =>
      obtain ⟨next, more, hn⟩ : ∃ next more, lines ++ [[]] = next :: more :=
        exists_cons_of_ne_nil (by simp)
      rw [flatMap_cons, ih, cons_append, hn, intercalate_cons_cons]
  rw [hla, splitOn_intercalate]
  · intro line hl
    rcases mem_append.mp hl with hl | hl
    · exact h line hl
    · rw [mem_singleton.mp hl]
      exact not_mem_nil
  · simp

lemma lineCerts_body {lines : List (List Char)}
    (hl : ∀ line ∈ lines, ∀ c ∈ line, c ≠ '-' ∧ c ≠ '\n') (body : String) (rest : List String) :
    lineCerts decode (some body) (lines.map String.ofList ++ endLine :: rest) =
      lineCerts decode (some (body ++ String.ofList lines.flatten)) (endLine :: rest) := by
  induction lines generalizing body with
  | nil => simp
  | cons line lines ih =>
    obtain ⟨hli, hl⟩ := forall_mem_cons.mp hl
    have hne : String.ofList line ≠ endLine := by
      intro heq
      have hm : '-' ∈ line := by
        rw [← String.toList_ofList (l := line), heq]
        decide
      exact (hli _ hm).1 rfl
    rw [map_cons, cons_append, lineCerts, if_neg hne, ih hl]
    simp [String.append_assoc]

lemma lineCerts_reads (decode : String → Except String Bytes) :
    ReadsSections decode
      (fun pem => lineCerts decode none ((pem.toList.splitOn '\n').map String.ofList)) := by
  intro sections hs
  have hli : ∀ line ∈ sections.flatMap
      (fun x => beginLine.toList :: (x.1 ++ [endLine.toList])), '\n' ∉ line := by
    intro line hl
    obtain ⟨x, hx, hl⟩ := mem_flatMap.mp hl
    simp only [mem_cons, mem_append, not_mem_nil, or_false] at hl
    rcases hl with rfl | hl | rfl
    · decide
    · exact fun hc => ((hs x hx).1 line hl _ hc).2 rfl
    · decide
  have hsplit := splitOn_flatMap hli
  simp only [flatMap_assoc] at hsplit
  simp only [String.toList_ofList, sectionText, hsplit]
  clear hli hsplit
  induction sections with
  | nil => rfl
  | cons x sections ih =>
    obtain ⟨⟨hl, hd⟩, hs⟩ := forall_mem_cons.mp hs
    simp only [flatMap_cons, cons_append, map_cons, append_assoc, map_append, String.ofList_toList,
      nil_append, map_nil] at ih ⊢
    rw [lineCerts, if_pos rfl, lineCerts_body hl, String.empty_append, lineCerts, if_pos rfl, hd,
      ih hs]
    rfl

lemma base64_dash (bytes : Bytes) : '-' ∉ (Core.base64 bytes).toList := by
  refine fun hdash => forall_base64 (P := (· ≠ '-')) (fun n heq => ?_) (by decide) bytes _ hdash rfl
  have hv := (base64_digit n).1
  rw [heq, show base64Value '-' = none by decide] at hv
  cases hv

theorem twoCertificates_roundTrip : ∃ pem,
    derToPem Core.base64 [0x30, 1, 7, 0x30, 0x81, 2, 8, 9] = .ok pem ∧
      pemToDer (fun pem => lineCerts base64Decode none ((pem.toList.splitOn '\n').map .ofList))
        pem = .ok [0x30, 1, 7, 0x30, 0x81, 2, 8, 9] := by
  have hs : splitDerCerts [0x30, 1, 7, 0x30, 0x81, 2, 8, 9] =
    .ok [[0x30, 1, 7], [0x30, 0x81, 2, 8, 9]] := by
    decide +kernel
  obtain ⟨pem, hp⟩ : ∃ pem, derToPem Core.base64 [0x30, 1, 7, 0x30, 0x81, 2, 8, 9] = .ok pem := by
    rw [derToPem, hs]
    exact ⟨_, rfl⟩
  exact ⟨pem, hp, pemToDer_derToPem base64_standard base64_dash (lineCerts_reads _) _ (by decide)
    pem hp⟩

end TrustTunnel.DeepLink
