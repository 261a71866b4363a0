import TrustTunnel.HeaderNames

/-!
# The conversion of response headers (`http_forwarded_stream.rs`)

`convert_response` goes through the headers once: what is named or excluded is dropped from there
on only.
-/

namespace TrustTunnel.HttpForwardedStream

open Io Http ParsedHeader List
open Lib.Keyed
open Lib.Http1 (utf8 codings)

namespace Conversion

/-! ## The promise -/

def values (name : String) (headers : List ParsedHeader) : List Bytes :=
  (keyed key name headers).map value

def Agree : Except IoError (ResponseHeaders × Option BodyLength) →
    Except IoError (ResponseHeaders × Option BodyLength) → Prop
  | .ok (a, l), .ok (b, m) =>
    a.version = b.version ∧ a.status = b.status ∧ (∀ name, values name a.headers = values name b.headers) ∧
      l = m
  | .error _, .error _ => True
  | _, _ => False

def connectionHeaders : List String :=
  ["connection", "keep-alive", "proxy-connection", "upgrade", "transfer-encoding"]

/-- The elements of the `Connection` headers. -/
def connectionElements (headers : List ParsedHeader) : List Bytes :=
  codings (values "connection" headers)

/-- The last transfer coding is `chunked`, in whatever letters. -/
def LastChunked (headers : List ParsedHeader) : Prop :=
  (codings (values "transfer-encoding" headers)).getLast? = some (utf8 "chunked")

structure Converts (method : Method) (version : Version) (r : ParsedResponse) : Prop where
  order : ∀ headers, SameOrder key r.headers headers →
    Agree (convertResponse method version r) (convertResponse method version ⟨r.code, headers⟩)
  forwarded : ∀ converted l, convertResponse method version r = .ok (converted, l) →
    ∀ h ∈ converted.headers,
      h.key ∉ connectionHeaders ∧ utf8 h.key ∉ connectionElements r.headers
  chunked : ∀ converted l, convertResponse method version r = .ok (converted, l) →
    LastChunked r.headers →
      l = some .chunked ∧ ∀ h ∈ converted.headers, h.key ≠ "content-length"

/-! ## The condition -/

/-- What the `Connection` headers name; one that names itself is the last. -/
def options : List ParsedHeader → List String
  | [] => []
  | h :: headers =>
    if h.key = "connection" then
      connectionOptions h.value ++
        if "connection" ∈ connectionOptions h.value then [] else options headers
    else options headers

/-- The first transfer coding is spelled `chunked`. -/
def firstChunked (headers : List ParsedHeader) : Bool :=
  (keyed key "transfer-encoding" headers).head?.any (fun h => h.value == utf8 "chunked")

structure Rejected (headers : List ParsedHeader) : Prop where
  no_coding : keyed key "transfer-encoding" headers = []
  not_named : "content-length" ∉ options headers
  unreadable : ∃ h, (keyed key "content-length" headers).head? = some h ∧
    (Text.fromUtf8 h.value).bind parseU64 = none

/-- No header is named, no coding comes with a length, and one that matters is alone and spelled
`chunked`. -/
structure Orderly (method : Method) (r : ParsedResponse) : Prop where
  not_named : ∀ h ∈ r.headers, h.key ∉ connectionHeaders →
    h.key ∉ options r.headers ∧ utf8 h.key ∉ connectionElements r.headers
  one_framing : keyed key "transfer-encoding" r.headers = [] ∨
    keyed key "content-length" r.headers = []
  coding : isBodiless method r.code = false → firstChunked r.headers = true →
    "transfer-encoding" ∉ options r.headers
  last : LastChunked r.headers → isBodiless method r.code = false ∧ firstChunked r.headers = true

/-! ## Rearranged headers -/

section

variable {headers headers' : List ParsedHeader}

lemma options_keyed (headers : List ParsedHeader) :
    options (keyed key "connection" headers) = options headers := by
  induction headers with
  | nil => rfl
  | cons h headers ih =>
    by_cases hc : h.key = "connection"
    · simp [keyed_cons, if_pos hc, options, ih]
    · simp [keyed_cons, if_neg hc, options, ih]

lemma options_sameOrder (h : SameOrder key headers headers') :
    options headers = options headers' := by
  rw [← options_keyed headers, h "connection", options_keyed]

lemma firstChunked_sameOrder (h : SameOrder key headers headers') :
    firstChunked headers = firstChunked headers' := by
  rw [firstChunked, h "transfer-encoding", firstChunked]

lemma Rejected.sameOrder (hr : Rejected headers)
    (h : SameOrder key headers headers') : Rejected headers' :=
  ⟨h _ ▸ hr.no_coding, options_sameOrder h ▸ hr.not_named, h "content-length" ▸ hr.unreadable⟩

lemma Orderly.sameOrder (ho : Orderly method r)
    (h : SameOrder key r.headers headers) : Orderly method ⟨r.code, headers⟩ := by
  have hv : ∀ name, values name headers = values name r.headers := fun name => by
    rw [values, ← h name, values]
  refine ⟨fun x hx hn => ?_, ?_, ?_, ?_⟩
  · rw [connectionElements, hv, ← options_sameOrder h]
    exact ho.not_named x ((h.mem_iff x).mpr hx) hn
  · rw [← h "transfer-encoding", ← h "content-length"]
    exact ho.one_framing
  · rw [← firstChunked_sameOrder h, ← options_sameOrder h]
    exact ho.coding
  · rw [LastChunked, hv, ← firstChunked_sameOrder h]
    exact ho.last

end

/-! ## What is kept -/

section

variable {headers : List ParsedHeader} {dropHeaders : List String} {name : String}

lemma kept_append (dropHeaders : List String) (headers headers' : List ParsedHeader) :
    kept dropHeaders (headers ++ headers') =
      kept dropHeaders headers ++ kept (dropsAfter dropHeaders headers) headers' := by
  induction headers generalizing dropHeaders with
  | nil => rfl
  | cons h headers ih =>
    rw [cons_append, kept, kept, ih]
    split_ifs
    · rfl
    · rfl

lemma kept_eq_nil (h : ∀ x ∈ headers, x.key = "connection" ∨ x.key = "transfer-encoding")
    (dropHeaders : List String) : kept dropHeaders headers = [] := by
  refine eq_nil_iff_forall_not_mem.mpr fun x hx => ?_
  obtain ⟨hin, -, hc, hco⟩ := mem_kept hx
  rcases h x hin with h | h
  · exact hc h
  · exact hco h

lemma mem_dropsAfter (hn : name ∈ dropHeaders) (headers : List ParsedHeader) :
    name ∈ dropsAfter dropHeaders headers := by
  induction headers generalizing dropHeaders with
  | nil => exact hn
  | cons h headers ih => exact ih (mem_dropStep hn h)

/-- It is not dropped, and no `Connection` header to come names it. -/
structure Unnamed (name : String) (dropHeaders : List String) (headers : List ParsedHeader) :
    Prop where
  not_dropped : name ∉ dropHeaders
  not_option : "connection" ∉ dropHeaders → name ∉ options headers

lemma Unnamed.step (hu : Unnamed name dropHeaders (h :: headers))
    (hco : h.key = "transfer-encoding" → name ≠ "content-length" ∧ name ≠ "transfer-encoding") :
    Unnamed name (dropStep dropHeaders h) headers := by
  have hot : h.key ≠ "connection" → "connection" ∉ dropHeaders → name ∉ options headers := by
    intro hne hno
    have ho := hu.not_option hno
    rwa [options, if_neg hne] at ho
  unfold dropStep
  split_ifs with hd hc ht
  · exact ⟨hu.not_dropped, fun hno => hot (fun heq => hno (heq ▸ hd)) hno⟩
  · have ho := hu.not_option (hc ▸ hd)
    rw [options, if_pos hc, mem_append, not_or] at ho
    refine ⟨mem_append.not.mpr (not_or.mpr ⟨hu.not_dropped, ho.1⟩), fun hno => ?_⟩
    rw [mem_append, not_or] at hno
    rw [if_neg hno.2] at ho
    exact ho.2
  · refine ⟨?_, fun hno => hot hc fun hm => hno (mem_append_left _ hm)⟩
    simp only [mem_append, mem_cons, not_mem_nil, or_false, not_or]
    exact ⟨hu.not_dropped, hco ht⟩
  · exact ⟨hu.not_dropped, hot hc⟩

lemma keyed_kept (hc : name ≠ "connection") (hco : name ≠ "transfer-encoding")
    (hu : Unnamed name dropHeaders headers)
    (hl : name = "content-length" → keyed key "transfer-encoding" headers = []) :
    keyed key name (kept dropHeaders headers) = keyed key name headers := by
  induction headers generalizing dropHeaders with
  | nil => rfl
  | cons h headers ih =>
    have hr : keyed key name (kept (dropStep dropHeaders h) headers) =
        keyed key name headers := by
      refine ih (hu.step fun ht => ⟨fun hna => ?_, hco⟩) fun hna => ?_
      · have hn := hl hna
        rw [keyed_cons, if_pos ht] at hn
        cases hn
      · have hn := hl hna
        rw [keyed_cons] at hn
        split_ifs at hn
        exact hn
    rw [kept, keyed_cons]
    split_ifs with hk hna hna
    · rw [keyed_cons, if_pos hna, hr]
    · rw [keyed_cons, if_neg hna, hr]
    · rw [hna] at hk
      exact absurd ⟨hu.not_dropped, hc, hco⟩ hk
    · exact hr

lemma mem_dropsAfter_of_options (h : ∀ x ∈ headers, x.key = "connection")
    (hd : "connection" ∉ dropHeaders) (hna : name ∈ options headers) :
    name ∈ dropsAfter dropHeaders headers := by
  induction headers generalizing dropHeaders with
  | nil => cases hna
  | cons x headers ih =>
    have hx := h x mem_cons_self
    have hs : dropStep dropHeaders x = dropHeaders ++ connectionOptions x.value := by
      rw [dropStep, if_neg (hx ▸ hd), if_pos hx]
    rw [options, if_pos hx, mem_append] at hna
    rw [dropsAfter, foldl_cons, hs]
    rcases hna with hn | hl
    · exact mem_dropsAfter (mem_append_right _ hn) headers
    · split_ifs at hl with hse
      · cases hl
      · refine ih (fun y hy => h y (mem_cons_of_mem x hy)) ?_ hl
        rw [mem_append, not_or]
        exact ⟨hd, hse⟩

lemma recognises_connection (h : ∀ x ∈ headers, x.key = "connection") (dropHeaders : List String)
    (headers' : List ParsedHeader) : recognises dropHeaders (headers ++ headers') =
      recognises (dropsAfter dropHeaders headers) headers' := by
  induction headers generalizing dropHeaders with
  | nil => rfl
  | cons x headers ih =>
    have hx := h x mem_cons_self
    have hr := ih (fun y hy => h y (mem_cons_of_mem x hy))
    rw [cons_append, recognises, dropsAfter, foldl_cons, dropStep]
    split_ifs
    · exact hr _
    · exact hr _

lemma firstChunked_of_recognises (h : recognises dropHeaders headers) : firstChunked headers := by
  induction headers generalizing dropHeaders with
  | nil => cases h
  | cons x headers ih =>
    have hr : x.key ≠ "transfer-encoding" → firstChunked headers →
        firstChunked (x :: headers) := by
      intro hx hfirst
      rwa [firstChunked, keyed_cons, if_neg hx]
    rw [recognises] at h
    split_ifs at h with hd hc hco
    · refine hr (fun hx => ?_) (ih h)
      rw [recognises_of_dropped (hx ▸ hd)] at h
      cases h
    · exact hr (fun hx => absurd (hc.symm.trans hx) (by decide)) (ih h)
    · rw [firstChunked, keyed_cons, if_pos hco]
      exact h
    · exact hr hco (ih h)

lemma recognises_eq (hu : Unnamed "transfer-encoding" dropHeaders headers) :
    recognises dropHeaders headers = firstChunked headers := by
  induction headers generalizing dropHeaders with
  | nil => rfl
  | cons x headers ih =>
    by_cases hco : x.key = "transfer-encoding"
    · have hd : x.key ∉ dropHeaders := hco ▸ hu.not_dropped
      have hc : x.key ≠ "connection" := hco ▸ by decide
      rw [recognises, if_neg hd, if_neg hc, if_pos hco, firstChunked, keyed_cons, if_pos hco]
      rfl
    · have hr := ih (hu.step fun ht => absurd ht hco)
      rw [firstChunked, keyed_cons, if_neg hco, ← firstChunked, ← hr, recognises, dropStep,
        if_neg hco, if_neg hco]
      split_ifs
      · rfl
      · rfl
      · rfl

end

/-! ## Orders that show a difference -/

section

variable {name : String} {headers : List ParsedHeader}

lemma of_not_mem_connectionHeaders (hn : name ∉ connectionHeaders) :
    name ∉ hopHeaders ∧ name ≠ "connection" ∧ name ≠ "transfer-encoding" := by
  simp only [connectionHeaders, mem_cons, not_mem_nil, or_false, not_or] at hn
  simp [hopHeaders, hn]

lemma keyed_kept_front (hna : name ∉ connectionHeaders) (headers : List ParsedHeader) :
    keyed key name (kept hopHeaders (front key name headers)) = keyed key name headers := by
  have hn := of_not_mem_connectionHeaders hna
  -- nothing changes while the headers with the name go by
  have hf : ∀ l : List ParsedHeader, (∀ x ∈ l, x.key = name) →
      kept hopHeaders l = l ∧ dropsAfter hopHeaders l = hopHeaders := by
    intro l hl
    induction l with
    | nil => exact ⟨rfl, rfl⟩
    | cons x l ih =>
      obtain ⟨hk, hd⟩ := ih fun y hy => hl y (mem_cons_of_mem x hy)
      have hx : x.key ∉ hopHeaders ∧ x.key ≠ "connection" ∧ x.key ≠ "transfer-encoding" :=
        (hl x mem_cons_self).symm ▸ hn
      have hs : dropStep hopHeaders x = hopHeaders := by
        rw [dropStep, if_neg hx.1, if_neg hx.2.1, if_neg hx.2.2]
      rw [kept, if_pos hx, dropsAfter, foldl_cons, hs, hk]
      exact ⟨rfl, hd⟩
  obtain ⟨hk, hd⟩ := hf (keyed key name headers) fun x hx => (mem_keyed.mp hx).2
  have hr : keyed key name (kept hopHeaders (headers.filter fun x => x.key ≠ name)) = [] :=
    keyed_eq_nil fun x hx => of_decide_eq_true (mem_filter.mp (mem_kept hx).1).2
  rw [front, kept_append, hk, hd, keyed_append, hr, append_nil,
    keyed_eq_self fun x hx => (mem_keyed.mp hx).2]

lemma connection_front (h : name ∈ options headers) :
    name ∈ dropsAfter hopHeaders (keyed key "connection" headers) :=
  mem_dropsAfter_of_options (fun x hx => (mem_keyed.mp hx).2) (by decide)
    (options_keyed headers ▸ h)

lemma keyed_kept_connection_front (h : name ∈ options headers) :
    keyed key name (kept hopHeaders (front key "connection" headers)) = [] := by
  rw [front, kept_append, kept_eq_nil fun x hx => .inl (mem_keyed.mp hx).2, nil_append]
  exact keyed_kept_of_dropped (connection_front h) _

lemma recognises_connection_front (h : "transfer-encoding" ∈ options headers) :
    recognises hopHeaders (front key "connection" headers) = false := by
  rw [front, recognises_connection fun x hx => (mem_keyed.mp hx).2]
  exact recognises_of_dropped (connection_front h) _

lemma coding_front (h : keyed key "transfer-encoding" headers ≠ []) : keyed key "content-length"
        (kept hopHeaders (front key "transfer-encoding" headers)) = [] ∧
      recognises hopHeaders (front key "transfer-encoding" headers) = firstChunked headers := by
  have hk : ∀ x ∈ keyed key "transfer-encoding" headers, x.key = "transfer-encoding" :=
    fun x hx => (mem_keyed.mp hx).2
  rw [front, kept_append, kept_eq_nil fun x hx => .inr (hk x hx), nil_append]
  rw [firstChunked]
  cases hl : keyed key "transfer-encoding" headers with
  | nil => exact absurd hl h
  | cons t ts =>
    have ht : t.key = "transfer-encoding" := hk t (hl ▸ mem_cons_self)
    have hd : t.key ∉ hopHeaders := ht ▸ by decide
    have hc : t.key ≠ "connection" := ht ▸ by decide
    constructor
    · refine keyed_kept_of_dropped ?_ _
      refine mem_dropsAfter ?_ ts
      rw [dropStep, if_neg hd, if_neg hc, if_pos ht]
      exact mem_append_right _ mem_cons_self
    · rw [cons_append, recognises, if_neg hd, if_neg hc, if_pos ht]
      rfl

end

/-! ## The conversion -/

section

variable {name : String} {method : Method} {r : ParsedResponse}

structure WellFormed (r : ParsedResponse) : Prop where
  status : 100 ≤ r.code ∧ r.code ≤ 999
  headers : ∀ h ∈ r.headers, isToken h.name = true ∧ isHeaderValue h.value = true

lemma foundLength_ne_chunked (h : foundLength none headers = .ok l) : l ≠ some .chunked := by
  rintro rfl
  simp only [foundLength] at h
  split at h
  · cases h
  · rw [lengthOf] at h
    split at h
    · cases h
    · cases h

lemma keyed_kept_eq_nil (hn : name ∈ connectionHeaders) (headers : List ParsedHeader) :
    keyed key name (kept hopHeaders headers) = [] := by
  refine keyed_eq_nil fun x hx hk => ?_
  obtain ⟨-, hh, hc, hco⟩ := mem_kept hx
  rw [hk] at hh hc hco
  simp only [connectionHeaders, mem_cons, not_mem_nil, or_false] at hn
  simp [hopHeaders] at hh
  tauto

lemma Rejected.foundLength (h : Rejected headers) : foundLength none (kept hopHeaders headers) =
      .error (.other "Invalid Content-Length header value: ") := by
  have hu : Unnamed "content-length" hopHeaders headers :=
    ⟨by decide, fun _ => h.not_named⟩
  have hk := keyed_kept (by decide) (by decide) hu fun _ => h.no_coding
  obtain ⟨x, hx, hp⟩ := h.unreadable
  simp [Conversion.foundLength, hk, hx, lengthOf, hp]

lemma Orderly.keyed_kept (h : Orderly method r) (hna : name ∉ connectionHeaders) :
    keyed key name (kept hopHeaders r.headers) = keyed key name r.headers := by
  have hn := of_not_mem_connectionHeaders hna
  cases hk : keyed key name r.headers with
  | nil =>
    refine keyed_eq_nil fun x hx hke => ?_
    have hm : x ∈ keyed key name r.headers := mem_keyed.mpr ⟨(mem_kept hx).1, hke⟩
    rw [hk] at hm
    cases hm
  | cons x =>
    have hx : x ∈ r.headers ∧ x.key = name := mem_keyed.mp (hk ▸ mem_cons_self)
    have hu := (h.not_named x hx.1 (hx.2.symm ▸ hna)).1
    rw [hx.2] at hu
    rw [← hk]
    refine Conversion.keyed_kept hn.2.1 hn.2.2 ⟨hn.1, fun _ => hu⟩ fun hl => ?_
    refine h.one_framing.resolve_right fun hni => ?_
    rw [← hl, hk] at hni
    cases hni

lemma Orderly.finalLength (h : Orderly method r) (l : Option BodyLength) :
    finalLength method r l = if isBodiless method r.code then some (.determined 0)
      else if firstChunked r.headers then some .chunked else l := by
  rw [Conversion.finalLength]
  cases hb : isBodiless method r.code with
  | true => rfl
  | false =>
    cases hf : firstChunked r.headers with
    | true =>
      have hu : Unnamed "transfer-encoding" hopHeaders r.headers :=
        ⟨by decide, fun _ => h.coding hb hf⟩
      rw [recognises_eq hu, hf]
    | false =>
      have hre : recognises hopHeaders r.headers = false := by
        cases hr : recognises hopHeaders r.headers with
        | false => rfl
        | true => exact (firstChunked_of_recognises hr).symm.trans hf
      rw [hre]

end

section

variable {method : Method} {version : Version} (hver : version = .http2 ∨ version = .http3)
  {r : ParsedResponse} (hr : WellFormed r)

include hver hr

lemma convertResponse_wellFormed : convertResponse method version r =
    (foundLength none (kept hopHeaders r.headers)).map fun l =>
      (⟨version, r.code, kept hopHeaders r.headers⟩, finalLength method r l) := by
  have ht : (kept hopHeaders r.headers).map trimmed = kept hopHeaders r.headers := by
    refine (map_congr_left fun h hh => ?_).trans (map_id _)
    rw [trimmed, trimEnd_of_isToken (hr.headers h (mem_kept hh).1).1]
    rfl
  rw [convertResponse_eq method (fun _ _ _ => hver) hr.status, ht]
  intro h hh
  rw [trimEnd_of_isToken (hr.headers h hh).1]
  exact hr.headers h hh

lemma of_convertResponse (h : convertResponse method version r = .ok (converted, l)) :
    ∃ l0, foundLength none (kept hopHeaders r.headers) = .ok l0 ∧
      converted.headers = kept hopHeaders r.headers ∧ l = finalLength method r l0 := by
  rw [convertResponse_wellFormed hver hr] at h
  cases hf : foundLength none (kept hopHeaders r.headers) with
  | error =>
    rw [hf] at h
    cases h
  | ok l0 =>
    rw [hf] at h
    cases h
    exact ⟨l0, rfl, rfl, rfl⟩

lemma agree_iff (h : SameOrder key r.headers headers) :
    Agree (convertResponse method version r) (convertResponse method version ⟨r.code, headers⟩) ↔
      (∃ e e', foundLength none (kept hopHeaders r.headers) = .error e ∧
        foundLength none (kept hopHeaders headers) = .error e') ∨
      ∃ l l', foundLength none (kept hopHeaders r.headers) = .ok l ∧
        foundLength none (kept hopHeaders headers) = .ok l' ∧
        (∀ name, values name (kept hopHeaders r.headers) = values name (kept hopHeaders headers)) ∧
        finalLength method r l = finalLength method ⟨r.code, headers⟩ l' := by
  have hr' : WellFormed ⟨r.code, headers⟩ :=
    ⟨hr.status, fun x hx => hr.headers x ((h.mem_iff x).mpr hx)⟩
  rw [convertResponse_wellFormed hver hr, convertResponse_wellFormed hver hr']
  cases foundLength none (kept hopHeaders r.headers) with
  | error | ok =>
    cases foundLength none (kept hopHeaders headers) with
    | error | ok => simp [Except.map, Agree]

lemma converts_of_rejected (hre : Rejected r.headers) : Converts method version r := by
  have he : convertResponse method version r =
      .error (.other "Invalid Content-Length header value: ") := by
    rw [convertResponse_wellFormed hver hr, hre.foundLength]
    rfl
  refine ⟨fun headers h => ?_, fun converted l hok => ?_, fun converted l hok => ?_⟩
  · exact (agree_iff hver hr h).mpr
      (.inl ⟨_, _, hre.foundLength, (hre.sameOrder h).foundLength⟩)
  · rw [he] at hok
    cases hok
  · rw [he] at hok
    cases hok

lemma converts_of_orderly (ho : Orderly method r) : Converts method version r := by
  refine ⟨fun headers h => ?_, fun converted l hok => ?_, fun converted l hok hl => ?_⟩
  · have ho' := ho.sameOrder h
    have hk : ∀ name, keyed key name (kept hopHeaders r.headers) =
        keyed key name (kept hopHeaders headers) := by
      intro name
      by_cases hna : name ∈ connectionHeaders
      · rw [keyed_kept_eq_nil hna, keyed_kept_eq_nil hna]
      · rw [ho.keyed_kept hna, ho'.keyed_kept hna, h name]
    have hf : foundLength none (kept hopHeaders r.headers) =
        foundLength none (kept hopHeaders headers) := by
      simp [foundLength, hk]
    rw [agree_iff hver hr h, ← hf]
    cases foundLength none (kept hopHeaders r.headers) with
    | error e => exact .inl ⟨e, e, rfl, rfl⟩
    | ok l =>
      refine .inr ⟨l, l, rfl, rfl, fun name => by rw [values, hk, values], ?_⟩
      rw [ho.finalLength, ho'.finalLength, firstChunked_sameOrder h]
  · intro x hx
    obtain ⟨-, -, hh, -⟩ := of_convertResponse hver hr hok
    rw [hh] at hx
    have hna : x.key ∉ connectionHeaders := by
      intro hna
      have hm : x ∈ keyed key x.key (kept hopHeaders r.headers) :=
        mem_keyed.mpr ⟨hx, rfl⟩
      rw [keyed_kept_eq_nil hna] at hm
      cases hm
    exact ⟨hna, (ho.not_named x (mem_kept hx).1 hna).2⟩
  · obtain ⟨l0, -, hh, rfl⟩ := of_convertResponse hver hr hok
    obtain ⟨hb, hfi⟩ := ho.last hl
    constructor
    · rw [ho.finalLength, hb, hfi]
      rfl
    · intro x hx hle
      rw [hh] at hx
      have hm : x ∈ keyed key "content-length" r.headers :=
        mem_keyed.mpr ⟨(mem_kept hx).1, hle⟩
      rcases ho.one_framing with hn | hn
      · rw [firstChunked, hn] at hfi
        cases hfi
      · rw [hn] at hm
        cases hm

lemma exists_foundLength (hc : Converts method version r) (hre : ¬ Rejected r.headers) :
    ∃ l, foundLength none (kept hopHeaders r.headers) = .ok l := by
  have hf : ∀ name, keyed key "content-length"
        (kept hopHeaders (front key name r.headers)) = [] →
      ∃ l, foundLength none (kept hopHeaders r.headers) = .ok l := by
    intro name hni
    have ho := sameOrder_front key name r.headers
    rcases (agree_iff hver hr ho).mp (hc.order _ ho) with
      ⟨e, e', -, he⟩ | ⟨l, l', hok, -⟩
    · rw [foundLength_of_nil hni] at he
      cases he
    · exact ⟨l, hok⟩
  by_cases hco : keyed key "transfer-encoding" r.headers = []
  · by_cases hn : "content-length" ∈ options r.headers
    · exact hf "connection" (keyed_kept_connection_front hn)
    · have hu : Unnamed "content-length" hopHeaders r.headers :=
        ⟨by decide, fun _ => hn⟩
      have hk := keyed_kept (by decide) (by decide) hu fun _ => hco
      cases hl : (keyed key "content-length" r.headers).head? with
      | none => exact ⟨none, by simp only [foundLength, hk, hl]⟩
      | some x =>
        cases hp : (Text.fromUtf8 x.value).bind parseU64 with
        | none => exact absurd ⟨hco, hn, x, hl, hp⟩ hre
        | some n =>
          exact ⟨some (.determined n), by simp only [foundLength, hk, hl, lengthOf, hp]⟩
  · exact hf "transfer-encoding" (coding_front hco).1

lemma orderly_of_converts (hc : Converts method version r)
    (hrej : ¬ Rejected r.headers) : Orderly method r := by
  obtain ⟨l, hl⟩ := exists_foundLength hver hr hc hrej
  have hok : convertResponse method version r =
      .ok (⟨version, r.code, kept hopHeaders r.headers⟩, finalLength method r l) := by
    rw [convertResponse_wellFormed hver hr, hl]
    rfl
  -- what a rearrangement gives
  have hf : ∀ name, ∃ l', foundLength none (kept hopHeaders (front key name r.headers)) = .ok l' ∧
      (∀ x, values x (kept hopHeaders r.headers) =
        values x (kept hopHeaders (front key name r.headers))) ∧
      finalLength method r l = finalLength method ⟨r.code, front key name r.headers⟩ l' := by
    intro name
    have ho := sameOrder_front key name r.headers
    rcases (agree_iff hver hr ho).mp (hc.order _ ho) with
      ⟨e, -, he, -⟩ | ⟨l1, l', hl1, hl', hv, hle⟩
    · rw [hl] at he
      cases he
    · rw [hl] at hl1
      cases hl1
      exact ⟨l', hl', hv, hle⟩
  -- a header that is dropped in some order is not there
  have ha : ∀ name front', name ∉ connectionHeaders →
      keyed key name (kept hopHeaders (front key front' r.headers)) = [] →
      keyed key name r.headers = [] := by
    intro name front' hname hn
    obtain ⟨-, -, hv, -⟩ := hf front'
    obtain ⟨-, -, hv', -⟩ := hf name
    have heq := (hv' name).symm.trans (hv name)
    rw [values, values, keyed_kept_front hname, hn, map_nil] at heq
    exact map_eq_nil_iff.mp heq
  have hon : keyed key "transfer-encoding" r.headers = [] ∨
      keyed key "content-length" r.headers = [] := by
    by_cases hco : keyed key "transfer-encoding" r.headers = []
    · exact .inl hco
    · exact .inr (ha _ "transfer-encoding" (by decide) (coding_front hco).1)
  refine ⟨fun x hx hname => ?_, hon, fun hb hfi hna => ?_, fun hla => ?_⟩
  · have hm : x ∈ keyed key x.key r.headers := mem_keyed.mpr ⟨hx, rfl⟩
    have hu : x.key ∉ options r.headers := by
      intro hna
      rw [ha x.key "connection" hname (keyed_kept_connection_front hna)] at hm
      cases hm
    refine ⟨hu, ?_⟩
    -- so it is kept
    have hnam := of_not_mem_connectionHeaders hname
    have hk : x ∈ kept hopHeaders r.headers := by
      rw [← keyed_kept hnam.2.1 hnam.2.2 ⟨hnam.1, fun _ => hu⟩ fun hle => ?_] at hm
      · exact (mem_keyed.mp hm).1
      · refine hon.resolve_right fun hn => ?_
        rw [hle, hn] at hm
        cases hm
    exact (hc.forwarded _ _ hok x hk).2
  · -- with the coding first the body is chunked, with the `Connection` headers first it is not
    have hco : keyed key "transfer-encoding" r.headers ≠ [] := by
      intro hn
      rw [firstChunked, hn] at hfi
      cases hfi
    obtain ⟨l1, -, -, hch⟩ := hf "transfer-encoding"
    obtain ⟨l2, hl2, -, hot⟩ := hf "connection"
    rw [hot] at hch
    simp only [finalLength, hb, recognises_connection_front hna, (coding_front hco).2,
      hfi, Bool.false_eq_true, if_false, if_true] at hch
    exact foundLength_ne_chunked hl2 hch
  · obtain ⟨hle, -⟩ := hc.chunked _ _ hok hla
    rw [finalLength] at hle
    split_ifs at hle with hb hre
    · cases hle
    · exact ⟨Bool.not_eq_true _ ▸ hb, firstChunked_of_recognises hre⟩
    · exact absurd hle (foundLength_ne_chunked hl)

/-- **The conversion of headers.** -/
theorem converts_iff : Converts method version r ↔ Rejected r.headers ∨ Orderly method r := by
  constructor
  · intro h
    by_cases hre : Rejected r.headers
    · exact .inl hre
    · exact .inr (orderly_of_converts hver hr h hre)
  · rintro (h | h)
    · exact converts_of_rejected hver hr h
    · exact converts_of_orderly hver hr h

end

def orderlyHeaders : List ParsedHeader :=
  [⟨"Keep-Alive", utf8 "timeout=5"⟩, ⟨"Transfer-Encoding", utf8 "chunked"⟩, ⟨"Server", utf8 "a"⟩]

theorem converts_orderlyHeaders : Converts .get .http2 ⟨200, orderlyHeaders⟩ := by
  refine (converts_iff (.inl rfl) ⟨by decide, by decide +kernel⟩).mpr (.inr ⟨?_, ?_, ?_, ?_⟩)
  · decide +kernel
  · decide +kernel
  · intro _ _
    decide +kernel
  · intro _
    decide +kernel

/-- A named header is passed on, a length replaced, and `Chunked` not recognised. -/
theorem converts_not_always :
    (convertResponse .get .http2 ⟨200, [⟨"X-Hop", utf8 "1"⟩, ⟨"Connection", utf8 "x-hop"⟩]⟩ =
        .ok (⟨.http2, 200, [⟨"X-Hop", utf8 "1"⟩]⟩, none) ∧
      ¬ Converts .get .http2 ⟨200, [⟨"X-Hop", utf8 "1"⟩, ⟨"Connection", utf8 "x-hop"⟩]⟩) ∧
    (convertResponse .get .http2
        ⟨200, [⟨"Content-Length", utf8 "5"⟩, ⟨"Transfer-Encoding", utf8 "chunked"⟩]⟩ =
        .ok (⟨.http2, 200, [⟨"Content-Length", utf8 "5"⟩]⟩, some .chunked) ∧
      ¬ Converts .get .http2
        ⟨200, [⟨"Content-Length", utf8 "5"⟩, ⟨"Transfer-Encoding", utf8 "chunked"⟩]⟩) ∧
    (convertResponse .get .http2 ⟨200, [⟨"Transfer-Encoding", utf8 "Chunked"⟩]⟩ =
        .ok (⟨.http2, 200, []⟩, none) ∧
      ¬ Converts .get .http2 ⟨200, [⟨"Transfer-Encoding", utf8 "Chunked"⟩]⟩) := by
  refine ⟨?_, ?_, ?_⟩
  · have hr : convertResponse .get .http2
        ⟨200, [⟨"X-Hop", utf8 "1"⟩, ⟨"Connection", utf8 "x-hop"⟩]⟩ =
          .ok (⟨.http2, 200, [⟨"X-Hop", utf8 "1"⟩]⟩, none) := by
      decide +kernel
    refine ⟨hr, fun h => ?_⟩
    exact (h.forwarded _ _ hr ⟨"X-Hop", utf8 "1"⟩ mem_cons_self).2 (by decide +kernel)
  · have hr : convertResponse .get .http2
        ⟨200, [⟨"Content-Length", utf8 "5"⟩, ⟨"Transfer-Encoding", utf8 "chunked"⟩]⟩ =
          .ok (⟨.http2, 200, [⟨"Content-Length", utf8 "5"⟩]⟩, some .chunked) := by
      decide +kernel
    refine ⟨hr, fun h => ?_⟩
    have hl : LastChunked [⟨"Content-Length", utf8 "5"⟩,
      ⟨"Transfer-Encoding", utf8 "chunked"⟩] := by
      unfold LastChunked
      decide +kernel
    exact (h.chunked _ _ hr hl).2 ⟨"Content-Length", utf8 "5"⟩ mem_cons_self
      (by decide +kernel)
  · have hr : convertResponse .get .http2 ⟨200, [⟨"Transfer-Encoding", utf8 "Chunked"⟩]⟩ =
        .ok (⟨.http2, 200, []⟩, none) := by
      decide +kernel
    refine ⟨hr, fun h => ?_⟩
    have hl : LastChunked [⟨"Transfer-Encoding", utf8 "Chunked"⟩] := by
      unfold LastChunked
      decide +kernel
    cases (h.chunked _ _ hr hl).1

end Conversion

end TrustTunnel.HttpForwardedStream
