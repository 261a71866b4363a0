import Mathlib.Algebra.Group.Int.Defs
import TrustTunnel.ForwardedResponse
import TrustTunnel.Lib.Toml

/-!
# The credentials file (`settings.rs`, `library_settings.rs`)

The wizard writes the clients as TOML and the endpoint reads them back, by stripping quotes off
the text of each value. How `toml_edit` writes a string is `repr`.
-/

namespace TrustTunnel.CredentialsFile

open Authentication List Lib.Toml HttpForwardedStream.Text Lib.Toml.Kind
open HttpForwardedStream (Text.isWhitespace)

/-! ## Documents (the `toml_edit` crate) -/

structure Item where
  text : String
  asInteger : Option Int

abbrev TomlTable := List (String × Item)

def TomlTable.get (t : TomlTable) (key : String) : Option Item := lookup key t

structure Document where
  arrays : List (String × List TomlTable)

/-- What is parsed from the rendered text; an array without tables has none. -/
def Document.reread (d : Document) : Document :=
  ⟨(d.arrays.filter (fun a => !a.2.isEmpty)).map (fun a =>
    (a.1, a.2.map (fun t => t.map (fun e => (e.1, { e.2 with text := " " ++ e.2.text })))))⟩

/-! ## The writer and the reader -/

/-- `compose_credentials_content`, before it is rendered. -/
def composeCredentialsContent (repr : String → String) (clients : List (String × String)) :
    Document :=
  ⟨[("client", clients.map (fun c =>
    [("username", ⟨repr c.1, none⟩), ("password", ⟨repr c.2, none⟩)]))]⟩

def demangleTomlString (x : String) : String :=
  trim (String.ofList (x.toList.filter (fun c => c ≠ '"')))

/-- `u32::try_from`. -/
def toU32 (v : Int) : Option UInt32 :=
  if 0 ≤ v ∧ v < 2 ^ 32 then some (UInt32.ofNat v.toNat) else none

def deserializeClient (idx : Nat) (x : TomlTable) : Except String Client :=
  match x.get "username", x.get "password" with
  | some u, some p =>
    let username := demangleTomlString u.text
    let password := demangleTomlString p.text
    if username.isEmpty then
      .error ("Client #" ++ toString (idx + 1) ++ ": username cannot be empty")
    else if password.isEmpty then
      .error ("Client #" ++ toString (idx + 1) ++ ": password cannot be empty")
    else .ok ⟨username, password, ((x.get "max_http2_conns").bind Item.asInteger).bind toU32,
      ((x.get "max_http3_conns").bind Item.asInteger).bind toU32⟩
  | _, _ => .error "index not found"

def deserializeTables (idx : Nat) : List TomlTable → Except String (List Client)
  | [] => .ok []
  | x :: tables =>
    match deserializeClient idx x with
    | .error e => .error e
    | .ok c => (deserializeTables (idx + 1) tables).map (fun cs => c :: cs)

/-- `deserialize_clients`, of a file that was read and parsed. -/
def deserializeClients (clients : Document) : Except String (List Client) :=
  match List.lookup "client" clients.arrays with
  | none => .error "Not an array of clients"
  | some tables => deserializeTables 0 tables

/-! ## What is assumed of the writing of strings -/

/-- Between double quotes, on several lines if it has several. -/
def basicRepr (s : List Char) : List Char :=
  let body := s.flatMap (fun c => if c = '\t' then ['\\', 't'] else [c])
  if '\n' ∈ s then ['"', '"', '"', '\n'] ++ body ++ ['"', '"', '"'] else ['"'] ++ body ++ ['"']

/-- A TOML string with the value `s`, in double quotes if no other escapes are needed. -/
structure Writes (repr : String → String) (s : String) : Prop where
  token : Lib.Toml.StringToken (repr s).toList s.toList
  basic : (∀ c ∈ s.toList, c ≠ '"' ∧ c ≠ '\\' ∧
      (isControl c = true → c = '\t' ∨ c = '\n')) → (repr s).toList = basicRepr s.toList

structure Tidy (s : String) : Prop where
  nonempty : s.toList ≠ []
  head : ∀ c ∈ s.toList.head?, Text.isWhitespace c = false
  last : ∀ c ∈ s.toList.getLast?, Text.isWhitespace c = false

instance (s : String) : Decidable (Tidy s) :=
  decidable_of_iff (s.toList ≠ [] ∧ s.toList.head?.all (fun c => !Text.isWhitespace c) = true ∧
      s.toList.getLast?.all (fun c => !Text.isWhitespace c) = true)
    (by
      simp only [Option.all_eq_true, Bool.not_eq_true']
      exact ⟨fun h => ⟨h.1, h.2.1, h.2.2⟩, fun h => ⟨h.nonempty, h.head, h.last⟩⟩)

/-- No double quote, backslash, or control character but the line feed. -/
def Verbatim (s : String) : Prop :=
  ∀ c ∈ s.toList, c ≠ '"' ∧ c ≠ '\\' ∧ (Lib.Toml.isControl c = true → c = '\n')

instance (s : String) : Decidable (Verbatim s) :=
  List.decidableBAll _ s.toList

/-! ## What the reader keeps -/

def isInk (c : Char) : Bool := !Text.isWhitespace c && c ≠ '"'

section Kept

-- The predicate counts only characters that the reader does not take away.
variable {q : Char → Bool} (hq : ∀ c, q c = true → isInk c = true)

include hq

lemma countP_dropWhile (l : List Char) :
    (l.dropWhile Text.isWhitespace).countP q = l.countP q := by
  induction l with
  | nil => rfl
  | cons c l ih =>
    by_cases hc : Text.isWhitespace c
    · have hn : ¬ q c := fun h => absurd (hq c h) (by simp [isInk, hc])
      rw [dropWhile_cons_of_pos hc, ih, countP_cons_of_neg hn]
    · rw [dropWhile_cons_of_neg hc]

lemma countP_demangle (x : String) :
    (demangleTomlString x).toList.countP q = x.toList.countP q := by
  simp only [demangleTomlString, trim, String.toList_ofList,
    rdropWhile, countP_reverse, countP_dropWhile hq, countP_filter]
  apply countP_congr
  intro c hc
  have := hq c
  simp only [isInk, Bool.and_eq_true] at this ⊢
  exact ⟨fun h => h.1, fun h => ⟨h, (this h).2⟩⟩

end Kept

lemma mem_demangle (hc : isInk c) : c ∈ (demangleTomlString x).toList ↔ c ∈ x.toList := by
  have hco := countP_demangle (q := fun d => d == c)
    (fun d hd => (beq_iff_eq.mp hd) ▸ hc) x
  rw [← count_pos_iff, ← count_pos_iff]
  exact iff_of_eq (congrArg (0 < ·) hco)

lemma quote_notMem_demangle (x : String) : '"' ∉ (demangleTomlString x).toList := by
  intro h
  simp only [demangleTomlString, HttpForwardedStream.Text.trim, String.toList_ofList] at h
  have hd := (List.dropWhile_suffix _).subset ((List.rdropWhile_prefix _ _).subset h)
  simpa using (List.mem_filter.mp hd).2

lemma dropWhile_append_of_forall (blanks s : List Char)
    (hblanks : ∀ c ∈ blanks, p c) (hh : ∀ c ∈ s.head?, p c = false) :
    (blanks ++ s).dropWhile p = s := by
  rw [List.dropWhile_append_of_pos hblanks]
  cases s with
  | nil => rfl
  | cons c => exact List.dropWhile_cons_of_neg (by simp [hh c rfl])

lemma demangle_of_filter {x s : String} (hs : Tidy s) (blanks : List Char)
    (hblanks : blanks.all Text.isWhitespace)
    (hx : x.toList.filter (fun c => c ≠ '"') = blanks ++ s.toList) : demangleTomlString x = s := by
  have hl : s.toList.rdropWhile Text.isWhitespace = s.toList := by
    rw [rdropWhile_eq_self_iff]
    intro hne
    rw [hs.last _ (getLast?_eq_some_getLast hne)]
    exact Bool.false_ne_true
  simp only [demangleTomlString, trim, String.toList_ofList, hx,
    dropWhile_append_of_forall blanks s.toList (all_eq_true.mp hblanks) hs.head, hl,
    String.ofList_toList]

/-! ## Which strings are read back -/

section

variable {l : List Char} {repr : String → String} {s : String}

lemma marks_isInk : Lib.Toml.Marks isInk := by
  refine ⟨by decide, ?_, by decide, by decide⟩
  decide

lemma filter_quote_eq (h : '"' ∉ l) : l.filter (fun c => c ≠ '"') = l :=
  filter_eq_self.mpr (fun c hc => by simpa using fun e : c = '"' => h (e ▸ hc))

lemma flatMap_eq_self (h : ∀ c ∈ l, f c = [c]) : l.flatMap f = l := by
  induction l with
  | nil => rfl
  | cons c l ih =>
    rw [List.flatMap_cons, h c List.mem_cons_self, ih (fun d hd => h d (List.mem_cons_of_mem c hd))]
    rfl

lemma body_eq (h : '\t' ∉ l) : l.flatMap (fun c => if c = '\t' then ['\\', 't'] else [c]) = l :=
  flatMap_eq_self (fun c hc => if_neg (fun e : c = '\t' => h (e ▸ hc)))

/-- **What is written as it is comes back.** -/
lemma demangle_verbatim (hw : Writes repr s) (hs : Tidy s) (hv : Verbatim s) :
    demangleTomlString (" " ++ repr s) = s := by
  have ht : '\t' ∉ s.toList := fun h => absurd ((hv _ h).2.2 (by decide)) (by decide)
  have hq : '"' ∉ s.toList := fun h => (hv _ h).1 rfl
  have hr := hw.basic (fun c hc => ⟨(hv c hc).1, (hv c hc).2.1, fun h => .inr ((hv c hc).2.2 h)⟩)
  simp only [basicRepr, body_eq ht] at hr
  by_cases hl : '\n' ∈ s.toList
  · refine demangle_of_filter hs [' ', '\n'] (by decide +kernel) ?_
    rw [if_pos hl] at hr
    simp only [String.toList_append, hr, filter_append, filter_quote_eq hq]
    simp
  · refine demangle_of_filter hs [' '] (by decide +kernel) ?_
    rw [if_neg hl] at hr
    simp only [String.toList_append, hr, filter_append, filter_quote_eq hq]
    simp

lemma raw_of_demangle (hw : Writes repr s) (h : demangleTomlString (" " ++ repr s) = s) :
    ∀ c ∈ s.toList, c ≠ '"' ∧ c ≠ '\\' ∧ (Lib.Toml.isControl c → c = '\t' ∨ c = '\n') := by
  have hco := countP_demangle (q := isInk) (fun c hc => hc) (" " ++ repr s)
  have hn := quote_notMem_demangle (" " ++ repr s)
  rw [h] at hco hn
  obtain ⟨text, value, ht, hte, hv⟩ :
      ∃ text value, Lib.Toml.StringToken text value ∧ (repr s).toList = text ∧ s.toList = value :=
    ⟨_, _, hw.token, rfl, rfl⟩
  rw [hv] at hco hn ⊢
  rw [String.toList_append, hte] at hco
  obtain ⟨k, first, pieces, hpieces, hfirst, hbreak, hquotes⟩ := ht
  have hle := Lib.Toml.countP_valueOf_le marks_isInk hpieces
  simp only [List.countP_append] at hco
  have hra := Lib.Toml.raw_of_countP_le marks_isInk hpieces (by omega)
  have hk : k.quotes.countP isInk = 0 := by omega
  intro c hc
  have hne : c ≠ '"' := fun e => hn (e ▸ hc)
  rcases hra c hc with hr | hr | rfl
  · have hcon : isControl c → c = '\t' := by
      simp only [isRaw, Bool.and_eq_true, Bool.or_eq_true] at hr
      simpa [or_iff_not_imp_left] using hr.1
    refine ⟨hne, ?_, fun h => .inl (hcon h)⟩
    cases k with
    | basic | multiBasic => simp_all [isRaw]
    | literal | multiLiteral => exact absurd hk (by decide)
  · exact absurd hr hne
  · exact ⟨by decide, by decide, fun _ => .inr rfl⟩

/-- **Nothing else comes back.** -/
lemma verbatim_of_demangle (hw : Writes repr s) (h : demangleTomlString (" " ++ repr s) = s) :
    Verbatim s := by
  have hr := raw_of_demangle hw h
  have hta : '\t' ∉ s.toList := by
    intro ht
    -- A tab is written as an escape, whose backslash would be in the result.
    have hs : '\\' ∈ (" " ++ repr s).toList := by
      have hb : '\\' ∈ s.toList.flatMap (fun c => if c = '\t' then ['\\', 't'] else [c]) :=
        mem_flatMap.mpr ⟨'\t', ht, mem_cons_self⟩
      rw [String.toList_append, hw.basic hr, basicRepr]
      split
      · simp [hb]
      · simp [hb]
    rw [← mem_demangle (by decide), h] at hs
    exact (hr _ hs).2.1 rfl
  intro c hc
  obtain ⟨hq, hs, hco⟩ := hr c hc
  refine ⟨hq, hs, fun hct => (hco hct).resolve_left ?_⟩
  rintro rfl
  exact hta hc

end

/-! ## The round trip -/

def readBack (repr : String → String) (clients : List (String × String)) :
    Except String (List (String × String)) :=
  (deserializeClients (composeCredentialsContent repr clients).reread).map
    (fun cs => cs.map (fun c => (c.username, c.password)))

def writtenTable (repr : String → String) (c : String × String) : TomlTable :=
  [("username", ⟨" " ++ repr c.1, none⟩), ("password", ⟨" " ++ repr c.2, none⟩)]

lemma deserializeClients_composed (repr : String → String) (c : String × String)
    (clients : List (String × String)) :
    deserializeClients (composeCredentialsContent repr (c :: clients)).reread =
      deserializeTables 0 ((c :: clients).map (writtenTable repr)) := by
  simp [deserializeClients, composeCredentialsContent, Document.reread, writtenTable]
  rfl

section RoundTrip

variable {repr : String → String} {clients : List (String × String)}

lemma Tidy.isEmpty_eq_false (h : Tidy s) : s.isEmpty = false := by
  rw [Bool.eq_false_iff, Ne, String.isEmpty_iff]
  rintro rfl
  exact h.nonempty rfl

lemma deserializeClient_writtenTable (idx : Nat) (c : String × String) :
    deserializeClient idx (writtenTable repr c) =
      if (demangleTomlString (" " ++ repr c.1)).isEmpty then
        .error ("Client #" ++ toString (idx + 1) ++ ": username cannot be empty")
      else if (demangleTomlString (" " ++ repr c.2)).isEmpty then
        .error ("Client #" ++ toString (idx + 1) ++ ": password cannot be empty")
      else .ok ⟨demangleTomlString (" " ++ repr c.1), demangleTomlString (" " ++ repr c.2),
        none, none⟩ := rfl

lemma deserializeClient_verbatim (idx : Nat)
    (hw : Writes repr c.1 ∧ Writes repr c.2) (ht : Tidy c.1 ∧ Tidy c.2)
    (hv : Verbatim c.1 ∧ Verbatim c.2) :
    deserializeClient idx (writtenTable repr c) = .ok ⟨c.1, c.2, none, none⟩ := by
  rw [deserializeClient_writtenTable, demangle_verbatim hw.1 ht.1 hv.1,
    demangle_verbatim hw.2 ht.2 hv.2, ht.1.isEmpty_eq_false, ht.2.isEmpty_eq_false]
  rfl

lemma verbatim_of_deserializeClient (hw : Writes repr c.1 ∧ Writes repr c.2)
    (h : deserializeClient idx (writtenTable repr c) = .ok client)
    (hc : (client.username, client.password) = c) : Verbatim c.1 ∧ Verbatim c.2 := by
  rw [deserializeClient_writtenTable] at h
  split_ifs at h
  have hcl := Except.ok.inj h
  have hn : client.username = c.1 := congrArg Prod.fst hc
  have hp : client.password = c.2 := congrArg Prod.snd hc
  rw [← hcl] at hn hp
  exact ⟨verbatim_of_demangle hw.1 hn, verbatim_of_demangle hw.2 hp⟩

lemma deserializeTables_eq_ok_iff (idx : Nat)
    (hw : ∀ c ∈ clients, Writes repr c.1 ∧ Writes repr c.2)
    (ht : ∀ c ∈ clients, Tidy c.1 ∧ Tidy c.2) :
    (deserializeTables idx (clients.map (writtenTable repr))).map
        (fun cs => cs.map (fun c => (c.username, c.password))) = .ok clients ↔
      ∀ c ∈ clients, Verbatim c.1 ∧ Verbatim c.2 := by
  induction clients generalizing idx with
  | nil => simp [deserializeTables, Except.map]
  | cons c clients ih =>
    have hwc := hw c mem_cons_self
    have htc := ht c mem_cons_self
    have ih := ih (idx + 1) (fun d hd => hw d (mem_cons_of_mem c hd))
      (fun d hd => ht d (mem_cons_of_mem c hd))
    rw [forall_mem_cons, ← ih]
    simp only [map_cons, deserializeTables]
    constructor
    · intro h
      cases hcl : deserializeClient idx (writtenTable repr c) with
      | error => rw [hcl] at h; cases h
      | ok =>
        rw [hcl] at h
        cases hr : deserializeTables (idx + 1) (clients.map (writtenTable repr)) with
        | error => rw [hr] at h; cases h
        | ok =>
          rw [hr] at h
          obtain ⟨hc, hcs⟩ := cons.inj (Except.ok.inj h)
          exact ⟨verbatim_of_deserializeClient hwc hcl hc, congrArg Except.ok hcs⟩
    · rintro ⟨hv, hr⟩
      rw [deserializeClient_verbatim idx hwc htc hv]
      cases hcs : deserializeTables (idx + 1) (clients.map (writtenTable repr)) with
      | error => rw [hcs] at hr; cases hr
      | ok =>
        rw [hcs] at hr
        exact congrArg (fun l => Except.ok (c :: l)) (Except.ok.inj hr)

/-- **Which credentials survive the file.** All must be written as they are. -/
theorem readBack_eq_ok_iff (hw : ∀ c ∈ clients, Writes repr c.1 ∧ Writes repr c.2)
    (ht : ∀ c ∈ clients, Tidy c.1 ∧ Tidy c.2) :
    readBack repr clients = .ok clients ↔
      clients ≠ [] ∧ ∀ c ∈ clients, Verbatim c.1 ∧ Verbatim c.2 := by
  cases clients with
  | nil => simp [readBack, deserializeClients, composeCredentialsContent, Document.reread,
    Except.map]
  | cons =>
    rw [readBack, deserializeClients_composed, deserializeTables_eq_ok_iff 0 hw ht]
    simp

end RoundTrip

/-! ## Strings on one line

What the crate writes for a string without backslashes and control characters. -/

def escaped (c : Char) : List Char :=
  match letters.find? (fun e => e.2 = c) with
  | some e => ['\\', e.1]
  | none => [c]

def quoted (s : String) : String :=
  String.ofList (['"'] ++ s.toList.flatMap escaped ++ ['"'])

lemma piece_escaped (hc : isControl c = false) : Lib.Toml.Piece .basic (escaped c, [c]) := by
  unfold escaped
  split
  case h_1 e he =>
    have hm := mem_of_find?_eq_some he
    have hv := find?_some he
    simp only [decide_eq_true_eq] at hv
    exact .escape _ _ (.inl rfl) (.letter e.1 c (hv ▸ hm))
  case h_2 he =>
    have hn := find?_eq_none.mp he
    refine .raw c ?_
    have hq : c ≠ '"' := fun e => hn ('"', '"') (by decide) (by simp [e])
    have hs : c ≠ '\\' := fun e => hn ('\\', '\\') (by decide) (by simp [e])
    simp [Lib.Toml.Kind.isRaw, hc, hq, hs]

lemma escaped_eq (hquote : c ≠ '"') (hslash : c ≠ '\\')
    (hc : isControl c = false) : escaped c = [c] := by
  have hn : letters.find? (fun e => e.2 = c) = none := by
    rw [find?_eq_none]
    intro e he
    simp only [letters, mem_cons, not_mem_nil, or_false] at he
    rcases he with rfl | rfl | rfl | rfl | rfl | rfl | rfl <;> simp only [decide_eq_true_eq] <;>
      rintro rfl <;> simp_all [isControl]
  rw [escaped, hn]

lemma writes_quoted (hcl : s.toList.all (fun c => !isControl c)) : Writes quoted s := by
  have h : ∀ c ∈ s.toList, isControl c = false := by
    simpa only [all_eq_true, Bool.not_eq_true'] using hcl
  constructor
  · have ht := Lib.Toml.StringToken.mk .basic [] (s.toList.map (fun c => (escaped c, [c])))
      (by
        intro p hp
        obtain ⟨c, hc, rfl⟩ := mem_map.mp hp
        exact piece_escaped (h c hc))
      rfl (fun _ hk => absurd hk (by decide)) (fun hk => absurd hk (by decide))
    have hte : textOf (s.toList.map (fun c => (escaped c, [c]))) = s.toList.flatMap escaped := by
      simp [textOf, flatMap_map]
    have hv : valueOf (s.toList.map (fun c => (escaped c, [c]))) = s.toList := by
      simp [valueOf, flatMap_map]
    rw [hte, hv, append_nil] at ht
    simpa [quoted, quotes] using ht
  · intro hpl
    have hl : '\n' ∉ s.toList := fun hn => absurd (h _ hn) (by decide)
    have hta : '\t' ∉ s.toList := fun hn => absurd (h _ hn) (by decide)
    have hs : s.toList.flatMap escaped = s.toList :=
      flatMap_eq_self (fun c hc => escaped_eq (hpl c hc).1 (hpl c hc).2.1 (h c hc))
    simp [quoted, basicRepr, body_eq hta, if_neg hl, hs]

theorem office_readBack : readBack quoted [("alice", "correct horse"), ("o'neil", "a:b")] =
      .ok [("alice", "correct horse"), ("o'neil", "a:b")] := by
  refine (readBack_eq_ok_iff ?_ (by decide +kernel)).mpr ⟨by simp, by decide +kernel⟩
  simp only [forall_mem_cons, not_mem_nil, false_imp_iff, implies_true, and_true]
  exact ⟨⟨writes_quoted (by decide +kernel), writes_quoted (by decide +kernel)⟩,
    writes_quoted (by decide +kernel), writes_quoted (by decide +kernel)⟩

/-- The backslash before a double quote stays. -/
theorem quotedName_changes :
    Writes quoted "al\"ice" ∧ Writes quoted "secret" ∧ Tidy "al\"ice" ∧ Tidy "secret" ∧
      readBack quoted [("al\"ice", "secret")] = .ok [("al\\ice", "secret")] :=
  ⟨writes_quoted (by decide +kernel), writes_quoted (by decide +kernel), by decide +kernel,
    by decide +kernel, by rfl⟩

end TrustTunnel.CredentialsFile
