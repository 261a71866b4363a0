import TrustTunnel.RequestDecoding

/-!
# Sessions of HTTP/1 clients (`http1_codec.rs`)

`listen` waits for the client's bytes, the sink's chunks and its end, and hands them on;
`graceful_shutdown` writes the queued chunk and closes. The future's own variables hold bytes that
are lost with it. The transport does not fail, and reads are cancel safe.
-/

namespace TrustTunnel.Http1Codec

open Io Http Lib List Option
open Lib.Http1 (utf8)
open ReverseProxy (versionMinorDigit)

/-! ## The codec and its future -/

inductive State where
  | waitingRequest (buffer : Bytes)
  | requestInProgress (buffer : Bytes)

def State.buffer : State → Bytes
  | .waitingRequest buffer => buffer
  | .requestInProgress buffer => buffer

/-- Where the future of `graceful_shutdown` is suspended. -/
inductive Closing where
  | writing (rest : Bytes)
  | flushing
  | reserving
  | closing
  deriving DecidableEq

/-- Where `listen` is suspended; `held` is the buffer of `wait_read`. -/
inductive Point where
  | idle
  | selecting (held : Option Bytes)
  | sending (bytes : Bytes)
  | responding (rest : Bytes)
  | writing (rest : Bytes)
  | finishing (stage : Closing)
  | returned (result : Except IoError Unit)
  deriving DecidableEq

inductive Half where
  | absent
  | live
  | dropped
  deriving DecidableEq

/-- `upload` and `download` are the queues, `eofNotified` the permit of `download_eof`; the last
six fields record the run. -/
structure Session where
  state : State
  point : Point
  upcoming : Bytes
  written : Bytes
  answered : Bytes
  shutDown : Bool
  upload : Option Bytes
  download : Option Bytes
  eofNotified : Bool
  source : Half
  sink : Half
  head : Bytes
  delivered : Bytes
  discarded : Bytes
  accepted : Bytes
  promised : Option Bytes
  ended : Bool

def Session.start (stream : Bytes) : Session where
  state := .waitingRequest []
  point := .idle
  upcoming := stream
  written := []
  answered := []
  shutDown := false
  upload := none
  download := none
  eofNotified := false
  source := .absent
  sink := .absent
  head := []
  delivered := []
  discarded := []
  accepted := []
  promised := none
  ended := false

/-- The branches of `select!`, the awaits after them, the drop of the future, the caller's
shutdown, and the use of the stream's sink and source. -/
inductive Event where
  | call
  | poll
  | ready
  | read (n : Nat)
  | receive
  | notified
  | sent
  | wrote (n : Nat)
  | flushed
  | reserved
  | closed
  | drop
  | finish
  | write (chunk : Bytes)
  | eof
  | dropSink
  | take
  | dropSource
  deriving DecidableEq

namespace Session

/-- `graceful_shutdown`, to its first await. -/
def gracefulShutdown (s : Session) : Session :=
  { s with
    download := none
    point := .finishing (match s.download with
      | some chunk => .writing chunk
      | none => .flushing) }

def expectationFailed (version : Version) : Bytes :=
  utf8 "HTTP/1." ++ utf8 (toString (versionMinorDigit version)) ++
    utf8 " 417 Expectation Failed\r\nconnection: close\r\n\r\n"

section

variable (P : Httparse) (U : UriCrate)

/-- `on_request_headers_chunk`, and what `listen` does with its result. -/
def onRequestHeadersChunk (s : Session) (bytes : Bytes) : Session :=
  match decodeRequest P U bytes with
  | .error e =>
    { s with state := .waitingRequest [], head := s.head ++ bytes, point := .returned (.error e) }
  | .ok (.incomplete buffer) => { s with state := .waitingRequest buffer, point := .selecting none }
  | .ok (.complete request tail) =>
    if request.method = .connect ∧ request.headers.any (fun h => h.name = "expect") then
      { s with state := .waitingRequest [], head := s.head ++ bytes,
               point := .responding (expectationFailed request.version) }
    else
      { s with state := .requestInProgress tail, source := .live, sink := .live, point := .idle
               head := s.head ++ bytes.take (bytes.length - tail.length) }

/-- `n` bytes go to a buffer that holds a part of the head. -/
def readHead (s : Session) (buffer : Bytes) (n : Nat) : Option Session :=
  if n = 0 then
    if s.upcoming = [] then
      some { s with state := .waitingRequest [], head := s.head ++ buffer, ended := true }.gracefulShutdown
    else none
  else if n ≤ s.upcoming.length then
    some ({ s with upcoming := s.upcoming.drop n }.onRequestHeadersChunk P U
      (buffer ++ s.upcoming.take n))
  else none

/-- `read_buf` gives `n` bytes of the body. -/
def readBody (s : Session) (n : Nat) : Option Session :=
  if n = 0 then
    if s.upcoming = [] then
      some { s with state := .requestInProgress [], ended := true }.gracefulShutdown
    else none
  else if n ≤ s.upcoming.length then
    some { s with state := .requestInProgress [], point := .sending (s.upcoming.take n)
                  upcoming := s.upcoming.drop n }
  else none

/-- `write_all_buf` gets rid of `n` bytes. -/
def takes (rest : Bytes) (n : Nat) : Bool := n ≤ rest.length && (0 < n || rest.isEmpty)

def step (s : Session) : Event → Option Session
  | .call => if s.point = .idle then some { s with point := .selecting none } else none
  | .poll =>
    match s.point, s.state with
    | .selecting none, .waitingRequest buffer =>
      some { s with state := .waitingRequest [], point := .selecting (some buffer) }
    | .selecting none, .requestInProgress buffer =>
      -- a tail is ready at once
      if buffer = [] then some { s with point := .selecting (some []) } else none
    | _, _ => none
  | .ready =>
    match s.point, s.state with
    | .selecting none, .requestInProgress buffer =>
      if buffer ≠ [] then
        some { s with state := .requestInProgress [], point := .sending buffer }
      else none
    | _, _ => none
  | .read n =>
    match s.point, s.state with
    | .selecting held, .waitingRequest buffer => s.readHead P U (held.getD buffer) n
    | .selecting held, .requestInProgress buffer =>
      if held.getD buffer = [] ∧ (s.upload = none ∨ s.source = .dropped) then s.readBody n else none
    | _, _ => none
  | .receive =>
    match s.point, s.download with
    | .selecting _, some chunk => some { s with download := none, point := .writing chunk }
    | .selecting _, none =>
      if s.sink = .dropped then
        if s.eofNotified then some { s with eofNotified := false }.gracefulShutdown
        else some { s with point := .returned (.error (.ofKind .unexpectedEof)) }
      else none
    | _, _ => none
  | .notified =>
    match s.point with
    | .selecting _ =>
      if s.eofNotified then some { s with eofNotified := false }.gracefulShutdown else none
    | _ => none
  | .sent =>
    match s.point with
    | .sending bytes =>
      if s.source = .dropped then
        some { s with discarded := s.discarded ++ bytes
                      point := .returned (.error (.ofKind .unexpectedEof)) }
      else if s.upload = none then
        some { s with upload := some bytes, point := .selecting none }
      else none
    | _ => none
  | .wrote n =>
    match s.point with
    | .writing rest =>
      if takes rest n then
        some { s with written := s.written ++ rest.take n
                      point := if rest.drop n = [] then .selecting none else .writing (rest.drop n) }
      else none
    | .finishing (.writing rest) =>
      if takes rest n then
        some { s with written := s.written ++ rest.take n
                      point := .finishing
                        (if rest.drop n = [] then .flushing else .writing (rest.drop n)) }
      else none
    | .responding rest =>
      if takes rest n then
        some { s with answered := s.answered ++ rest.take n
                      point := if rest.drop n = [] then .returned (.ok ())
                        else .responding (rest.drop n) }
      else none
    | _ => none
  | .flushed =>
    if s.point = .finishing .flushing then some { s with point := .finishing .reserving } else none
  | .reserved =>
    if s.point = .finishing .reserving ∧ (s.upload = none ∨ s.source = .dropped) then
      some { s with point := .finishing .closing }
    else none
  | .closed =>
    if s.point = .finishing .closing then
      some { s with shutDown := true, point := .returned (.ok ()) }
    else none
  | .drop =>
    match s.point with
    | .idle | .returned _ => none
    | _ => some { s with point := .idle }
  | .finish =>
    match s.point with
    | .returned _ => if s.shutDown then none else some s.gracefulShutdown
    | _ => none
  | .write chunk =>
    if s.sink = .live then
      match s.download with
      | none => some { s with download := some chunk, accepted := s.accepted ++ chunk }
      | some _ => some s
    else none
  | .eof =>
    if s.sink = .live then
      some { s with eofNotified := true, promised := s.promised.or (some s.accepted) }
    else none
  | .dropSink => if s.sink = .live then some { s with sink := .dropped } else none
  | .take =>
    match s.upload with
    | some chunk =>
      if s.source = .live then some { s with upload := none, delivered := s.delivered ++ chunk }
      else none
    | none => none
  | .dropSource =>
    if s.source = .live then
      some { s with source := .dropped, discarded := s.discarded ++ s.upload.getD [], upload := none }
    else none

inductive Next (s : Session) : Event → Session → Prop
  | call (hpoint : s.point = .idle) : Next s .call { s with point := .selecting none }
  | pollHead (buffer : Bytes) (hpoint : s.point = .selecting none)
      (hstate : s.state = .waitingRequest buffer) :
      Next s .poll { s with state := .waitingRequest [], point := .selecting (some buffer) }
  | pollBody (hpoint : s.point = .selecting none) (hstate : s.state = .requestInProgress []) :
      Next s .poll { s with point := .selecting (some []) }
  | ready (buffer : Bytes) (hpoint : s.point = .selecting none)
      (hstate : s.state = .requestInProgress buffer) (hne : buffer ≠ []) :
      Next s .ready { s with state := .requestInProgress [], point := .sending buffer }
  | headEnd (held : Option Bytes) (buffer : Bytes) (hpoint : s.point = .selecting held)
      (hstate : s.state = .waitingRequest buffer) (hupcoming : s.upcoming = []) :
      Next s (.read 0) { s with
        state := .waitingRequest [], head := s.head ++ held.getD buffer, ended := true }.gracefulShutdown
  | head (held : Option Bytes) (buffer : Bytes) (n : Nat) (hpoint : s.point = .selecting held)
      (hstate : s.state = .waitingRequest buffer) (hn : n ≠ 0) (hle : n ≤ s.upcoming.length) :
      Next s (.read n) ({ s with upcoming := s.upcoming.drop n }.onRequestHeadersChunk P U
        (held.getD buffer ++ s.upcoming.take n))
  | bodyEnd (held : Option Bytes) (buffer : Bytes) (hpoint : s.point = .selecting held)
      (hstate : s.state = .requestInProgress buffer) (hempty : held.getD buffer = [])
      (hroom : s.upload = none ∨ s.source = .dropped) (hupcoming : s.upcoming = []) :
      Next s (.read 0) { s with state := .requestInProgress [], ended := true }.gracefulShutdown
  | body (held : Option Bytes) (buffer : Bytes) (n : Nat) (hpoint : s.point = .selecting held)
      (hstate : s.state = .requestInProgress buffer) (hempty : held.getD buffer = [])
      (hroom : s.upload = none ∨ s.source = .dropped) (hn : n ≠ 0) (hle : n ≤ s.upcoming.length) :
      Next s (.read n) { s with
        state := .requestInProgress [], point := .sending (s.upcoming.take n)
        upcoming := s.upcoming.drop n }
  | receive (held : Option Bytes) (chunk : Bytes) (hpoint : s.point = .selecting held)
      (hdownload : s.download = some chunk) :
      Next s .receive { s with download := none, point := .writing chunk }
  | receiveEof (held : Option Bytes) (hpoint : s.point = .selecting held)
      (hdownload : s.download = none) (hsink : s.sink = .dropped) (heof : s.eofNotified = true) :
      Next s .receive { s with eofNotified := false }.gracefulShutdown
  | receiveNone (held : Option Bytes) (hpoint : s.point = .selecting held)
      (hdownload : s.download = none) (hsink : s.sink = .dropped) (heof : s.eofNotified = false) :
      Next s .receive { s with point := .returned (.error (.ofKind .unexpectedEof)) }
  | notified (held : Option Bytes) (hpoint : s.point = .selecting held) (heof : s.eofNotified = true) :
      Next s .notified { s with eofNotified := false }.gracefulShutdown
  | refused (bytes : Bytes) (hpoint : s.point = .sending bytes) (hsource : s.source = .dropped) :
      Next s .sent { s with
        discarded := s.discarded ++ bytes, point := .returned (.error (.ofKind .unexpectedEof)) }
  | sent (bytes : Bytes) (hpoint : s.point = .sending bytes) (hsource : s.source ≠ .dropped)
      (hupload : s.upload = none) :
      Next s .sent { s with upload := some bytes, point := .selecting none }
  | wrote (rest : Bytes) (n : Nat) (hpoint : s.point = .writing rest) :
      Next s (.wrote n) { s with
        written := s.written ++ rest.take n
        point := if rest.drop n = [] then .selecting none else .writing (rest.drop n) }
  | wroteLast (rest : Bytes) (n : Nat) (hpoint : s.point = .finishing (.writing rest)) :
      Next s (.wrote n) { s with
        written := s.written ++ rest.take n
        point := .finishing (if rest.drop n = [] then .flushing else .writing (rest.drop n)) }
  | responded (rest : Bytes) (n : Nat) (hpoint : s.point = .responding rest) :
      Next s (.wrote n) { s with
        answered := s.answered ++ rest.take n
        point := if rest.drop n = [] then .returned (.ok ()) else .responding (rest.drop n) }
  | flushed (hpoint : s.point = .finishing .flushing) :
      Next s .flushed { s with point := .finishing .reserving }
  | reserved (hpoint : s.point = .finishing .reserving)
      (hroom : s.upload = none ∨ s.source = .dropped) :
      Next s .reserved { s with point := .finishing .closing }
  | closed (hpoint : s.point = .finishing .closing) :
      Next s .closed { s with shutDown := true, point := .returned (.ok ()) }
  | drop (hidle : s.point ≠ .idle) (hreturned : ∀ result, s.point ≠ .returned result) :
      Next s .drop { s with point := .idle }
  | finish (result : Except IoError Unit) (hpoint : s.point = .returned result)
      (hopen : s.shutDown = false) : Next s .finish s.gracefulShutdown
  | write (chunk : Bytes) (hsink : s.sink = .live) (hdownload : s.download = none) :
      Next s (.write chunk) { s with download := some chunk, accepted := s.accepted ++ chunk }
  | full (chunk : Bytes) : Next s (.write chunk) s
  | eof (hsink : s.sink = .live) :
      Next s .eof { s with eofNotified := true, promised := s.promised.or (some s.accepted) }
  | dropSink (hsink : s.sink = .live) : Next s .dropSink { s with sink := .dropped }
  | take (chunk : Bytes) (hupload : s.upload = some chunk) (hsource : s.source = .live) :
      Next s .take { s with upload := none, delivered := s.delivered ++ chunk }
  | dropSource (hsource : s.source = .live) :
      Next s .dropSource { s with
        source := .dropped, discarded := s.discarded ++ s.upload.getD [], upload := none }

variable {P U}

lemma next_of_step (h : s.step P U e = some s') : Next P U s e s' := by
  cases e with
  | call =>
    simp only [step] at h
    split at h
    · cases h
      exact .call ‹_›
    · cases h
  | poll =>
    simp only [step] at h
    split at h
    · cases h
      exact .pollHead _ ‹_› ‹_›
    · obtain ⟨he, h⟩ := ite_none_right_eq_some.mp h
      subst he
      cases h
      exact .pollBody ‹_› ‹_›
    · cases h
  | ready =>
    simp only [step] at h
    split at h
    · split at h
      · cases h
        exact .ready _ ‹_› ‹_› ‹_›
      · cases h
    · cases h
  | read n =>
    simp only [step] at h
    split at h
    · simp only [readHead] at h
      split at h
      · rename_i hn
        subst hn
        split at h
        · cases h
          exact .headEnd _ _ ‹_› ‹_› ‹_›
        · cases h
      · split at h
        · cases h
          exact .head _ _ n ‹_› ‹_› ‹_› ‹_›
        · cases h
    · split at h
      · rename_i hg
        simp only [readBody] at h
        split at h
        · rename_i hn
          subst hn
          split at h
          · cases h
            exact .bodyEnd _ _ ‹_› ‹_› hg.1 hg.2 ‹_›
          · cases h
        · split at h
          · cases h
            exact .body _ _ n ‹_› ‹_› hg.1 hg.2 ‹_› ‹_›
          · cases h
      · cases h
    · cases h
  | receive =>
    simp only [step] at h
    split at h
    · cases h
      exact .receive _ _ ‹_› ‹_›
    · split at h
      · split at h
        · cases h
          exact .receiveEof _ ‹_› ‹_› ‹_› ‹_›
        · rename_i heo
          cases h
          exact .receiveNone _ ‹_› ‹_› ‹_› (Bool.not_eq_true _ ▸ heo)
      · cases h
    · cases h
  | notified =>
    simp only [step] at h
    split at h
    · split at h
      · cases h
        exact .notified _ ‹_› ‹_›
      · cases h
    · cases h
  | sent =>
    simp only [step] at h
    split at h
    · split at h
      · cases h
        exact .refused _ ‹_› ‹_›
      · split at h
        · cases h
          exact .sent _ ‹_› ‹_› ‹_›
        · cases h
    · cases h
  | wrote n =>
    simp only [step] at h
    split at h
    · obtain ⟨-, ⟨⟩⟩ := ite_none_right_eq_some.mp h
      exact .wrote _ n ‹_›
    · obtain ⟨-, ⟨⟩⟩ := ite_none_right_eq_some.mp h
      exact .wroteLast _ n ‹_›
    · obtain ⟨-, ⟨⟩⟩ := ite_none_right_eq_some.mp h
      exact .responded _ n ‹_›
    · cases h
  | flushed =>
    simp only [step] at h
    split at h
    · cases h
      exact .flushed ‹_›
    · cases h
  | reserved =>
    obtain ⟨hg, ⟨⟩⟩ := ite_none_right_eq_some.mp h
    exact .reserved hg.1 hg.2
  | closed =>
    simp only [step] at h
    split at h
    · cases h
      exact .closed ‹_›
    · cases h
  | drop =>
    simp only [step] at h
    split at h
    · cases h
    · cases h
    · rename_i hi hreturned
      cases h
      exact .drop hi hreturned
  | finish =>
    simp only [step] at h
    split at h
    · split at h
      · cases h
      · rename_i ho
        cases h
        exact .finish _ ‹_› (Bool.not_eq_true _ ▸ ho)
    · cases h
  | write chunk =>
    simp only [step] at h
    split at h
    · split at h
      · cases h
        exact .write chunk ‹_› ‹_›
      · cases h
        exact .full chunk
    · cases h
  | eof =>
    simp only [step] at h
    split at h
    · cases h
      exact .eof ‹_›
    · cases h
  | dropSink =>
    simp only [step] at h
    split at h
    · cases h
      exact .dropSink ‹_›
    · cases h
  | take =>
    simp only [step] at h
    split at h
    · split at h
      · cases h
        exact .take _ ‹_› ‹_›
      · cases h
    · cases h
  | dropSource =>
    simp only [step] at h
    split at h
    · cases h
      exact .dropSource ‹_›
    · cases h

end

/-! ## Where the bytes are -/

def queued (s : Session) : Bytes := s.upload.getD []

def waiting (s : Session) : Bytes := s.download.getD []

def transit (s : Session) : Bytes :=
  match s.point with
  | .selecting (some buffer) => buffer
  | .sending bytes => bytes
  | _ => []

def inflight (s : Session) : Bytes :=
  match s.point with
  | .writing rest => rest
  | .finishing (.writing rest) => rest
  | _ => []

structure Conserved (stream : Bytes) (s : Session) : Prop where
  upload_eq : s.head ++ s.delivered ++ s.discarded ++ s.queued ++ s.transit ++ s.state.buffer ++
    s.upcoming = stream
  download_eq : s.written ++ s.inflight ++ s.waiting = s.accepted

def Early (s : Session) : Prop :=
  (s.source = .absent ∧ s.sink = .absent) ∧ (s.download = none ∧ s.eofNotified = false) ∧
    s.upload = none ∧ s.delivered = [] ∧ s.discarded = []

structure Inv (stream : Bytes) (s : Session) : Prop extends Conserved stream s where
  early : ∀ buffer, s.state = .waitingRequest buffer → s.Early
  held : ∀ buffer, s.point = .selecting (some buffer) →
    s.state.buffer = [] ∧ (buffer = [] ∨ s.state = .waitingRequest [])
  sending : ∀ bytes, s.point = .sending bytes → s.state = .requestInProgress []
  dropped : s.source = .dropped → s.upload = none
  live : s.source ≠ .dropped → s.discarded = []

def Spares (s : Session) (e : Event) : Prop := e = .drop → s.transit = [] ∧ s.inflight = []

section

variable {P : Httparse} {U : UriCrate} {stream : Bytes} {s s' : Session}

section

variable {point : Point} {bytes buffer : Bytes} {held : Option Bytes}

lemma inv_start (stream : Bytes) : Inv stream (start stream) where
  upload_eq := rfl
  download_eq := rfl
  early _ _ := ⟨⟨rfl, rfl⟩, ⟨rfl, rfl⟩, rfl, rfl, rfl⟩
  held _ h := by cases h
  sending _ h := by cases h
  dropped h := by cases h
  live _ := rfl

structure Base (s : Session) : Prop where
  early : ∀ buffer, s.state = .waitingRequest buffer → s.Early
  dropped : s.source = .dropped → s.upload = none
  live : s.source ≠ .dropped → s.discarded = []

lemma Inv.base (h : Inv stream s) : s.Base := ⟨h.early, h.dropped, h.live⟩

lemma Base.not_waiting (h : s.Base)
    (hs : s.download ≠ none ∨ s.eofNotified ∨ s.sink ≠ .absent ∨ s.source ≠ .absent)
    (buffer : Bytes) : s.state ≠ .waitingRequest buffer := by
  intro hst
  obtain ⟨⟨hso, hsi⟩, ⟨hd, he⟩, -⟩ := h.early buffer hst
  simp [hso, hsi, hd, he] at hs

lemma inflight_gracefulShutdown (s : Session) : s.gracefulShutdown.inflight = s.waiting := by
  unfold gracefulShutdown inflight waiting
  cases s.download with
  | none | some => rfl

lemma inv_gracefulShutdown (hb : s.Base)
    (hupload : s.head ++ s.delivered ++ s.discarded ++ s.queued ++ s.state.buffer ++ s.upcoming =
      stream) (hd : s.written ++ s.waiting = s.accepted) : Inv stream s.gracefulShutdown := by
  refine ⟨⟨?_, ?_⟩, fun buffer hs => ?_, (fun _ h => by cases h), (fun _ h => by cases h),
    hb.dropped, hb.live⟩
  · have hn : s.gracefulShutdown.transit = [] := rfl
    rw [hn, append_nil]
    exact hupload
  · rw [inflight_gracefulShutdown]
    have hn : s.gracefulShutdown.waiting = [] := rfl
    rw [hn, append_nil]
    exact hd
  · obtain ⟨hh, ⟨-, he⟩, hr⟩ := hb.early buffer hs
    exact ⟨hh, ⟨rfl, he⟩, hr⟩

lemma inv_free (hb : s.Base) (hp : s.transit = [] ∧ s.inflight = [])
    (hh : ∀ buffer, s.point ≠ .selecting (some buffer)) (hs : ∀ bytes, s.point ≠ .sending bytes)
    (hupload : s.head ++ s.delivered ++ s.discarded ++ s.queued ++ s.state.buffer ++ s.upcoming =
      stream) (hd : s.written ++ s.waiting = s.accepted) : Inv stream s := by
  refine ⟨⟨?_, ?_⟩, hb.early, fun _ h => absurd h (hh _), fun _ h => absurd h (hs _),
    hb.dropped, hb.live⟩
  · rw [hp.1, append_nil]
    exact hupload
  · rw [hp.2, append_nil]
    exact hd

lemma inv_move {answered : Bytes} {shutDown : Bool} (hs : Inv stream s)
    (hf : s.transit = [] ∧ s.inflight = [])
    (hf' : { s with point }.transit = [] ∧ { s with point }.inflight = [])
    (hh : ∀ buffer, point ≠ .selecting (some buffer)) (hse : ∀ bytes, point ≠ .sending bytes) :
    Inv stream { s with point, answered, shutDown } := by
  refine inv_free ⟨hs.early, hs.dropped, hs.live⟩ hf' hh hse ?_ ?_
  · have hup := hs.upload_eq
    rw [hf.1, append_nil] at hup
    exact hup
  · have hd := hs.download_eq
    rw [hf.2, append_nil] at hd
    exact hd

lemma inv_written (hs : Inv stream s) (ht : s.transit = [])
    (hr : s.inflight = rest) (n : Nat) (ht' : { s with point }.transit = [])
    (hi : { s with point }.inflight = rest.drop n) (hh : ∀ buffer, point ≠ .selecting (some buffer))
    (hse : ∀ bytes, point ≠ .sending bytes) :
    Inv stream { s with written := s.written ++ rest.take n, point } := by
  refine ⟨⟨?_, ?_⟩, hs.early, fun _ h => absurd h (hh _), fun _ h => absurd h (hse _),
    hs.dropped, hs.live⟩
  · have hup := hs.upload_eq
    rw [ht] at hup
    rw [← ht'] at hup
    exact hup
  · show s.written ++ rest.take n ++ { s with point }.inflight ++ s.waiting = s.accepted
    rw [hi, append_assoc s.written, take_append_drop, ← hr]
    exact hs.download_eq

lemma decodeRequest_incomplete (h : decodeRequest P U bytes = .ok (.incomplete buffer)) :
    buffer = bytes := by
  simp only [decodeRequest] at h
  split at h
  · split at h
    · cases h
    · split at h
      · cases h
      · split at h
        · cases h
        · cases h
  · split at h
    · cases h
      rfl
    · cases h
  · cases h

lemma decodeRequest_complete {tail : Bytes}
    (h : decodeRequest P U bytes = .ok (.complete request tail)) :
    bytes.take (bytes.length - tail.length) ++ tail = bytes := by
  have ht : ∃ idx, tail = bytes.drop idx := by
    simp only [decodeRequest] at h
    split at h
    · rename_i idx parsed _
      split at h
      · cases h
      · split at h
        · cases h
        · split at h
          · cases h
            exact ⟨idx, rfl⟩
          · cases h
    · split at h
      · cases h
      · cases h
    · cases h
  obtain ⟨idx, rfl⟩ := ht
  by_cases hi : idx ≤ bytes.length
  · rw [length_drop, Nat.sub_sub_self hi, take_append_drop]
  · rw [drop_of_length_le (by omega), append_nil, length_nil, Nat.sub_zero, take_length]

lemma inv_onRequestHeadersChunk (hb : s.Base) (he : s.Early)
    (hupload : s.head ++ bytes ++ s.upcoming = stream) (hdo : s.written = s.accepted) :
    Inv stream (s.onRequestHeadersChunk P U bytes) := by
  have ⟨_, ⟨hq, _⟩, hn, hd, hdi⟩ := he
  have hdow : s.written ++ s.waiting = s.accepted := by simpa [waiting, hq] using hdo
  unfold onRequestHeadersChunk
  split
  on_goal 2 =>
    rename_i hde
    rw [decodeRequest_incomplete hde]
  on_goal 3 =>
    rename_i hde
    split
  on_goal 4 =>
    -- the request is handed on
    refine inv_free ⟨(fun _ h => by cases h), (fun h => by cases h), fun _ => hdi⟩
      ⟨rfl, rfl⟩ (by simp) (by simp) ?_ hdow
    rw [← decodeRequest_complete hde] at hupload
    simpa [queued, hn, hd, hdi, State.buffer] using hupload
  all_goals
    refine inv_free ⟨fun _ _ => he, hb.dropped, hb.live⟩ ⟨rfl, rfl⟩ (by simp) (by simp) ?_ hdow
    simpa [queued, hn, hd, hdi, State.buffer] using hupload

lemma Inv.transit_selecting (hs : Inv stream s) (hp : s.point = .selecting held)
    (hst : s.download ≠ none ∨ s.eofNotified ∨ s.sink ≠ .absent ∨ s.source ≠ .absent) :
    s.head ++ s.delivered ++ s.discarded ++ s.queued ++ s.state.buffer ++ s.upcoming = stream := by
  have hup := hs.upload_eq
  cases held with
  | none => simpa [transit, hp] using hup
  | some buffer =>
    rcases (hs.held buffer hp).2 with rfl | hsta
    · simpa [transit, hp] using hup
    · exact absurd hsta (hs.base.not_waiting hst [])

lemma Inv.transit_head (hs : Inv stream s) (hp : s.point = .selecting held)
    (hst : s.state = .waitingRequest buffer) :
    s.head ++ held.getD buffer ++ s.upcoming = stream := by
  obtain ⟨-, -, hn, hd, hdi⟩ := hs.early buffer hst
  have hup := hs.upload_eq
  cases held with
  | none =>
    simpa [transit, queued, hp, hst, hn, hd, hdi, State.buffer] using hup
  | some taken =>
    have he := (hs.held taken hp).1
    simpa [transit, queued, hp, he, hn, hd, hdi] using hup

lemma Inv.transit_body (hs : Inv stream s) (hp : s.point = .selecting held)
    (hst : s.state = .requestInProgress buffer) (he : held.getD buffer = []) :
    s.head ++ s.delivered ++ s.discarded ++ s.queued ++ s.upcoming = stream := by
  have hup := hs.upload_eq
  cases held with
  | none =>
    have hb : s.state.buffer = [] := by
      rw [hst]
      exact he
    simpa [transit, hp, hb] using hup
  | some taken =>
    have hb := (hs.held taken hp).1
    have ht : taken = [] := he
    simpa [transit, hp, hb, ht] using hup

lemma inv_eof (hs : Inv stream s) (hp : s.point = .selecting held)
    (he : s.eofNotified) : Inv stream { s with eofNotified := false }.gracefulShutdown := by
  refine inv_gracefulShutdown ⟨fun b hst => ?_, hs.dropped, hs.live⟩ ?_ ?_
  · exact absurd hst (hs.base.not_waiting (.inr (.inl he)) b)
  · have ha := hs.transit_selecting hp (.inr (.inl he))
    simpa [queued] using ha
  · simpa [inflight, waiting, hp] using hs.download_eq

/-- **One step.** -/
lemma inv_next {e : Event} (hs : Inv stream s) (hsp : Spares s e) (h : Next P U s e s') :
    Inv stream s' := by
  have hba := hs.base
  have hup := hs.upload_eq
  have hd := hs.download_eq
  have hl : s.sink = .live → ∀ b, s.state ≠ .waitingRequest b := fun h =>
    hba.not_waiting (.inr (.inr (.inl (by simp [h]))))
  have ho : s.source = .live → ∀ b, s.state ≠ .waitingRequest b := fun h =>
    hba.not_waiting (.inr (.inr (.inr (by simp [h]))))
  cases h with
  | call hp | flushed hp | reserved hp | closed hp =>
    exact inv_move hs (by simp [transit, inflight, hp]) ⟨rfl, rfl⟩ (by simp) (by simp)
  | pollHead buffer hp hst =>
    refine ⟨⟨?_, ?_⟩, fun _ _ => hba.early buffer hst, fun _ _ => ⟨rfl, .inr rfl⟩,
      (fun _ h => by cases h), hba.dropped, hba.live⟩
    · simpa [transit, queued, hp, hst, State.buffer] using hup
    · simpa [inflight, waiting, hp] using hd
  | pollBody hp hst =>
    refine ⟨⟨?_, ?_⟩, hba.early, fun b hb => ?_, (fun _ h => by cases h), hba.dropped, hba.live⟩
    · simpa [transit, queued, hp] using hup
    · simpa [inflight, waiting, hp] using hd
    · cases hb
      exact ⟨congrArg State.buffer hst, .inl rfl⟩
  | ready buffer hp hst =>
    refine ⟨⟨?_, ?_⟩, (fun _ h => by cases h), (fun _ h => by cases h), fun _ _ => rfl, hba.dropped,
      hba.live⟩
    · simpa [transit, queued, hp, hst, State.buffer] using hup
    · simpa [inflight, waiting, hp] using hd
  | headEnd held buffer hp hst =>
    obtain ⟨hh, hdow, hno, hde, hdi⟩ := hba.early buffer hst
    refine inv_gracefulShutdown ⟨fun _ _ => ⟨hh, hdow, hno, hde, hdi⟩, hba.dropped, hba.live⟩ ?_ ?_
    · have ha := hs.transit_head hp hst
      simpa [queued, hno, hde, hdi, State.buffer] using ha
    · simpa [inflight, waiting, hp] using hd
  | head held buffer n hp hst =>
    have he := hba.early buffer hst
    refine inv_onRequestHeadersChunk (s := { s with upcoming := s.upcoming.drop n })
      ⟨fun _ _ => he, hba.dropped, hba.live⟩ he ?_ ?_
    · have ha := hs.transit_head hp hst
      simpa using ha
    · simpa [inflight, waiting, hp, he.2.1.1] using hd
  | bodyEnd held buffer hp hst hem =>
    refine inv_gracefulShutdown ⟨(fun _ h => by cases h), hba.dropped, hba.live⟩ ?_ ?_
    · have ha := hs.transit_body hp hst hem
      simpa [queued, State.buffer] using ha
    · simpa [inflight, waiting, hp] using hd
  | body held buffer n hp hst hem =>
    refine ⟨⟨?_, ?_⟩, (fun _ h => by cases h), (fun _ h => by cases h), fun _ _ => rfl, hba.dropped,
      hba.live⟩
    · have ha := hs.transit_body hp hst hem
      simpa [transit, queued, State.buffer] using ha
    · simpa [inflight, waiting, hp] using hd
  | receive held chunk hp hdow =>
    have hso : s.download ≠ none := by simp [hdow]
    refine ⟨⟨?_, ?_⟩, fun b hst => absurd hst (hba.not_waiting (.inl hso) b),
      (fun _ h => by cases h), (fun _ h => by cases h), hba.dropped, hba.live⟩
    · have ha := hs.transit_selecting hp (.inl hso)
      simpa [transit, queued] using ha
    · simpa [inflight, waiting, hp, hdow] using hd
  | receiveEof held hp hdow hsi heo | notified held hp heo => exact inv_eof hs hp heo
  | receiveNone held hp hdow hsi =>
    refine inv_free ⟨hba.early, hba.dropped, hba.live⟩ ⟨rfl, rfl⟩ (by simp) (by simp) ?_ ?_
    · have ha := hs.transit_selecting hp (.inr (.inr (.inl (by simp [hsi]))))
      simpa [queued] using ha
    · simpa [inflight, waiting, hp] using hd
  | refused bytes hp hsou =>
    have hst := hs.sending bytes hp
    refine inv_free ⟨fun b h => ?_, hba.dropped, fun h => absurd hsou h⟩ ⟨rfl, rfl⟩ (by simp)
      (by simp) ?_ ?_
    · rw [hst] at h
      cases h
    · simpa [transit, queued, hp, hba.dropped hsou] using hup
    · simpa [inflight, waiting, hp] using hd
  | sent bytes hp hsou hupload =>
    have hst := hs.sending bytes hp
    refine inv_free ⟨fun b h => ?_, fun h => absurd h hsou, hba.live⟩ ⟨rfl, rfl⟩ (by simp)
      (by simp) ?_ ?_
    · rw [hst] at h
      cases h
    · simpa [transit, queued, hp, hupload] using hup
    · simpa [inflight, waiting, hp] using hd
  | wrote rest n hp | wroteLast rest n hp =>
    have ht : s.transit = [] := by simp [transit, hp]
    have hr : s.inflight = rest := by simp [inflight, hp]
    by_cases hdo : rest.drop n = []
    · rw [if_pos hdo]
      exact inv_written hs ht hr n rfl hdo.symm (by simp) (by simp)
    · rw [if_neg hdo]
      exact inv_written hs ht hr n rfl rfl (by simp) (by simp)
  | responded rest n hp =>
    have hf : s.transit = [] ∧ s.inflight = [] := by simp [transit, inflight, hp]
    by_cases hdo : rest.drop n = []
    · rw [if_pos hdo]
      exact inv_move hs hf ⟨rfl, rfl⟩ (by simp) (by simp)
    · rw [if_neg hdo]
      exact inv_move hs hf ⟨rfl, rfl⟩ (by simp) (by simp)
  | drop =>
    exact inv_move hs (hsp rfl) ⟨rfl, rfl⟩ (by simp) (by simp)
  | finish result hp =>
    refine inv_gracefulShutdown hba ?_ ?_
    · simpa [transit, hp] using hup
    · simpa [inflight, hp] using hd
  | write chunk hsi hdow =>
    refine ⟨⟨hup, ?_⟩, fun b hst => absurd hst (hl hsi b), hs.held, hs.sending,
      hs.dropped, hs.live⟩
    have ha : s.written ++ s.inflight = s.accepted := by simpa [waiting, hdow] using hd
    rw [← ha]
    rfl
  | full => exact hs
  | eof hsi | dropSink hsi =>
    exact ⟨⟨hup, hd⟩, fun b hst => absurd hst (hl hsi b), hs.held, hs.sending,
      hs.dropped, hs.live⟩
  | take chunk hupload hsou =>
    have hno : s.discarded = [] := hs.live (by simp [hsou])
    refine ⟨⟨?_, hd⟩, fun b hst => absurd hst (ho hsou b), hs.held, hs.sending,
      fun _ => rfl, fun _ => hno⟩
    show s.head ++ (s.delivered ++ chunk) ++ s.discarded ++ [] ++ s.transit ++ s.state.buffer ++
      s.upcoming = stream
    simpa [hno, queued, hupload] using hup
  | dropSource hsou =>
    refine ⟨⟨?_, hd⟩, fun b hst => absurd hst (ho hsou b), hs.held, hs.sending,
      fun _ => rfl, fun h => absurd rfl h⟩
    show s.head ++ s.delivered ++ (s.discarded ++ s.upload.getD []) ++ [] ++ s.transit ++
      s.state.buffer ++ s.upcoming = stream
    simpa [queued] using hup

lemma not_conserved_drop (hs : Inv stream s) (hh : ¬ (s.transit = [] ∧ s.inflight = [])) :
    ¬ Conserved stream { s with point := .idle } := by
  intro h
  have hup := congrArg length (hs.upload_eq.trans h.upload_eq.symm)
  have hd := congrArg length (hs.download_eq.trans h.download_eq.symm)
  have ht : { s with point := .idle }.transit = [] := rfl
  have hi : { s with point := .idle }.inflight = [] := rfl
  simp only [ht, hi, length_append, length_nil, queued, waiting] at hup hd
  refine hh ⟨length_eq_zero_iff.mp ?_, length_eq_zero_iff.mp ?_⟩
  · omega
  · omega

/-- **Dropped futures.** Bytes are kept exactly if no dropped future holds some. -/
theorem conserved_iff (P : Httparse) (U : UriCrate) (stream : Bytes) (events : List Event) :
    EveryState (step P U) (Conserved stream) (start stream) events ↔
      EveryStep (step P U) Spares (start stream) events := by
  refine everyState_iff_everyStep ?_ (fun s (hs : Inv stream s) => hs.toConserved) ?_ events
    (inv_start stream)
  · intro s e s' hs hsp hst
    exact inv_next hs hsp (next_of_step hst)
  · intro s e s' hs hn hst
    obtain ⟨rfl, hh⟩ := Classical.not_imp.mp hn
    cases next_of_step hst with
    | drop => exact not_conserved_drop hs hh

end

end

def bareHead : Bytes := utf8 "GET / HTTP/1.1\r\nHost: example.com\r\n\r\n"

/-- The rest of a chunk, and the first bytes of a head. -/
theorem chunk_lost_head_lost : (∃ s, run (step requestScanner exampleUris) (start bareHead)
        [.call, .read 37, .call, .write (utf8 "abc"), .receive, .wrote 1, .drop, .call] = some s ∧
      (s.accepted = utf8 "abc" ∧ s.written = utf8 "a" ∧ s.waiting = [] ∧ s.inflight = []) ∧
      ¬ Conserved bareHead s) ∧
    ∃ s, run (step requestScanner exampleUris) (start bareHead)
        [.call, .read 4, .poll, .drop, .call] = some s ∧
      (s.upcoming = bareHead.drop 4 ∧ s.head = [] ∧ s.transit = [] ∧ s.state.buffer = []) ∧
      ¬ Conserved bareHead s := by
  have hc : (run (step requestScanner exampleUris) (start bareHead)
      [.call, .read 37, .call, .write (utf8 "abc"), .receive, .wrote 1, .drop, .call]).map
        (fun s => (s.accepted, s.written, s.waiting, s.inflight)) =
      some (utf8 "abc", utf8 "a", [], []) := by
    decide +kernel
  have hh : (run (step requestScanner exampleUris) (start bareHead)
      [.call, .read 4, .poll, .drop, .call]).map
        (fun s => ((s.upcoming, s.head, s.transit, s.state.buffer),
          s.delivered, s.discarded, s.queued)) =
      some ((bareHead.drop 4, [], [], []), [], [], []) := by
    decide +kernel
  refine ⟨?_, ?_⟩
  · obtain ⟨s, hs, hf⟩ := map_eq_some_iff.mp hc
    simp only [Prod.mk.injEq] at hf
    refine ⟨s, hs, hf, fun h => ?_⟩
    obtain ⟨ha, hw, hwa, hi⟩ := hf
    have hal := h.download_eq
    rw [ha, hw, hwa, hi] at hal
    revert hal
    decide +kernel
  · obtain ⟨s, hs, hf⟩ := map_eq_some_iff.mp hh
    simp only [Prod.mk.injEq] at hf
    obtain ⟨⟨hupcoming, hh, ht, hb⟩, hd, hdi, hq⟩ := hf
    refine ⟨s, hs, ⟨hupcoming, hh, ht, hb⟩, fun h => ?_⟩
    have hal := h.upload_eq
    rw [hupcoming, hh, ht, hb, hd, hdi, hq] at hal
    revert hal
    decide +kernel

end Session

end TrustTunnel.Http1Codec
