import TrustTunnel.Pipe

/-!
# The idle timeout of the TCP pipe

Each direction has a timer; when one expires, both futures start again with new stamps.
-/

namespace TrustTunnel.Pipe

open Io Lib SimplexPipe

def Event.readsChunk {α : Type} : Event α → Bool
  | .readable (.ok (.chunk _)) _ _ => true
  | _ => false

namespace SimplexPipe

variable {σ α : Type}

def active (p : SimplexPipe σ) (ev : Event α) (p' : SimplexPipe σ) : Bool :=
  ev.readsChunk || p'.accepted.length != p.accepted.length

variable {S : SinkCalls σ α} {p p' : SimplexPipe σ} {timeout now : Nat} {ev : Event α}

def Stamps (now : Nat) (p p' : SimplexPipe σ) : Prop :=
  (∃ e, p'.point = .failed e) ∨ p'.lastActivity = now ∨
    (p'.lastActivity = p.lastActivity ∧ p'.accepted = p.accepted)

lemma stamps_send_chunk (p : SimplexPipe σ) (now : Nat) (bytes : Bytes) (a : α)
    (consume : Except IoError Unit) :
    (∃ e, (send S p now (.chunk bytes) a consume).point = .failed e) ∨
      (send S p now (.chunk bytes) a consume).lastActivity = now := by
  simp only [send]
  split
  · exact .inl ⟨_, rfl⟩
  · cases consume with
    | error e => exact .inl ⟨e, rfl⟩
    | ok => exact .inr rfl

lemma stamps_send (data : Data) (a : α) (consume : Except IoError Unit) :
    Stamps now p (send S p now data a consume) := by
  cases data with
  | chunk bytes =>
    rcases stamps_send_chunk (S := S) p now bytes a consume with h | h
    · exact .inl h
    · exact .inr (.inl h)
  | eof =>
    simp only [send]
    split
    · exact .inl ⟨_, rfl⟩
    · exact .inr (.inr ⟨rfl, rfl⟩)

lemma stamps_onWritable (a a' : α) (consume : Except IoError Unit) :
    Stamps now p (onWritable S p now a a' consume) := by
  unfold onWritable
  split
  · exact .inl ⟨_, rfl⟩
  · split
    · exact .inl ⟨_, rfl⟩
    · rename_i sink _ _ _ pending _
      exact stamps_send (p := { p with sink := sink, pendingChunk := none }) pending a' consume

lemma stamps_onFlushed (a : α) : Stamps now p (onFlushed S p a) := by
  unfold onFlushed
  split
  · exact .inl ⟨_, rfl⟩
  · exact .inr (.inr ⟨rfl, rfl⟩)

lemma stamps_onEofFlushed (a : α) : Stamps now p (onEofFlushed S p a) := by
  unfold onEofFlushed
  split
  · exact .inl ⟨_, rfl⟩
  · exact .inr (.inr ⟨rfl, rfl⟩)

/-- **What a step leaves of the stamp.** -/
lemma stamps_step (h : step S timeout now p ev = some p') :
    (∃ e, p'.point = .failed e) ∨ p'.lastActivity = now ∨
      (p'.lastActivity = p.lastActivity ∧ active p ev p' = false) := by
  -- where no chunk is read, only accepted bytes are activity
  have hq : ev.readsChunk = false → Stamps now p p' →
      (∃ e, p'.point = .failed e) ∨ p'.lastActivity = now ∨
        (p'.lastActivity = p.lastActivity ∧ active p ev p' = false) := by
    intro hr hs
    rcases hs with hf | hn | ⟨hl, ha⟩
    · exact .inl hf
    · exact .inr (.inl hn)
    · exact .inr (.inr ⟨hl, by simp [active, hr, ha]⟩)
  cases next_of_step h with
  | start => exact hq rfl (.inr (.inl rfl))
  | flushed a => exact hq rfl (stamps_onFlushed a)
  | eofFlushed a => exact hq rfl (stamps_onEofFlushed a)
  | readable data a consume =>
    match data with
    | .error e => exact .inl ⟨e, rfl⟩
    | .ok (.chunk bytes) =>
      rcases stamps_send_chunk (S := S) { p with read := p.read ++ bytes } now bytes a consume
        with h | h
      · exact .inl h
      · exact .inr (.inl h)
    | .ok .eof => exact hq rfl (stamps_send .eof a consume)
  | writable a a' consume => exact hq rfl (stamps_onWritable a a' consume)
  | timeout | drop => exact hq rfl (.inr (.inr ⟨rfl, rfl⟩))

lemma step_timeout (h : step S timeout now p .timeout = some p') :
    p.lastActivity + timeout ≤ now ∧ p' = { p with point := .timedOut } := by
  cases next_of_step h with
  | timeout _ he => exact ⟨he, rfl⟩

@[simp] lemma lastActivity_cancel (p : SimplexPipe σ) : p.cancel.lastActivity =
    p.lastActivity := by
  unfold cancel
  split <;> rfl

lemma active_cancel (p q : SimplexPipe σ) (ev : Event α) :
    active p ev q.cancel = active p ev q := by
  have ha : q.cancel.accepted = q.accepted := by
    unfold cancel
    split <;> rfl
  rw [active, ha, active]

end SimplexPipe

namespace DuplexPipe

variable {σ τ α β : Type}

def lastActivity (d : DuplexPipe σ τ) : Side → Nat
  | .left => d.leftPipe.lastActivity
  | .right => d.rightPipe.lastActivity

def point (d : DuplexPipe σ τ) : Side → Point
  | .left => d.leftPipe.point
  | .right => d.rightPipe.point

def Event.timer : Event α β → Option Side
  | .left .timeout => some .left
  | .right .timeout => some .right
  | _ => none

abbrev Activity := List (Side × Nat)

def activity (d : DuplexPipe σ τ) (ev : Event α β) (d' : DuplexPipe σ τ) (log : Activity) :
    Activity :=
  match ev with
  | .left ev => if active d.leftPipe ev d'.leftPipe then (.left, d.now) :: log else log
  | .right ev =>
    if active d.rightPipe ev d'.rightPipe then (.right, d.now) :: log else log
  | .wait _ => log

/-- No activity is later than its stamp, and a direction not waited for has finished. -/
structure Stamped (x : DuplexPipe σ τ × Activity) : Prop where
  past : ∀ side t, (side, t) ∈ x.2 → t ≤ x.1.now
  stamps : (∀ r, x.1.waiting ≠ .returned r) → ∀ side t, (side, t) ∈ x.2 → t ≤ x.1.lastActivity side
  only : ∀ side, x.1.waiting = .only side → ∀ side', side' ≠ side → x.1.point side' = .finished

variable {timeout : Nat} {d : DuplexPipe σ τ} {log log' : Activity}

@[simp] lemma lastActivity_settle (point : Point) (other side : Side) :
    (settle timeout d point other).lastActivity side = d.lastActivity side := by
  unfold settle
  cases side <;> simp only [lastActivity]
  all_goals
    split
    · exact lastActivity_cancel _
    · rfl
    · rfl
    · split <;> exact lastActivity_cancel _
    · rfl
    · rfl

@[simp] lemma now_settle (point : Point) (other : Side) :
    (settle timeout d point other).now = d.now := by
  unfold settle
  split
  · rfl
  · rfl
  · rfl
  · split <;> rfl
  · rfl
  · rfl

lemma settle_cases (timeout : Nat) (d : DuplexPipe σ τ) (point : Point) (other : Side) :
    (∃ r, (settle timeout d point other).waiting = .returned r) ∨
    (point = .finished ∧ d.waiting = .both ∧
      settle timeout d point other = { d with waiting := .only other }) ∨
    (d.waiting = .both ∧ (settle timeout d point other).waiting = .both) ∨
    settle timeout d point other = d := by
  unfold settle
  split
  · exact .inl ⟨_, rfl⟩
  · rename_i hb
    exact .inr (.inl ⟨rfl, hb, rfl⟩)
  · exact .inl ⟨_, rfl⟩
  · rename_i hb
    split
    · exact .inl ⟨_, rfl⟩
    · exact .inr (.inr (.inl ⟨hb, hb⟩))
  · exact .inl ⟨_, rfl⟩
  · exact .inr (.inr (.inr rfl))

def Notes (d d1 : DuplexPipe σ τ) (side : Side) (log log' : Activity) : Prop :=
  (∃ e, d1.point side = .failed e) ∨ d1.lastActivity side = d.now ∨
    (d1.lastActivity side = d.lastActivity side ∧ log' = log)

lemma stamped_settle (d1 : DuplexPipe σ τ) (side : Side) (hne : other ≠ side)
    (hs : Stamped (d, log)) (hp : d.polls side) (hno : d1.now = d.now)
    (hw : d1.waiting = d.waiting) (hla : d1.lastActivity other = d.lastActivity other)
    (hpoi : d1.point other = d.point other) (hl : log' = log ∨ log' = (side, d.now) :: log)
    (hn : Notes d d1 side log log') : Stamped (settle timeout d1 (d1.point side) other, log') := by
  have hsi : ∀ s, s = side ∨ s = other := by
    intro s
    cases s <;> cases side <;> cases other <;> simp at hne ⊢
  have hpa : ∀ s t, (s, t) ∈ log' → t ≤ d.now := by
    intro s t ht
    rcases hl with rfl | rfl
    · exact hs.past s t ht
    · rcases List.mem_cons.mp ht with ht | ht
      · cases ht
        exact Nat.le_refl _
      · exact hs.past s t ht
  have hold : ∀ t, (other, t) ∈ log' → (other, t) ∈ log := by
    intro t ht
    rcases hl with rfl | rfl
    · exact ht
    · exact (List.mem_cons.mp ht).resolve_left (fun h => hne (Prod.mk.inj h).1)
  refine ⟨fun s t ht => ?_, fun hru s t ht => ?_, fun s ho s' hs' => ?_⟩
  · simp only [now_settle, hno]
    exact hpa s t ht
  · have hb : ∀ r, d.waiting ≠ .returned r := by
      intro r hr
      rw [polls, hr] at hp
      cases hp
    simp only [lastActivity_settle]
    rcases hsi s with rfl | rfl
    · rcases hn with ⟨e, he⟩ | hst | ⟨hsa, rfl⟩
      · -- an error ends the exchange
        rw [he] at hru
        exact absurd rfl (hru (.error e))
      · rw [hst]
        exact hpa s t ht
      · rw [hsa]
        exact hs.stamps hb s t ht
    · rw [hla]
      exact hs.stamps hb s t (hold t ht)
  · simp only at ho ⊢
    rcases settle_cases timeout d1 (d1.point side) other with ⟨r, hr⟩ | ⟨hf, -, heq⟩ |
      ⟨-, hbo⟩ | heq
    · rw [hr] at ho
      cases ho
    · rw [heq] at ho ⊢
      cases ho
      rw [(hsi s').resolve_right hs']
      exact hf
    · rw [hbo] at ho
      cases ho
    · rw [heq] at ho ⊢
      rw [hw] at ho
      -- the other direction is not polled
      have hpo : s = side := by
        rw [polls, ho] at hp
        exact of_decide_eq_true hp
      rw [hpo] at hs' ho
      rw [(hsi s').resolve_left hs', hpoi]
      exact hs.only side ho other hne

lemma active_settle_left (p : SimplexPipe σ) (ev : Pipe.Event α) (point : Point) (other : Side) :
    active p ev (settle timeout d point other).leftPipe = active p ev d.leftPipe := by
  unfold settle
  split
  · exact active_cancel p d.leftPipe ev
  · rfl
  · rfl
  · split <;> exact active_cancel p d.leftPipe ev
  · rfl
  · rfl

lemma active_settle_right (p : SimplexPipe τ) (ev : Pipe.Event β) (point : Point) (other : Side) :
    active p ev (settle timeout d point other).rightPipe = active p ev d.rightPipe := by
  unfold settle
  split
  · exact active_cancel p d.rightPipe ev
  · rfl
  · rfl
  · split <;> exact active_cancel p d.rightPipe ev
  · rfl
  · rfl

variable {S : Sink σ α} {T : Sink τ β} {d' : DuplexPipe σ τ} {ev : Event α β}

lemma logged (d d1 : DuplexPipe σ τ) (side : Side) (log : Activity)
    (h : (∃ e, d1.point side = .failed e) ∨ d1.lastActivity side = d.now ∨
      (d1.lastActivity side = d.lastActivity side ∧ b = false)) :
    ((if b then (side, d.now) :: log else log) = log ∨
      (if b then (side, d.now) :: log else log) = (side, d.now) :: log) ∧
    Notes d d1 side log (if b then (side, d.now) :: log else log) := by
  refine ⟨by cases b <;> simp, ?_⟩
  rcases h with hf | hn | ⟨hl, rfl⟩
  · exact .inl hf
  · exact .inr (.inl hn)
  · exact .inr (.inr ⟨hl, rfl⟩)

lemma stamped_step (hs : Stamped (d, log)) (h : step S T timeout d ev = some d') :
    Stamped (d', activity d ev d' log) := by
  cases ev with
  | left =>
    obtain ⟨hpo, p, hp, rfl⟩ := step_left h
    simp only [activity, active_settle_left]
    obtain ⟨hl, hn⟩ := logged d { d with leftPipe := p } .left log (stamps_step hp)
    exact stamped_settle { d with leftPipe := p } .left (by decide) hs hpo rfl rfl rfl rfl hl hn
  | right =>
    obtain ⟨hpo, p, hp, rfl⟩ := step_right h
    simp only [activity, active_settle_right]
    obtain ⟨hl, hn⟩ := logged d { d with rightPipe := p } .right log (stamps_step hp)
    exact stamped_settle { d with rightPipe := p } .right (by decide) hs hpo rfl rfl rfl rfl hl hn
  | wait δ =>
    cases h
    exact ⟨fun side t ht => Nat.le_add_right_of_le (hs.past side t ht), hs.stamps, hs.only⟩

lemma stamped_new (sink : σ) (sink' : τ) : Stamped (new sink sink', []) :=
  ⟨fun _ _ h => (by cases h), fun _ _ _ h => (by cases h), fun _ h => (by cases h)⟩

lemma stamped_of_reachable {sink : σ} {sink' : τ} {x : DuplexPipe σ τ × Activity}
    (h : Reachable (observed (step S T timeout) activity) (new sink sink', []) x) : Stamped x := by
  refine reachable_invariant (stamped_new sink sink') (fun x ev y hx hs => ?_) h
  obtain ⟨d', hd', rfl⟩ := observed_eq_some hs
  exact stamped_step hx hd'

lemma settle_timedOut (h : (settle timeout d .timedOut other).waiting = .returned r) :
    r = .error (.ofKind .timedOut) ∧ ((∀ side, d.lastActivity side + timeout < d.now) ∨
        d.waiting ≠ .both ∧ ∀ side, (settle timeout d .timedOut other).point side =
          d.point side) := by
  by_cases hb : d.waiting = .both
  · simp only [settle, hb] at h
    split at h
    · rename_i hi
      cases h
      refine ⟨rfl, .inl fun side => ?_⟩
      cases side with
      | left => exact hi.1
      | right => exact hi.2
    · cases h
  · have hs : settle timeout d .timedOut other =
        { d with waiting := .returned (.error (.ofKind .timedOut)) } := by
      cases hw : d.waiting with
      | both => exact absurd hw hb
      | only | returned => simp [settle, hw]
    rw [hs] at h ⊢
    cases h
    exact ⟨rfl, .inr ⟨hb, fun _ => rfl⟩⟩

lemma step_timer (ht : ev.timer = some side)
    (h : step S T timeout d ev = some d') (hreturned : d'.waiting = .returned r) :
    d.polls side ∧ d.lastActivity side + timeout ≤ d.now ∧ d'.now = d.now ∧
      r = .error (.ofKind .timedOut) ∧ ((∀ side, d.lastActivity side + timeout < d.now) ∨
        d.waiting ≠ .both ∧ ∀ side', side' ≠ side → d'.point side' = d.point side') := by
  match ev with
  | .left .timeout =>
    cases ht
    obtain ⟨hpo, p, hp, rfl⟩ := step_left h
    obtain ⟨he, rfl⟩ := step_timeout hp
    obtain ⟨hr, hc⟩ := settle_timedOut hreturned
    refine ⟨hpo, he, now_settle _ _, hr, ?_⟩
    rcases hc with hi | ⟨hn, hpoi⟩
    · exact .inl fun side => by cases side; exacts [hi .left, hi .right]
    · refine .inr ⟨hn, fun side' hs' => (hpoi side').trans ?_⟩
      cases side' <;> first | rfl | exact absurd rfl hs'
  | .right .timeout =>
    cases ht
    obtain ⟨hpo, p, hp, rfl⟩ := step_right h
    obtain ⟨he, rfl⟩ := step_timeout hp
    obtain ⟨hr, hc⟩ := settle_timedOut hreturned
    refine ⟨hpo, he, now_settle _ _, hr, ?_⟩
    rcases hc with hi | ⟨hn, hpoi⟩
    · exact .inl fun side => by cases side; exacts [hi .left, hi .right]
    · refine .inr ⟨hn, fun side' hs' => (hpoi side').trans ?_⟩
      cases side' <;> first | rfl | exact absurd rfl hs'

/-- **The idle timeout is sound.** Nothing moved for a whole timeout in any direction that has
not finished. -/
theorem timedOut_idle (S : Sink σ α) (T : Sink τ β) (timeout : Nat) (sink : σ) (sink' : τ)
    (d d' : DuplexPipe σ τ) (log : Activity) (ev : Event α β) (side : Side)
    (r : Except IoError Unit)
    (h : Reachable (observed (step S T timeout) activity) (new sink sink', []) (d, log))
    (htimer : ev.timer = some side) (hstep : step S T timeout d ev = some d')
    (hreturned : d'.waiting = .returned r) :
    r = .error (.ofKind .timedOut) ∧
      ∀ s, d'.point s ≠ .finished → ∀ t, (s, t) ∈ log → t + timeout ≤ d'.now := by
  have hs := stamped_of_reachable h
  obtain ⟨hp, hexp, hn, hr, hc⟩ := step_timer htimer hstep hreturned
  have hru : ∀ r, d.waiting ≠ .returned r := by
    intro r hr
    rw [polls, hr] at hp
    cases hp
  refine ⟨hr, fun s hu t ht => ?_⟩
  have hst := hs.stamps hru s t ht
  simp only at hst
  rw [hn]
  rcases hc with hi | ⟨hno, ho⟩
  · have := hi s
    omega
  · by_cases hsi : s = side
    · subst hsi
      omega
    · -- the other direction has finished
      refine absurd ?_ hu
      rw [ho s hsi]
      cases hw : d.waiting with
      | both => exact absurd hw hno
      | only side' =>
        rw [polls, hw] at hp
        have hsi' : side' = side := of_decide_eq_true hp
        exact hs.only side' hw s (hsi' ▸ hsi)
      | returned r' => exact absurd hw (hru r')

def quietAfterChunk : List (Event Nat Nat) :=
  [.left .start, .right .start, .left (.flushed 0), .right (.flushed 0), .wait 1,
    .right (.readable (.ok (.chunk [7, 8])) 2 (.ok ())), .right (.flushed 0), .wait 11]

theorem quietAfterChunk_timedOut :
    ∃ d d' log, run (observed (step boundedSink boundedSink 10) activity) (new () (), [])
        quietAfterChunk = some (d, log) ∧
      step boundedSink boundedSink 10 d (.left .timeout) = some d' ∧ (Side.right, 1) ∈ log ∧
      1 + 10 ≤ d'.now := by
  refine ⟨_, _, _, rfl, rfl, List.mem_cons_self, ?_⟩
  exact (timedOut_idle boundedSink boundedSink 10 () () _ _ _ (.left .timeout) .left _
    ⟨quietAfterChunk, rfl⟩ rfl rfl rfl).2 .right (fun h => by cases h) 1 List.mem_cons_self

end DuplexPipe

end TrustTunnel.Pipe
