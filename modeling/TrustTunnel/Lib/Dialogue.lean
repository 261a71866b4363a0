import Mathlib.Data.List.Basic

/-!
# Dialogues

A program that writes messages to its peer and reads exact numbers of bytes from it.  What
the peer sends comes in pieces, cut anywhere.
-/

namespace TrustTunnel.Lib

open List

/-- Messages have a kind `κ`; the program ends with an `ε` or an `α`. -/
inductive Dialogue (κ ε α : Type) where
  | write (kind : κ) (bytes : List UInt8) (next : Dialogue κ ε α)
  | read (n : Nat) (next : List UInt8 → Dialogue κ ε α)
  | done (result : Except ε α)

namespace Dialogue

inductive Event (κ : Type) where
  | wrote (kind : κ) (bytes : List UInt8)
  | received (bytes : List UInt8)

/-- The first `n` bytes of the pieces, and what is left of them. -/
def readExact : List (List UInt8) → Nat → Option (List UInt8 × List (List UInt8))
  | [], n => if n = 0 then some ([], []) else none
  | piece :: pieces, n =>
    if n ≤ piece.length then some (piece.take n, piece.drop n :: pieces)
    else (readExact pieces (n - piece.length)).map fun x => (piece ++ x.1, x.2)

def received {κ : Type} (events : List (Event κ)) : List UInt8 :=
  events.flatMap fun
    | .wrote _ _ => []
    | .received bytes => bytes

variable {κ ε α : Type}

/-- What happens, how it ends, and what was not read; `ended` is for reading past the end. -/
def run (fails : κ → Option ε) (ended : ε) :
    Dialogue κ ε α → List (List UInt8) → List (Event κ) × Except ε α × List (List UInt8)
  | .write kind bytes next, pieces =>
    match fails kind with
    | some e => ([.wrote kind bytes], .error e, pieces)
    | none =>
      let x := run fails ended next pieces
      (.wrote kind bytes :: x.1, x.2)
  | .read n next, pieces =>
    match readExact pieces n with
    | none => ([], .error ended, [])
    | some (bytes, rest) =>
      let x := run fails ended (next bytes) rest
      (.received bytes :: x.1, x.2)
  | .done result, pieces => ([], result, pieces)

/-- Whatever is read, messages are written as `may` allows and the end is as `ends` allows. -/
def Respects (may : List UInt8 → κ → Prop) (ends : List UInt8 → α → Prop) :
    List UInt8 → Dialogue κ ε α → Prop
  | got, .write kind _ next => may got kind ∧ Respects may ends got next
  | got, .read n next => ∀ bytes, bytes.length = n → Respects may ends (got ++ bytes) (next bytes)
  | got, .done (.ok a) => ends got a
  | _, .done (.error _) => True

/-- Each message is one that `may` allows after what was received. -/
def Obeys (may : List UInt8 → κ → Prop) (got : List UInt8) (events : List (Event κ)) : Prop :=
  ∀ before kind bytes after, events = before ++ .wrote kind bytes :: after →
    may (got ++ received before) kind

lemma readExact_eq_some (h : readExact pieces n = some (bytes, rest)) :
    bytes.length = n ∧ pieces.flatten = bytes ++ rest.flatten := by
  induction pieces generalizing n bytes with
  | nil =>
    obtain ⟨rfl, h⟩ := Option.ite_none_right_eq_some.mp h
    cases h
    exact ⟨rfl, rfl⟩
  | cons piece pieces ih =>
    rw [readExact] at h
    split at h
    · rename_i hle
      cases h
      exact ⟨length_take_of_le hle, by simp [← append_assoc]⟩
    · obtain ⟨⟨bytes', rest'⟩, hr, h⟩ := Option.map_eq_some_iff.mp h
      cases h
      obtain ⟨hl, hf⟩ := ih hr
      refine ⟨?_, by simp [hf]⟩
      simp only [length_append, hl]
      omega

section

variable {may : List UInt8 → κ → Prop} {ends : List UInt8 → α → Prop} {got bytes : List UInt8}
  {kind : κ} {events : List (Event κ)} {d : Dialogue κ ε α}

lemma obeys_nil : Obeys may got [] := by
  intro before kind bytes after h
  simp at h

lemma Obeys.wrote (h : Obeys may got events) (hm : may got kind) :
    Obeys may got (.wrote kind bytes :: events) := by
  intro before kind' bytes' after he
  cases before with
  | nil =>
    cases he
    simpa [received] using hm
  | cons e before =>
    obtain ⟨rfl, hr⟩ := List.cons.inj he
    exact h before kind' bytes' after hr

lemma Obeys.received (h : Obeys may (got ++ bytes) events) :
    Obeys may got (.received bytes :: events) := by
  intro before kind' bytes' after he
  cases before with
  | nil => cases he
  | cons e before =>
    obtain ⟨rfl, hr⟩ := List.cons.inj he
    simpa [Dialogue.received] using h before kind' bytes' after hr

/-- **Rule for dialogues.** With any peer, any pieces and any failures. -/
lemma run_respects (fails : κ → Option ε) (ended : ε) (h : Respects may ends got d)
    (pieces : List (List UInt8)) :
    Obeys may got (run fails ended d pieces).1 ∧ ∀ a, (run fails ended d pieces).2.1 = .ok a →
        ends (got ++ Dialogue.received (run fails ended d pieces).1) a ∧
          pieces.flatten = Dialogue.received (run fails ended d pieces).1 ++
            (run fails ended d pieces).2.2.flatten := by
  induction d generalizing got pieces with
  | write kind bytes next ih =>
    obtain ⟨hm, hn⟩ := h
    cases hf : fails kind with
    | some =>
      simp only [run, hf]
      exact ⟨obeys_nil.wrote hm, nofun⟩
    | none =>
      simp only [run, hf]
      obtain ⟨he, hen⟩ := ih hn pieces
      exact ⟨he.wrote hm, hen⟩
  | read n next ih =>
    cases hr : readExact pieces n with
    | none =>
      simp only [run, hr]
      exact ⟨obeys_nil, nofun⟩
    | some x =>
      obtain ⟨bytes, rest⟩ := x
      obtain ⟨hl, hfl⟩ := readExact_eq_some hr
      obtain ⟨he, hen⟩ := ih bytes (h bytes hl) rest
      simp only [run, hr]
      refine ⟨he.received, fun a ha => ?_⟩
      obtain ⟨hd, hre⟩ := hen a ha
      simp only [Dialogue.received, flatMap_cons, append_assoc] at hd hre ⊢
      exact ⟨hd, by rw [hfl, hre]⟩
  | done =>
    refine ⟨obeys_nil, fun a ha => ?_⟩
    cases ha
    simpa [run, Dialogue.received, Respects] using h

end

end Dialogue

end TrustTunnel.Lib
