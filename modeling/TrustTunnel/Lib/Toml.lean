import Mathlib.Data.List.Basic

/-!
# Strings of TOML

Four kinds of quotes, with pieces between them, each a text and what it means.
-/

namespace TrustTunnel.Lib.Toml

open List

inductive Kind where
  | basic
  | multiBasic
  | literal
  | multiLiteral

def isControl (c : Char) : Bool := decide (c.toNat < 32) || decide (c.toNat = 127)

def isHexDigit (c : Char) : Bool :=
  ('0' ≤ c && c ≤ '9') || ('a' ≤ c && c ≤ 'f') || ('A' ≤ c && c ≤ 'F')

def hexValue (digits : List Char) : Nat :=
  digits.foldl (fun n c => 16 * n +
    (if c ≤ '9' then c.toNat - '0'.toNat else if c ≤ 'F' then c.toNat - 'A'.toNat + 10
      else c.toNat - 'a'.toNat + 10)) 0

def letters : List (Char × Char) :=
  [('b', '\x08'), ('t', '\t'), ('n', '\n'), ('f', '\x0c'), ('r', '\r'), ('"', '"'), ('\\', '\\')]

inductive Escape : List Char → Char → Prop
  | letter (l c : Char) (h : (l, c) ∈ letters) : Escape ['\\', l] c
  | short (digits : List Char) (c : Char) (hlength : digits.length = 4)
      (hdigits : digits.all isHexDigit = true) (hvalue : c.toNat = hexValue digits) :
      Escape ('\\' :: 'u' :: digits) c
  | long (digits : List Char) (c : Char) (hlength : digits.length = 8)
      (hdigits : digits.all isHexDigit = true) (hvalue : c.toNat = hexValue digits) :
      Escape ('\\' :: 'U' :: digits) c

def Kind.isRaw (k : Kind) (c : Char) : Bool :=
  (!isControl c || decide (c = '\t')) &&
    match k with
    | .basic | .multiBasic => decide (c ≠ '"') && decide (c ≠ '\\')
    | .literal => decide (c ≠ '\'')
    | .multiLiteral => true

def Kind.isMulti : Kind → Bool
  | .multiBasic | .multiLiteral => true
  | _ => false

def isBlank (c : Char) : Bool := c = ' ' || c = '\t' || c = '\n' || c = '\r'

inductive Piece (k : Kind) : List Char × List Char → Prop
  | raw (c : Char) (h : k.isRaw c = true) : Piece k ([c], [c])
  | escape (text : List Char) (c : Char) (hk : k = .basic ∨ k = .multiBasic) (h : Escape text c) :
      Piece k (text, [c])
  | quote (hk : k = .multiBasic) : Piece k (['"'], ['"'])
  | newline (hk : k.isMulti = true) : Piece k (['\n'], ['\n'])
  | crlf (hk : k.isMulti = true) : Piece k (['\r', '\n'], ['\n'])
  | continuation (blanks : List Char) (hk : k = .multiBasic) (hblanks : blanks.all isBlank = true)
      (hline : '\n' ∈ blanks) : Piece k ('\\' :: blanks, [])

def textOf (pieces : List (List Char × List Char)) : List Char := pieces.flatMap Prod.fst
def valueOf (pieces : List (List Char × List Char)) : List Char := pieces.flatMap Prod.snd

def Kind.quotes : Kind → List Char
  | .basic => ['"']
  | .multiBasic => ['"', '"', '"']
  | .literal => ['\'']
  | .multiLiteral => ['\'', '\'', '\'']

/-- A string as it is written; a line break right after opening quotes is not part of it. -/
inductive StringToken : List Char → List Char → Prop
  | mk (k : Kind) (first : List Char) (pieces : List (List Char × List Char))
      (hpieces : ∀ p ∈ pieces, Piece k p)
      (hfirst : if k.isMulti then first = [] ∨ first = ['\n'] ∨ first = ['\r', '\n'] else first = [])
      (hbreak : first = [] → k.isMulti = true → ∀ c ∈ (textOf pieces).head?, c ≠ '\n' ∧ c ≠ '\r')
      (hquotes : k.isMulti = true → ¬ k.quotes <:+: textOf pieces) :
      StringToken (k.quotes ++ first ++ textOf pieces ++ k.quotes) (valueOf pieces)

/-! ## Counting characters

What starts an escape is counted more often in the escape than in its value. -/

structure Marks (q : Char → Bool) : Prop where
  backslash : q '\\' = true
  letter : ∀ e ∈ letters, q e.2 = true → q e.1 = true
  short : q 'u' = true
  long : q 'U' = true

section Counting

variable {q : Char → Bool} (hq : Marks q)

include hq

section

variable {k : Kind} {p : List Char × List Char} {pieces : List (List Char × List Char)}

lemma Escape.countP_lt (h : Escape text c) : [c].countP q < text.countP q := by
  cases h with
  | letter l c h =>
    have hl := hq.letter (l, c) h
    cases hc : q c with
    | true => simp [hq.backslash, hl hc, hc]
    | false => simp [hq.backslash, hc]
  | short digits c =>
    have := List.countP_le_length (p := q) (l := [c])
    simp only [List.countP_cons, hq.backslash, hq.short, if_true, List.length_singleton] at this ⊢
    omega
  | long digits c =>
    have := List.countP_le_length (p := q) (l := [c])
    simp only [List.countP_cons, hq.backslash, hq.long, if_true, List.length_singleton] at this ⊢
    omega

lemma Piece.countP_le (h : Piece k p) : p.2.countP q ≤ p.1.countP q := by
  cases h with
  | escape text c hk h => exact Nat.le_of_lt (h.countP_lt hq)
  | crlf => exact List.Sublist.countP_le (List.sublist_cons_self '\r' ['\n'])
  | continuation => exact Nat.zero_le _
  | _ => exact Nat.le_refl _

lemma Piece.raw_of_countP_le (h : Piece k p) (hc : p.1.countP q ≤ p.2.countP q) :
    ∀ c ∈ p.2, k.isRaw c ∨ c = '"' ∨ c = '\n' := by
  intro d hd
  cases h with
  | raw c h =>
    cases mem_singleton.mp hd
    exact .inl h
  | escape text c hk h => exact absurd (h.countP_lt hq) (Nat.not_lt.mpr hc)
  | quote => exact .inr (.inl (mem_singleton.mp hd))
  | newline | crlf => exact .inr (.inr (mem_singleton.mp hd))
  | continuation => cases hd

lemma countP_valueOf_le (h : ∀ p ∈ pieces, Piece k p) :
    (valueOf pieces).countP q ≤ (textOf pieces).countP q := by
  induction pieces with
  | nil => exact Nat.le_refl 0
  | cons p pieces ih =>
    have hp := (h p mem_cons_self).countP_le hq
    have hre := ih (fun r hr => h r (mem_cons_of_mem p hr))
    simp only [valueOf, textOf, flatMap_cons, countP_append] at hre ⊢
    omega

lemma raw_of_countP_le (h : ∀ p ∈ pieces, Piece k p)
    (hco : (textOf pieces).countP q ≤ (valueOf pieces).countP q) :
    ∀ c ∈ valueOf pieces, k.isRaw c ∨ c = '"' ∨ c = '\n' := by
  induction pieces with
  | nil => intro c hc; cases hc
  | cons p pieces ih =>
    have hp := (h p mem_cons_self).countP_le hq
    have ht : ∀ r ∈ pieces, Piece k r := fun r hr => h r (mem_cons_of_mem p hr)
    have hre := countP_valueOf_le hq ht
    simp only [valueOf, textOf, flatMap_cons, countP_append] at hco hre
    intro c hc
    rcases mem_append.mp hc with hc | hc
    · exact (h p mem_cons_self).raw_of_countP_le hq (by omega) c hc
    · exact ih ht (by simp only [valueOf, textOf]; omega) c hc

end

end Counting

end TrustTunnel.Lib.Toml
