import Mathlib.Algebra.Ring.Nat

/-!
# Bytes and I/O errors

Byte buffers are lists; an `io::Error` is its kind and text, or the number of the system's error.
-/

namespace TrustTunnel.Io

abbrev Bytes := List UInt8

inductive ErrorKind where
  | notFound
  | permissionDenied
  | connectionRefused
  | wouldBlock
  | timedOut
  | unexpectedEof
  | invalidData
  | other
  | os (code : Nat)
  -- no error: the task has panicked
  | panicked
  deriving DecidableEq

structure IoError where
  kind : ErrorKind
  text : String
  deriving DecidableEq

/-- `io::Error::from(kind)`. -/
def IoError.ofKind (kind : ErrorKind) : IoError := ⟨kind, ""⟩

/-- `io::Error::other(text)`. -/
def IoError.other (text : String) : IoError := ⟨.other, text⟩

end TrustTunnel.Io
