import LintRatchet.Digest.Hex
import LintRatchet.Digest.Sha256
import LintRatchet.Finding
import LintRatchet.SourcePath

/-!
# Fingerprints

A fingerprint names a finding across runs and platforms.  It is the first half
of the SHA-256 hash of the finding's *identity*, the text `file:rule:line`, in
thirty-two hexadecimal digits.  The message takes no part in it, and neither
does the kind of slash in the file.

`ascending` brings a list of texts into the form in which fingerprints are
kept: sorted, each once.
-/

namespace LintRatchet

/-! ## Sorted lists without duplicates -/

namespace Fingerprint

/-- A list without elements that repeat the one before. -/
def dropRepeats : List String → List String
  | a :: b :: rest => if a = b then dropRepeats (b :: rest) else a :: dropRepeats (b :: rest)
  | short => short

/-- The texts in ascending order, each once. -/
def ascending (texts : List String) : List String :=
  dropRepeats (texts.mergeSort fun a b => (compare a b).isLE)

end Fingerprint

/-! ## Fingerprints of findings -/

namespace Finding

/-- What identifies a finding: its file, rule and line. -/
def identity (f : Finding) : String :=
  SourcePath.withSlashes f.file ++ ":" ++ f.rule ++ ":" ++ toString f.line.toNat

/-- The name of a finding: thirty-two hexadecimal digits of the hash of its identity. -/
def fingerprint (f : Finding) : String :=
  String.ofList (Digest.hex ((Digest.Sha256.hash f.identity.toUTF8.toList).take 16))

end Finding

/-- The distinct fingerprints of findings, ascending. -/
def Fingerprint.set (findings : List Finding) : List String :=
  Fingerprint.ascending (findings.map Finding.fingerprint)

end LintRatchet
