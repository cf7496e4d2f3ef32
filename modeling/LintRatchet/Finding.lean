/-!
# Findings and their canonical order

A finding is one lint issue at a line of a file.  Its file, rule and line
identify it.  The message describes it and may change between linter releases.

Findings are kept in one order: by file, then line, then rule, then message.
Texts are compared code point by code point, which is also the order of their
UTF-8 bytes.  `Finding.sort` arranges a list in this order and keeps every
duplicate.
-/

namespace LintRatchet

/-- One lint issue. -/
structure Finding where
  rule : String
  /-- The file, relative to the working directory and with slashes. -/
  file : String
  /-- The line, counted from one. -/
  line : UInt32
  message : String
deriving DecidableEq, Repr, Inhabited

namespace Finding

/-- The canonical order: by file, line, rule and message. -/
def order (a b : Finding) : Ordering :=
  (compare a.file b.file).then ((compare a.line b.line).then
    ((compare a.rule b.rule).then (compare a.message b.message)))

/-- The first finding does not come after the second. -/
def before (a b : Finding) : Bool := (order a b).isLE

/-- The findings in canonical order, with all duplicates. -/
def sort (findings : List Finding) : List Finding := findings.mergeSort before

end Finding

end LintRatchet
