import LintRatchet.Linter
import LintRatchet.Proofs.Procedure

/-!
# What running the linter comes to

Running the linter ends with what it has printed, whatever its status.  Where
that is a text, replacing what is no text changes nothing
(`decodeLossy_of_fromUTF8?`).  Probing ends with a version, the unknown one if
need be (`Linter.probedVersion`).  Neither touches the state.
-/

namespace LintRatchet

/-! ## Bytes that are a text -/

namespace Text

/-- The bytes of a character are taken for that character, whatever follows. -/
theorem headChar?_utf8EncodeChar (c : Char) (rest : List UInt8) :
    headChar? (String.utf8EncodeChar c ++ rest) = some c := by
  have htake : (String.utf8EncodeChar c ++ rest).take 4 =
      String.utf8EncodeChar c ++ rest.take (4 - c.utf8Size) := by
    rw [List.take_append, String.length_utf8EncodeChar, List.take_of_length_le]
    rw [String.length_utf8EncodeChar]
    exact c.utf8Size_le_four
  rw [headChar?, htake, List.toByteArray_append]
  exact ByteArray.utf8DecodeChar?_utf8EncodeChar_append

/-- The bytes of characters stand for these characters. -/
theorem lossyChars_flatMap_utf8EncodeChar (cs : List Char) :
    lossyChars (cs.flatMap String.utf8EncodeChar) = cs := by
  induction cs with
  | nil => rw [List.flatMap_nil, lossyChars]
  | cons c cs ih =>
    have hhead := headChar?_utf8EncodeChar c (cs.flatMap String.utf8EncodeChar)
    rw [List.flatMap_cons]
    cases hbytes : String.utf8EncodeChar c ++ cs.flatMap String.utf8EncodeChar with
    | nil => exact absurd (List.append_eq_nil_iff.mp hbytes).1 String.utf8EncodeChar_ne_nil
    | cons b rest =>
      rw [hbytes] at hhead
      rw [lossyChars, hhead, ← hbytes]
      simp only
      rw [← String.length_utf8EncodeChar c, List.drop_left, ih]

/-- Nothing is replaced in a text. -/
theorem decodeLossy_of_fromUTF8? {bytes : ByteArray} {text : String}
    (h : String.fromUTF8? bytes = some text) : decodeLossy bytes = text := by
  have hbytes : bytes = (text.toList.flatMap String.utf8EncodeChar).toByteArray := by
    unfold String.fromUTF8? at h
    split at h
    · cases h
      exact (String.utf8Encode_toList (b := String.fromUTF8 bytes _)).symm
    · cases h
  rw [decodeLossy, hbytes, List.data_toByteArray, List.toList_toArray,
    lossyChars_flatMap_utf8EncodeChar, String.ofList_toList]

end Text

/-! ## The linter -/

namespace Linter

variable {σ ε : Type} (l : Linter) (programs : Programs) (files : FileTree)

/-- The version that the linter says it has.  It is unknown when the linter cannot be run, ends with a
status other than zero or prints none. -/
def probedVersion : String :=
  match programs.run files l.program (l.leading ++ ["--version"]) with
  | .error _ => unknownVersion
  | .ok r =>
    if r.status = 0 then (version? (Text.decodeLossy r.output)).getD unknownVersion
    else unknownVersion

theorem ends_probe (s : σ) :
    (l.probe programs files s : Result σ ε String).ends =
      (.ok (l.probedVersion programs files), s) := by
  unfold probe probedVersion
  cases programs.run files l.program (l.leading ++ ["--version"]) with
  | error cause => rfl
  | ok r =>
    by_cases hstatus : r.status = 0
    · simp only [hstatus, ne_eq, not_true_eq_false, if_false, if_true]
      cases version? (Text.decodeLossy r.output) <;> rfl
    · simp only [hstatus, ne_eq, not_false_eq_true, if_true, if_false]
      rfl

theorem steady_probe {faults : ε → Prop} :
    (l.probe programs files : Procedure σ ε String).Steady faults where
  state s := congrArg Prod.snd (l.ends_probe programs files s)
  fault {s e} he := by
    have houtcome : (l.probe programs files s : Result σ ε String).outcome = .ok _ :=
      congrArg Prod.fst (l.ends_probe programs files s)
    rw [he] at houtcome
    cases houtcome

theorem ends_note (level : Level) (message : String) (s : σ) :
    (note level message s : Result σ ε Unit).ends = (.ok (), s) := rfl

theorem steady_lint (paths : List String) (fix : Bool) :
    (l.lint programs files paths fix : Procedure σ LinterFault String).Steady fun _ => True := by
  refine Procedure.Steady.bind (Procedure.steady_note _ _ _) fun _ => ?_
  cases programs.run files l.program (l.lintArguments paths fix) with
  | error cause => exact Procedure.steady_fail trivial
  | ok r =>
    simp only
    split
    · exact Procedure.Steady.bind (Procedure.steady_note _ _ _) fun _ => Procedure.steady_pure _
    · exact Procedure.steady_pure _

/-- The report of a linter that runs is what it prints. -/
theorem ends_lint {paths : List String} {fix : Bool} {r : ProgramRun}
    (h : programs.run files l.program (l.lintArguments paths fix) = .ok r) (s : σ) :
    (l.lint programs files paths fix s).ends = (.ok (Text.decodeLossy r.output), s) := by
  rw [lint, Procedure.ends_bind_ok (ends_note ..), h]
  simp only
  split <;> rfl

end Linter

end LintRatchet
