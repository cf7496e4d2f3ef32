import LintRatchet.Proofs.Document.Baseline
import LintRatchet.Proofs.Json.Gathering
import LintRatchet.Proofs.Json.Tree

/-!
# Baselines written by hand

A baseline file may come from an older version or from an editor.  Its members
may stand in any order, with any blank text and any spelling of the characters,
and there may be members that a baseline does not have.  The same goes for each
of its findings.

Main statement: such a text is decoded as the baseline whose fields it has, and
what is written for that baseline has none of the other members
(`Baseline.decode_handEdited`).

The name of a member that is passed over has to be a text as well, because it is
compared with the names of the fields.  So a surrogate may stand alone in the
value of such a member, but not in its name (`decode_lone_surrogate`).
-/

namespace LintRatchet

open LintRatchet.Json

/-! ## The texts of a finding and of a baseline -/

/-- The fields of a finding and the texts of their values. -/
def Finding.fieldTexts (f : Finding) : List FieldText := [
  ⟨"rule", StringText f.rule⟩,
  ⟨"file", StringText f.file⟩,
  ⟨"line", fun text => text = Nat.toDigits 10 f.line.toNat⟩,
  ⟨"message", StringText f.message⟩]

/-- The text is a finding, written in whatever way. -/
def Finding.IsText (f : Finding) : List Char → Prop := RecordText f.fieldTexts

/-- The texts of the fields of a baseline. -/
def Baseline.fieldTexts (b : Baseline) : List FieldText := [
  ⟨"biomeVersion", StringText b.linterVersion⟩,
  ⟨"fingerprints", ListText StringText b.fingerprints⟩,
  ⟨"errors", ListText Finding.IsText b.errors⟩]

/-- The text is a baseline, written in whatever way. -/
def Baseline.IsText (b : Baseline) : List Char → Prop := RecordText b.fieldTexts

/-! ## Reading them -/

/-- The draft of a finding that has the named fields. -/
def Finding.drafted (f : Finding) (seen : List String) : Finding.Draft where
  rule := if "rule" ∈ seen then some f.rule else none
  file := if "file" ∈ seen then some f.file else none
  line := if "line" ∈ seen then some f.line else none
  message := if "message" ∈ seen then some f.message else none

/-- Each field of a finding has a slot, which puts what it reads into the draft. -/
theorem Finding.gathers (f : Finding) : Gathers Finding.slots f.fieldTexts f.drafted where
  field field hfield seen text hseen htext := by
    simp only [fieldTexts, List.mem_cons, List.not_mem_nil, or_false] at hfield
    rcases hfield with rfl | rfl | rfl | rfl
    · exact exists_slotReads rfl (if_neg hseen) htext.readText (by simp [drafted])
    · exact exists_slotReads rfl (if_neg hseen) htext.readText (by simp [drafted])
    · obtain rfl : text = _ := htext
      exact exists_slotReads rfl (if_neg hseen) (reads_count f.line) (by simp [drafted])
    · exact exists_slotReads rfl (if_neg hseen) htext.readText (by simp [drafted])
  other hname seen := by
    simp only [fieldTexts, List.map_cons, List.map_nil, List.mem_cons, not_or] at hname
    obtain ⟨hrule, hfile, hline, hmessage, -⟩ := hname
    simp [slots, slot, drafted, Ne.symm hrule, Ne.symm hfile, Ne.symm hline, Ne.symm hmessage]

/-- A finding is read from each of its texts. -/
theorem Finding.IsText.read {f : Finding} {text : List Char} (h : f.IsText text) :
    Reads Finding.read text f := by
  refine h.readRecord f.gathers (List.cons_ne_nil _ _) fun seen hseen => ?_
  simp only [fieldTexts, List.forall_mem_cons] at hseen
  obtain ⟨hrule, hfile, hline, hmessage, -⟩ := hseen
  simp only [drafted, hrule, hfile, hline, hmessage, if_true]
  rfl

/-- The draft of a baseline that has the named fields. -/
def Baseline.drafted (b : Baseline) (seen : List String) : Baseline.Draft where
  linterVersion := if "biomeVersion" ∈ seen then some b.linterVersion else none
  fingerprints := if "fingerprints" ∈ seen then some b.fingerprints else none
  errors := if "errors" ∈ seen then some b.errors else none

theorem Baseline.gathers (b : Baseline) : Gathers Baseline.slots b.fieldTexts b.drafted where
  field field hfield seen text hseen htext := by
    simp only [fieldTexts, List.mem_cons, List.not_mem_nil, or_false] at hfield
    rcases hfield with rfl | rfl | rfl
    · exact exists_slotReads rfl (if_neg hseen) htext.readText (by simp [drafted])
    · exact exists_slotReads rfl (if_neg hseen) (htext.readArray StringText.readText)
        (by simp [drafted])
    · exact exists_slotReads rfl (if_neg hseen) (htext.readArray Finding.IsText.read)
        (by simp [drafted])
  other hname seen := by
    simp only [fieldTexts, List.map_cons, List.map_nil, List.mem_cons, not_or] at hname
    obtain ⟨hversion, hfingerprints, herrors, -⟩ := hname
    simp [slots, slot, drafted, Ne.symm hversion, Ne.symm hfingerprints, Ne.symm herrors]

/-- A baseline is read from each of its texts. -/
theorem Baseline.IsText.read {b : Baseline} {text : List Char} (h : b.IsText text) :
    Reads Baseline.read text b := by
  refine h.readRecord b.gathers (List.cons_ne_nil _ _) fun seen hseen => ?_
  simp only [fieldTexts, List.forall_mem_cons] at hseen
  obtain ⟨hversion, hfingerprints, herrors, -⟩ := hseen
  simp only [drafted, hversion, hfingerprints, herrors, if_true]
  rfl

/-! ## What is written for a baseline -/

/-- The text is an object with the members of a baseline only, and its findings have the members of
a finding only. -/
def HasOwnMembers (text : String) : Prop :=
  ∃ members errors, readAll (readValue 3) text = .ok (.object members) ∧
    members.map Prod.fst = ["biomeVersion", "fingerprints", "errors"] ∧
    members.lookup "errors" = some (.array errors) ∧
    ∀ e ∈ errors, ∃ own, e = .object own ∧ own.map Prod.fst = ["rule", "file", "line", "message"]

theorem Finding.fits_toValue (f : Finding) : f.toValue.Fits 1 := by
  refine .object fun m hm => ?_
  simp only [List.mem_cons, List.not_mem_nil, or_false] at hm
  rcases hm with rfl | rfl | rfl | rfl
  · exact .text _
  · exact .text _
  · exact .count _
  · exact .text _

theorem Baseline.fits_toValue (b : Baseline) : b.toValue.Fits 3 := by
  refine .object fun m hm => ?_
  simp only [List.mem_cons, List.not_mem_nil, or_false] at hm
  rcases hm with rfl | rfl | rfl
  · exact .text _
  · refine .array fun v hv => ?_
    obtain ⟨s, -, rfl⟩ := List.mem_map.mp hv
    exact .text s
  · refine .array fun v hv => ?_
    obtain ⟨f, -, rfl⟩ := List.mem_map.mp hv
    exact f.fits_toValue

/-- A baseline is written with its own members only. -/
theorem Baseline.hasOwnMembers (b : Baseline) :
    HasOwnMembers b.toValue.compact ∧ HasOwnMembers b.render := by
  have herrors : ∀ e ∈ b.errors.map Finding.toValue,
      ∃ own, e = .object own ∧ own.map Prod.fst = ["rule", "file", "line", "message"] := by
    intro e he
    obtain ⟨f, -, rfl⟩ := List.mem_map.mp he
    exact ⟨_, rfl, rfl⟩
  have hcompact := (b.fits_toValue.written Layout.isBlank_compact).readAll.1
  have hpretty := (b.fits_toValue.written Layout.isBlank_pretty).readAll.2
  exact ⟨⟨_, _, hcompact, rfl, rfl, herrors⟩, ⟨_, _, hpretty, rfl, rfl, herrors⟩⟩

/-- Every text of a baseline is decoded as that baseline, with blank text around it, and what is
written for it again has no other members. -/
theorem Baseline.decode_handEdited {b : Baseline} {gap text gap' : List Char}
    (h : b.IsText text) (hg : Blank gap) (hg' : Blank gap') :
    Baseline.decode (String.ofList (gap ++ (text ++ gap'))) = .ok b ∧
      HasOwnMembers b.toValue.compact ∧ HasOwnMembers b.render :=
  ⟨h.read.readAll hg hg', b.hasOwnMembers⟩

/-! ## Two texts -/

/-- An item without blank text. -/
def tightItem (value : List Char) : ItemText where
  before := []
  value := value
  after := []
  blank_before := blank_nil
  blank_after := blank_nil

/-- A member without blank text. -/
def tight (name : String) (value : List Char) : MemberText where
  before := []
  name := name.toList
  beforeColon := []
  afterColon := []
  value := value
  after := []
  blank_before := blank_nil
  blank_beforeColon := blank_nil
  blank_afterColon := blank_nil
  blank_after := blank_nil

/-- A text that needs no escape may stand between quotes as it is. -/
theorem stringText_self {s : String}
    (h : (s.toList.all fun c => c ≠ '"' && c ≠ '\\' && 0x20 ≤ c.toNat) = true) :
    StringText s ('"' :: (s.toList ++ ['"'])) :=
  .mk (spelling_self h)

/-- An object with a number in scientific notation, half of a surrogate pair and an object that is
empty. -/
theorem isValue_nested : IsValue "\x7b\"v\":[1e5,\"\\ud800\",\x7b\x7d]\x7d".toList := by
  have hnumber : IsValue "1e5".toList :=
    .number (@IsNumber.mk [] ['1'] [] ['e', '5'] (.inl rfl)
      (.digits ⟨nofun, by simp⟩ nofun) .absent
      (@IsExponent.digits 'e' [] ['5'] (.inl rfl) (.inl rfl) ⟨nofun, by simp⟩))
  have hsurrogate : IsValue "\"\\ud800\"".toList :=
    .string (.number (@Hex4.mk 'd' '8' '0' '0' 13 8 0 0 rfl rfl rfl rfl) .nil)
  have hempty : IsValue "\x7b\x7d".toList := .emptyObject blank_nil
  have harray : IsValue "[1e5,\"\\ud800\",\x7b\x7d]".toList :=
    @IsValue.array [tightItem "1e5".toList, tightItem "\"\\ud800\"".toList,
      tightItem "\x7b\x7d".toList] nofun (by
        simp only [List.forall_mem_cons]
        exact ⟨hnumber, hsurrogate, hempty, nofun⟩)
  exact @IsValue.object [tight "v" "[1e5,\"\\ud800\",\x7b\x7d]".toList] nofun
    (by
      simp only [List.forall_mem_cons]
      exact ⟨.plain (by decide) (by decide) (by decide) .nil, nofun⟩)
    (by
      simp only [List.forall_mem_cons]
      exact ⟨harray, nofun⟩)

/-- A finding with another member, the fields in another order, and an escape that is not needed. -/
def editedFinding : List (String × MemberText) := [
  ("line", tight "line" "3".toList),
  ("note", tight "note" "null".toList),
  ("rule", tight "rule" "\"no-var\"".toList),
  ("file", tight "file" "\"a.js\"".toList),
  ("message", tight "message" "\"\\u006fld\"".toList)]

theorem Finding.isText_edited :
    Finding.IsText ⟨"no-var", "a.js", 3, "old"⟩
      ('\x7b' :: membersText (editedFinding.map Prod.snd)) := by
  have hold : Spelling "\\u006fld".toList "old".toList :=
    .number (@Hex4.mk '0' '0' '6' 'f' 0 0 6 15 rfl rfl rfl rfl) (by decide) (spelling_self rfl)
  refine .mk ?_ ?_ ?_
  · simp only [editedFinding, List.forall_mem_cons]
    exact ⟨spelling_self rfl, spelling_self rfl, spelling_self rfl, spelling_self rfl,
      spelling_self rfl, nofun⟩
  · simp only [fieldTexts, List.forall_mem_cons]
    exact ⟨⟨_, rfl, stringText_self rfl⟩, ⟨_, rfl, stringText_self rfl⟩, ⟨_, rfl, rfl⟩,
      ⟨_, rfl, .mk hold⟩, nofun⟩
  · simp only [editedFinding, List.forall_mem_cons, fieldTexts, List.map_cons, List.map_nil]
    exact ⟨fun h => absurd (by decide) h, fun _ => .null, fun h => absurd (by decide) h,
      fun h => absurd (by decide) h, fun h => absurd (by decide) h, nofun⟩

/-- A baseline with that finding and a member that it does not have, which is there repeatedly. -/
def editedBaseline : List (String × MemberText) := [
  ("tool", tight "tool" "\x7b\"v\":[1e5,\"\\ud800\",\x7b\x7d]\x7d".toList),
  ("errors", tight "errors"
    ('[' :: itemsText [tightItem ('\x7b' :: membersText (editedFinding.map Prod.snd))])),
  ("biomeVersion", {
    before := [' ']
    name := "\\u0062iomeVersion".toList
    beforeColon := [' ']
    afterColon := [' ']
    value := "\"1.9\"".toList
    after := []
    blank_before := blank_cons rfl blank_nil
    blank_beforeColon := blank_cons rfl blank_nil
    blank_afterColon := blank_cons rfl blank_nil
    blank_after := blank_nil }),
  ("tool", tight "tool" "null".toList),
  ("fingerprints", tight "fingerprints" "[ ]".toList)]

theorem Baseline.isText_edited :
    Baseline.IsText ⟨"1.9", [], [⟨"no-var", "a.js", 3, "old"⟩]⟩
      ('\x7b' :: membersText (editedBaseline.map Prod.snd)) := by
  have hversion : Spelling "\\u0062iomeVersion".toList "biomeVersion".toList :=
    .number (@Hex4.mk '0' '0' '6' '2' 0 0 6 2 rfl rfl rfl rfl) (by decide) (spelling_self rfl)
  refine .mk ?_ ?_ ?_
  · simp only [editedBaseline, List.forall_mem_cons]
    exact ⟨spelling_self rfl, spelling_self rfl, hversion, spelling_self rfl, spelling_self rfl,
      nofun⟩
  · simp only [fieldTexts, List.forall_mem_cons]
    exact ⟨⟨_, rfl, stringText_self rfl⟩, ⟨_, rfl, @ListText.empty _ _ [' '] (blank_cons rfl blank_nil)⟩,
      ⟨_, rfl, .items nofun (.cons Finding.isText_edited .nil)⟩, nofun⟩
  · simp only [editedBaseline, List.forall_mem_cons, fieldTexts, List.map_cons, List.map_nil]
    exact ⟨fun _ => isValue_nested, fun h => absurd (by decide) h, fun h => absurd (by decide) h,
      fun _ => .null, fun h => absurd (by decide) h, nofun⟩

/-- The text of that baseline, as it stands in a file. -/
theorem Baseline.decode_edited :
    let b : Baseline := ⟨"1.9", [], [⟨"no-var", "a.js", 3, "old"⟩]⟩
    let text := "\x7b\"tool\":\x7b\"v\":[1e5,\"\\ud800\",\x7b\x7d]\x7d,\"errors\":[\x7b" ++
      "\"line\":3,\"note\":null,\"rule\":\"no-var\",\"file\":\"a.js\",\"message\":" ++
      "\"\\u006fld\"\x7d], \"\\u0062iomeVersion\" : \"1.9\",\"tool\":null," ++
      "\"fingerprints\":[ ]\x7d"
    b.IsText text.toList ∧
      Baseline.decode (String.ofList ([' ', '\n'] ++ (text.toList ++ ['\n']))) = .ok b ∧
      HasOwnMembers b.toValue.compact ∧ HasOwnMembers b.render := by
  intro b text
  have htext : text.toList = '\x7b' :: membersText (editedBaseline.map Prod.snd) := by
    decide +kernel
  have hend : Blank ['\n'] := blank_cons rfl blank_nil
  rw [htext]
  exact ⟨isText_edited, Baseline.decode_handEdited isText_edited (blank_cons rfl hend) hend⟩

/-- The members of a baseline without findings. -/
def ownMembers : List (String × MemberText) := [
  ("biomeVersion", tight "biomeVersion" "\"1\"".toList),
  ("fingerprints", tight "fingerprints" "[]".toList),
  ("errors", tight "errors" "[]".toList)]

/-- A member whose name is half of a surrogate pair. -/
def surrogateMember : MemberText := tight "\\ud800" "0".toList

/-- Such a member is one of the grammar, but it is not passed over. -/
theorem Baseline.decode_lone_surrogate :
    Baseline.IsText ⟨"1", [], []⟩ ('\x7b' :: membersText (ownMembers.map Prod.snd)) ∧
      StringBody surrogateMember.name ∧ IsValue surrogateMember.value ∧
      Baseline.decode
          (String.ofList ('\x7b' :: membersText (ownMembers.map Prod.snd ++ [surrogateMember]))) =
        .error .malformed := by
  refine ⟨.mk ?_ ?_ ?_, ?_, ?_, ?_⟩
  · simp only [ownMembers, List.forall_mem_cons]
    exact ⟨spelling_self rfl, spelling_self rfl, spelling_self rfl, nofun⟩
  · simp only [fieldTexts, List.forall_mem_cons]
    exact ⟨⟨_, rfl, stringText_self rfl⟩, ⟨_, rfl, .empty blank_nil⟩, ⟨_, rfl, .empty blank_nil⟩,
      nofun⟩
  · simp only [ownMembers, List.forall_mem_cons, fieldTexts, List.map_cons, List.map_nil]
    exact ⟨fun h => absurd (by decide) h, fun h => absurd (by decide) h,
      fun h => absurd (by decide) h, nofun⟩
  · exact .number (@Hex4.mk 'd' '8' '0' '0' 13 8 0 0 rfl rfl rfl rfl) .nil
  · exact .number (@IsNumber.mk [] ['0'] [] [] (.inl rfl) .zero .absent .absent)
  · decide +kernel

end LintRatchet
