import LintRatchet.Proofs.Report
import LintRatchet.Proofs.SourcePath

/-!
# Rendered reports

Annotation lines have no escapes, so a finding is found again in its line only
if nothing in it can be taken for a separator.  `Finding.Renderable` lists what
this asks for.  The line of such a finding is read as the finding itself, with
its file in the one spelling (`parse?_render`).

A report that renders findings has their lines in order, with other lines
between them and with line feeds or carriage returns and line feeds at their
ends.  Its files may be written with either kind of separators.  `read_rendered`
says that such a report is read as the findings that it renders, sorted, and that
every candidate is one of them.
-/

namespace LintRatchet

/-! ## The line of a finding -/

/-- Nothing in the finding can be taken for a separator of its annotation line. -/
structure Finding.Renderable (f : Finding) : Prop where
  rule_ne : f.rule ≠ ""
  rule_comma : ',' ∉ f.rule.toList
  rule_newline : '\n' ∉ f.rule.toList
  file_ne : f.file ≠ ""
  file_comma : ',' ∉ f.file.toList
  file_newline : '\n' ∉ f.file.toList
  line_pos : 1 ≤ f.line.toNat
  message_trimmed : Text.Trimmed f.message.toList
  message_newline : '\n' ∉ f.message.toList
  message_colons : ¬"::".toList <:+: f.message.toList
  message_head : f.message.toList.head? ≠ some ':'

/-- A finding whose file is spelled as it is from a working directory. -/
def Finding.located (f : Finding) (cwd : String) : Finding :=
  { f with file := SourcePath.normalize f.file cwd }

namespace ErrorLine

/-- What follows the last `::` of a text stays when something is put in front of it. -/
theorem followsLastColons_append {message : List Char} (h : ¬[':', ':'] <:+: ':' :: message)
    (front : List Char) : FollowsLastColons (front ++ ':' :: ':' :: message) message := by
  induction front with
  | nil => exact followsLastColons_of_not_infix h
  | cons c front ih => exact ih.cons c

namespace Annotation

/-- The annotation whose line is written for a finding. -/
def ofFinding (f : Finding) : Annotation where
  rule := f.rule
  file := f.file
  digits := toString f.line.toNat
  rest := ",endLine=" ++ toString f.line.toNat ++ ",col=1,endColumn=2::" ++ f.message

/-- A rendered finding is the line of an annotation. -/
theorem text_ofFinding (f : Finding) : (ofFinding f).text = render f := by
  unfold text render
  simp only [ofFinding, String.append_assoc]

theorem marker_prefix_text (a : Annotation) : marker <+: a.text.toList := by
  have hliteral : marker <+: "::error title=".toList := by decide +kernel
  rw [text_toList]
  exact hliteral.trans (List.prefix_append _ _)

theorem rest_ofFinding (f : Finding) : (ofFinding f).rest.toList =
    (",endLine=".toList ++ (toString f.line.toNat).toList ++ ",col=1,endColumn=2".toList) ++
      ':' :: ':' :: f.message.toList := by
  have hcolons : ",col=1,endColumn=2::".toList = ",col=1,endColumn=2".toList ++ [':', ':'] := by
    decide +kernel
  simp only [ofFinding, String.toList_append, hcolons, List.append_assoc, List.cons_append,
    List.nil_append]

end Annotation

theorem marker_prefix_render (f : Finding) : marker <+: (render f).toList := by
  rw [← Annotation.text_ofFinding]
  exact Annotation.marker_prefix_text _

end ErrorLine

namespace Finding.Renderable

open ErrorLine Annotation

variable {f : Finding}

/-- The message follows the last `::`, as it has none itself. -/
theorem message_after (h : f.Renderable) :
    FollowsLastColons (ofFinding f).rest.toList f.message.toList := by
  rw [rest_ofFinding]
  refine followsLastColons_append (fun hinfix => ?_) _
  rcases List.infix_cons_iff.mp hinfix with hprefix | hinfix
  · obtain ⟨rest, he⟩ := hprefix
    exact h.message_head (by rw [← (List.cons.inj he).2]; rfl)
  · exact h.message_colons hinfix

/-- The annotation of a renderable finding is well-formed. -/
theorem wellFormed (h : f.Renderable) : (ofFinding f).WellFormed where
  rule_ne := h.rule_ne
  rule_comma := h.rule_comma
  file_ne := h.file_ne
  file_comma := h.file_comma
  digits_ne := toString_ne_empty _
  digits_ascii _ hc := isDigit_of_mem_toString hc
  number_pos := by
    rw [number, ← decimal_eq_ofDigits]
    exact (decimal_toString _).symm ▸ h.line_pos
  number_lt := by
    rw [number, ← decimal_eq_ofDigits]
    exact (decimal_toString _).symm ▸ f.line.toNat_lt
  rest_newline := by
    rw [rest_ofFinding]
    have hdigits : '\n' ∉ (toString f.line.toNat).toList := fun hmem =>
      absurd (isDigit_of_mem_toString hmem) (by decide)
    simp only [List.mem_append, List.mem_cons, not_or]
    exact ⟨⟨⟨by decide +kernel, hdigits⟩, by decide +kernel⟩, by decide, by decide,
      h.message_newline⟩
  rest_head := by
    rw [rest_ofFinding]
    exact .inl rfl
  rest_colons := by
    rw [rest_ofFinding]
    exact colons_infix

/-- The line of a finding is read as the finding, with its file spelled from the working directory. -/
theorem parse?_render (h : f.Renderable) (cwd : String) :
    parse? (render f) cwd = some (f.located cwd) := by
  rw [← text_ofFinding]
  refine parse?_eq_some_iff.mpr ⟨ofFinding f, h.wellFormed, rfl, rfl, rfl, ?_, f.message.toList,
    h.message_after, ?_⟩
  · rw [number, ← decimal_eq_ofDigits]
    exact (decimal_toString _).symm
  · rw [Text.trim_eq_self h.message_trimmed, String.ofList_toList]
    rfl

theorem newline_not_mem (h : f.Renderable) : '\n' ∉ (render f).toList := by
  rw [← text_ofFinding, text_toList]
  have hdigits : '\n' ∉ (ofFinding f).digits.toList := fun hmem =>
    absurd (isDigit_of_mem_toString hmem) (by decide)
  have hrest := h.wellFormed.rest_newline
  have hrule : '\n' ∉ (ofFinding f).rule.toList := h.rule_newline
  have hfile : '\n' ∉ (ofFinding f).file.toList := h.file_newline
  simp only [List.mem_append, not_or]
  exact ⟨by decide +kernel, hrule, by decide +kernel, hfile, by decide +kernel, hdigits, hrest⟩

end Finding.Renderable

/-! ## Either kind of separators -/

namespace SourcePath

theorem mem_of_slashes_eq {c : Char} {path path' : List Char} (h : slashes path = slashes path')
    (hslash : c ≠ '/') (hbackslash : c ≠ '\\') (hmem : c ∈ path) : c ∈ path' := by
  have hkept : c ∈ slashes path := List.mem_map.mpr ⟨c, hmem, if_neg hbackslash⟩
  rw [h] at hkept
  exact (mem_slashes hkept).elim (fun he => absurd he hslash) And.left

theorem withSlashes_withBackslashes (path : String) :
    withSlashes (withBackslashes path) = withSlashes path := by
  rw [withSlashes, withSlashes, withBackslashes, String.toList_ofList, slashes, slashes,
    List.map_map]
  refine congrArg String.ofList (List.map_congr_left fun c _ => ?_)
  by_cases hslash : c = '/'
  · rw [Function.comp_apply, hslash]
    rfl
  · rw [Function.comp_apply, if_neg hslash]

/-- The separators that a path is written with make no difference to its spelling. -/
theorem normalize_of_withSlashes_eq {path path' : String} (h : withSlashes path = withSlashes path')
    (cwd : String) : normalize path cwd = normalize path' cwd := by
  have hslashes : slashes path.toList = slashes path'.toList := String.ofList_injective h
  rw [normalize, normalize, normalizeChars, normalizeChars, hslashes]

end SourcePath

/-- With other slashes in its path a finding can still be rendered. -/
theorem Finding.Renderable.respelled {f : Finding} (h : f.Renderable) {file : String}
    (hfile : SourcePath.withSlashes file = SourcePath.withSlashes f.file) :
    Finding.Renderable { f with file } := by
  have hslashes : SourcePath.slashes file.toList = SourcePath.slashes f.file.toList :=
    String.ofList_injective hfile
  refine { h with file_ne := ?_, file_comma := ?_, file_newline := ?_ }
  · rintro rfl
    exact h.file_ne (String.toList_eq_nil_iff.mp (List.map_eq_nil_iff.mp hslashes.symm))
  · exact mt (SourcePath.mem_of_slashes_eq hslashes (by decide) (by decide)) h.file_comma
  · exact mt (SourcePath.mem_of_slashes_eq hslashes (by decide) (by decide)) h.file_newline

/-! ## Lines of a text -/

namespace Text

/-- A text made of lines.  Each ends in a line feed with or without a carriage return before it, and
the last one need not end in anything. -/
inductive Lined : List (List Char) → List Char → Prop
  | nil : Lined [] []
  | last (line : List Char) : Lined [line] line
  | feed {line text : List Char} {lines : List (List Char)} :
      Lined lines text → Lined (line :: lines) (line ++ '\n' :: text)
  | returnFeed {line text : List Char} {lines : List (List Char)} :
      Lined lines text → Lined (line :: lines) (line ++ '\r' :: '\n' :: text)

/-- A text is cut into its lines again, up to carriage returns and a last empty one. -/
theorem Lined.filter_split {p : List Char → Bool} (hempty : p [] = false)
    {lines : List (List Char)} {text : List Char} (h : Lined lines text)
    (hlines : ∀ line ∈ lines, '\n' ∉ line) :
    ((split '\n' text).map withoutReturns).filter p = (lines.map withoutReturns).filter p := by
  induction h with
  | nil => simp [split, withoutReturns, hempty]
  | last line =>
    rw [split_of_not_mem (hlines line List.mem_cons_self)]
  | @feed line text lines _ ih =>
    obtain ⟨hline, hrest⟩ := List.forall_mem_cons.mp hlines
    rw [split_append hline, List.map_cons, List.map_cons, List.filter_cons, List.filter_cons,
      ih hrest]
  | @returnFeed line text lines _ ih =>
    obtain ⟨hline, hrest⟩ := List.forall_mem_cons.mp hlines
    have hreturn : '\n' ∉ line ++ ['\r'] := by simp [hline]
    have hsplit : split '\n' (line ++ '\r' :: '\n' :: text) =
        (line ++ ['\r']) :: split '\n' text := by
      rw [← split_append hreturn, List.append_assoc, List.singleton_append]
    rw [hsplit, List.map_cons, List.map_cons, withoutReturns_append_return, List.filter_cons,
      List.filter_cons, ih hrest]

end Text

namespace Report

open ErrorLine (marker parseChars? render)

/-- A report is read line by line, however its lines are ended. -/
theorem read_of_lined {text : String} {lines : List (List Char)} (h : Text.Lined lines text.toList)
    (hlines : ∀ line ∈ lines, '\n' ∉ line) (cwd : String) :
    read text cwd =
      let findings := (lines.filter marker.isPrefixOf).filterMap (parseChars? · cwd.toList)
      (Finding.sort findings, ⟨(lines.filter marker.isPrefixOf).length, findings.length⟩) := by
  have hmarker : marker.isPrefixOf ∘ Text.withoutReturns = marker.isPrefixOf :=
    funext ErrorLine.isPrefixOf_withoutReturns
  have hparse : (parseChars? · cwd.toList) ∘ Text.withoutReturns = (parseChars? · cwd.toList) :=
    funext (ErrorLine.parseChars?_withoutReturns cwd.toList)
  have hpresented : presented text = (lines.filter marker.isPrefixOf).map Text.withoutReturns := by
    rw [presented, h.filter_split (by decide) hlines, List.filter_map, hmarker]
  rw [read_eq_presented, hpresented, List.filterMap_map, hparse, List.length_map]

/-! ## Reports that render findings -/

/-- The lines of a report that renders findings: the lines of the findings in order, each with either
kind of separators in its file, and between them other lines without the marker. -/
inductive Rendered : List Finding → List (List Char) → Prop
  | nil : Rendered [] []
  | finding {f : Finding} {file : String} {fs : List Finding} {lines : List (List Char)} :
      SourcePath.withSlashes file = SourcePath.withSlashes f.file → Rendered fs lines →
      Rendered (f :: fs) ((render { f with file }).toList :: lines)
  | other {line : List Char} {fs : List Finding} {lines : List (List Char)} :
      '\n' ∉ line → ¬marker <+: line → Rendered fs lines → Rendered fs (line :: lines)

namespace Rendered

variable {fs : List Finding} {lines : List (List Char)}

theorem newline_not_mem (h : Rendered fs lines) (hfs : ∀ f ∈ fs, f.Renderable) :
    ∀ line ∈ lines, '\n' ∉ line := by
  induction h with
  | nil => exact List.forall_mem_nil _
  | finding hfile _ ih =>
    obtain ⟨hf, hfs⟩ := List.forall_mem_cons.mp hfs
    exact List.forall_mem_cons.mpr ⟨(hf.respelled hfile).newline_not_mem, ih hfs⟩
  | other hline _ _ ih => exact List.forall_mem_cons.mpr ⟨hline, ih hfs⟩

/-- The lines with the marker are those of the findings, and each is read as its finding. -/
theorem map_parse (h : Rendered fs lines) (hfs : ∀ f ∈ fs, f.Renderable) (cwd : String) :
    (lines.filter marker.isPrefixOf).map (parseChars? · cwd.toList) =
      fs.map fun f => some (f.located cwd) := by
  induction h with
  | nil => rfl
  | @finding f file fs lines hfile _ ih =>
    obtain ⟨hf, hfs⟩ := List.forall_mem_cons.mp hfs
    have hmarker : marker.isPrefixOf (render { f with file }).toList = true :=
      List.isPrefixOf_iff_prefix.mpr (ErrorLine.marker_prefix_render _)
    have hread : parseChars? (render { f with file }).toList cwd.toList = some (f.located cwd) := by
      have hlocated : Finding.located { f with file } cwd = f.located cwd := by
        rw [Finding.located, Finding.located, SourcePath.normalize_of_withSlashes_eq hfile]
      exact ((hf.respelled hfile).parse?_render cwd).trans (congrArg some hlocated)
    rw [List.filter_cons_of_pos hmarker, List.map_cons, hread, ih hfs, List.map_cons]
  | @other line fs lines _ hmarker _ ih =>
    rw [List.filter_cons_of_neg (mt List.isPrefixOf_iff_prefix.mp hmarker), ih hfs]

end Rendered

/-- A report that renders findings is read as these findings in canonical order, with each file in
its one spelling from the working directory.  Every finding is a candidate, and none is dropped. -/
theorem read_rendered {cwd text : String} {fs : List Finding} {lines : List (List Char)}
    (hfs : ∀ f ∈ fs, f.Renderable) (hlines : Rendered fs lines)
    (htext : Text.Lined lines text.toList) :
    read text cwd = (Finding.sort (fs.map (·.located cwd)), ⟨fs.length, fs.length⟩) ∧
      (read text cwd).2.dropped = 0 := by
  have hparse := hlines.map_parse hfs cwd
  have hlength : (lines.filter marker.isPrefixOf).length = fs.length := by
    have hlengths := congrArg List.length hparse
    rwa [List.length_map, List.length_map] at hlengths
  have hfindings : (lines.filter marker.isPrefixOf).filterMap (parseChars? · cwd.toList) =
      fs.map (·.located cwd) := by
    have hread := congrArg (List.filterMap id) hparse
    rw [List.filterMap_map, List.filterMap_map] at hread
    exact hread.trans (congrFun List.filterMap_eq_map' fs)
  have hreport : read text cwd =
      (Finding.sort (fs.map (·.located cwd)), ⟨fs.length, fs.length⟩) := by
    rw [read_of_lined htext (hlines.newline_not_mem hfs)]
    simp only [hfindings, hlength, List.length_map]
  exact ⟨hreport, by rw [hreport, Tally.dropped, Nat.sub_self]⟩

/-- One finding reported twice, the first time with backslashes, after another one and a line that
is no annotation. -/
theorem read_rendered_twice :
    let f : Finding := ⟨"lint/eqeq", "./src/b.js", 12, "use === here: a == b"⟩
    let g : Finding := ⟨"lint/var", "/repo/src/a.js", 3, ""⟩
    let cwd := "/repo"
    let summary := "Found 3 errors."
    let text := render g ++ "\n" ++ summary ++ "\r\n" ++
      render { f with file := SourcePath.withBackslashes f.file } ++ "\r\n" ++ render f
    (∃ lines, (∀ h ∈ [g, f, f], h.Renderable) ∧ Rendered [g, f, f] lines ∧
      Text.Lined lines text.toList) ∧
    read text cwd = (Finding.sort ([g, f, f].map (·.located cwd)), ⟨3, 3⟩) ∧
      (read text cwd).2.dropped = 0 := by
  intro f g cwd summary text
  let back : Finding := { f with file := SourcePath.withBackslashes f.file }
  let lines := [(render g).toList, summary.toList, (render back).toList, (render f).toList]
  have hf : f.Renderable := by constructor <;> decide +kernel
  have hg : g.Renderable := by constructor <;> decide +kernel
  have hfs : ∀ h ∈ [g, f, f], h.Renderable := by simp [hf, hg]
  have hlines : Rendered [g, f, f] lines :=
    .finding rfl <| .other (by decide +kernel) (by decide +kernel) <|
      .finding (SourcePath.withSlashes_withBackslashes _) <| .finding rfl .nil
  have hlined : Text.Lined lines ((render g).toList ++ '\n' :: (summary.toList ++ '\r' :: '\n' ::
      ((render back).toList ++ '\r' :: '\n' :: (render f).toList))) :=
    .feed <| .returnFeed <| .returnFeed <| .last _
  have htext : Text.Lined lines text.toList := by
    have hfeed : "\n".toList = ['\n'] := rfl
    have hreturn : "\r\n".toList = ['\r', '\n'] := rfl
    simpa only [text, String.toList_append, hfeed, hreturn, List.append_assoc, List.cons_append,
      List.nil_append] using hlined
  exact ⟨⟨lines, hfs, hlines, htext⟩, read_rendered hfs hlines htext⟩

end Report

end LintRatchet
