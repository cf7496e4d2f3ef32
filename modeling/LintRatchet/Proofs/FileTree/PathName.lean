import LintRatchet.FileTree.PathName
import Mathlib.Data.List.TakeWhile
import Mathlib.Logic.Relation

/-!
# The segments of a parent

The parent of a path name is found by cutting pieces off its end.  What is left
is a beginning of the same text, and its segments are the first segments of the
path name: `segments_parent?` and `exists_append_of_parent?`.

A path name is its head followed by pieces between slashes.  Both facts are
shown on the pieces first, because the head is the only part where slashes and
pieces do not alternate.

The paths *above* a path are the one of its directory and the parents of that.
-/

namespace LintRatchet.PathName

open LintRatchet.Text (split join)

/-- A path, its parent, the parent of that, and so on. -/
abbrev UpFrom : String → String → Prop :=
  Relation.ReflTransGen fun path parent => parent? path = some parent

theorem directory_of_parent? {path parent : String} (h : parent? path = some parent)
    (hne : parent ≠ "") : directory path = parent := by
  unfold directory
  split
  · next hempty =>
    rw [h] at hempty
    cases hempty
    exact absurd rfl hne
  · next other _ hother =>
    rw [h] at hother
    cases hother
    rfl
  · next hnone =>
    rw [h] at hnone
    cases hnone

/-- The path of the directory of something, and the parents of that. -/
def Above (path above : String) : Prop := UpFrom (directory path) above

/-! ## Pieces -/

/-- The pieces of a path name after its head. -/
def pieces (path : List Char) : List (List Char) := split '/' (path.drop (head path).length)

theorem body_eq (path : List Char) : body path = dropVoid (pieces path) := rfl

/-- A path is its head and its pieces. -/
theorem head_append_pieces (path : List Char) : head path ++ join '/' (pieces path) = path := by
  rw [pieces, Text.join_split, head_append]

theorem slash_not_mem_pieces {path : List Char} : ∀ p ∈ pieces path, '/' ∉ p :=
  fun _ hp => Text.not_mem_of_mem_split hp

/-- After a point that is a head a slash follows. -/
theorem first_piece {path : List Char} (h : head path = ['.']) :
    ∀ p ∈ (pieces path).head?, p = [] := by
  intro p hp
  unfold pieces at hp
  unfold head at h hp
  split at h
  · cases h
  · simpa [split, eq_comm] using hp
  · simpa [split, eq_comm] using hp
  · cases h

/-- The pieces that are not empty. -/
def named (ps : List (List Char)) : List (List Char) := ps.filter fun s => !s.isEmpty

/-- The names of two lists are those of the first and then those of the second. -/
theorem named_append (front back : List (List Char)) :
    named (front ++ back) = named front ++ named back :=
  List.filter_append ..

theorem named_split_join {ps : List (List Char)} (h : ∀ p ∈ ps, '/' ∉ p) :
    named (split '/' (join '/' ps)) = named ps := by
  cases ps with
  | nil => rfl
  | cons p ps => rw [Text.split_join (by simp) h]

/-- What a head contributes to the pieces of the whole. -/
def headPieces (front : List Char) : List (List Char) := if front = ['.'] then [['.']] else []

theorem named_split_head {path : List Char} {ps : List (List Char)} (hslash : ∀ p ∈ ps, '/' ∉ p)
    (hfirst : head path = ['.'] → ∀ p ∈ ps.head?, p = []) :
    named (split '/' (head path ++ join '/' ps)) = headPieces (head path) ++ named ps := by
  have hcases : head path = [] ∨ head path = ['/'] ∨ head path = ['.'] := by
    unfold head
    split <;> simp
  rcases hcases with hhead | hhead | hhead
  · rw [hhead]
    exact named_split_join hslash
  · rw [hhead]
    exact named_split_join hslash
  · cases ps with
    | nil =>
      rw [hhead]
      rfl
    | cons p ps =>
      obtain rfl : p = [] := hfirst hhead p rfl
      rw [hhead]
      cases ps with
      | nil => rfl
      | cons q qs =>
        have hrest : named (split '/' (join '/' (q :: qs))) = named (q :: qs) :=
          named_split_join fun x hx => hslash x (List.mem_cons_of_mem _ hx)
        exact congrArg (['.'] :: ·) hrest

/-- The names of a path are those of its head and of its pieces. -/
theorem named_split (path : List Char) :
    named (split '/' path) = headPieces (head path) ++ named (pieces path) := by
  have h := @named_split_head path (pieces path) slash_not_mem_pieces first_piece
  rwa [head_append_pieces] at h

theorem join_prefix {front ps : List (List Char)} (h : front <+: ps) :
    join '/' front <+: join '/' ps := by
  obtain ⟨back, rfl⟩ := h
  induction front with
  | nil => exact List.nil_prefix
  | cons p ps ih =>
    cases ps with
    | nil =>
      cases back with
      | nil => exact List.prefix_rfl
      | cons q qs => exact List.prefix_append p ('/' :: join '/' (q :: qs))
    | cons p' ps' =>
      rw [List.cons_append, Text.join_cons p (by simp), Text.join_cons p (by simp),
        List.prefix_append_right_inj, List.prefix_cons_inj]
      exact ih

/-! ## Cutting pieces off -/

/-- What the name of a parent is made of, where it is not empty. -/
structure IsParent (path parent : List Char) (front back : List (List Char)) : Prop where
  divided : pieces path = front ++ back
  parent : parent = head path ++ join '/' front
  /-- What is cut off names something. -/
  more : named back ≠ []

theorem isParent_of_parentChars? {path parent : List Char} (h : parentChars? path = some parent) :
    parent = [] ∧ head path = ['.'] ∨ ∃ front back, IsParent path parent front back := by
  unfold parentChars? at h
  split at h
  · split at h
    · next hhead =>
      cases h
      exact .inl ⟨rfl, hhead⟩
    · cases h
  · next hbody =>
    cases h
    obtain ⟨tail, htail⟩ := dropVoid_prefix (pieces path)
    obtain ⟨void, hvoid⟩ := dropVoid_prefix (body path).dropLast
    have hlast := List.dropLast_concat_getLast hbody
    have hnamed : isVoid ((body path).getLast hbody) = false :=
      dropVoid_getLast _ _ (List.getLast?_eq_some_getLast hbody)
    refine .inr ⟨dropVoid (body path).dropLast, void ++ ([(body path).getLast hbody] ++ tail),
      ?_, rfl, ?_⟩
    · rw [← List.append_assoc, ← List.append_assoc, hvoid, hlast, body_eq, htail]
    · intro hnone
      have hmem : (body path).getLast hbody ∈
          named (void ++ ([(body path).getLast hbody] ++ tail)) := by
        rw [isVoid, Bool.or_eq_false_iff] at hnamed
        simp [named, hnamed.1]
      rw [hnone] at hmem
      exact List.not_mem_nil hmem

/-- The names of a path are those of its parent and then those that were left out. -/
theorem IsParent.named_eq {path parent : List Char} {front back : List (List Char)}
    (h : IsParent path parent front back) :
    named (split '/' path) = named (split '/' parent) ++ named back := by
  have hslash : ∀ p ∈ front, '/' ∉ p := by
    intro p hp
    have hmem : p ∈ pieces path := by
      rw [h.divided]
      exact List.mem_append_left _ hp
    exact slash_not_mem_pieces p hmem
  have hfirst : head path = ['.'] → ∀ p ∈ front.head?, p = [] := by
    intro hhead p hp
    refine first_piece hhead p ?_
    rw [h.divided]
    cases front with
    | nil => cases hp
    | cons q qs => exact hp
  have hparent := named_split_head hslash hfirst
  rw [← h.parent] at hparent
  rw [named_split, hparent, h.divided, named_append, List.append_assoc]

theorem named_parentChars? {path parent : List Char} (h : parentChars? path = some parent) :
    ∃ rest, rest ≠ [] ∧ named (split '/' path) = named (split '/' parent) ++ rest := by
  rcases isParent_of_parentChars? h with ⟨rfl, hhead⟩ | ⟨front, back, hparent⟩
  · refine ⟨_, ?_, named_split path⟩
    rw [hhead]
    show ['.'] :: _ ≠ []
    exact List.cons_ne_nil ['.'] _
  · exact ⟨named back, hparent.more, hparent.named_eq⟩

theorem prefix_of_parentChars? {path parent : List Char} (h : parentChars? path = some parent) :
    parent <+: path := by
  rcases isParent_of_parentChars? h with ⟨rfl, -⟩ | ⟨front, back, hparent⟩
  · exact List.nil_prefix
  · have hjoin : join '/' front <+: join '/' (pieces path) :=
      join_prefix ⟨back, hparent.divided.symm⟩
    rw [hparent.parent]
    conv => rhs; rw [← head_append_pieces path]
    exact (List.prefix_append_right_inj _).mpr hjoin

/-! ## On strings -/

/-- The segments of a path name are those of its parent and at least one more. -/
theorem segments_parent? {path parent : String} (h : parent? path = some parent) :
    ∃ rest, rest ≠ [] ∧ segments path = segments parent ++ rest := by
  obtain ⟨cs, hcs, rfl⟩ := Option.map_eq_some_iff.mp h
  obtain ⟨rest, hne, hnamed⟩ := named_parentChars? hcs
  refine ⟨rest.map String.ofList, by simpa using hne, ?_⟩
  have hsegments := congrArg (List.map String.ofList) hnamed
  rw [List.map_append] at hsegments
  simpa [segments, named] using hsegments

/-- The name of a parent is a beginning of the path name. -/
theorem exists_append_of_parent? {path parent : String} (h : parent? path = some parent) :
    ∃ rest, path = parent ++ rest := by
  obtain ⟨cs, hcs, rfl⟩ := Option.map_eq_some_iff.mp h
  obtain ⟨rest, hrest⟩ := prefix_of_parentChars? hcs
  refine ⟨String.ofList rest, String.toList_injective ?_⟩
  rw [String.toList_append, String.toList_ofList, String.toList_ofList, hrest]

/-- An empty parent is that of a relative path. -/
theorem head?_ne_slash_of_parent? {path : String} (h : parent? path = some "") :
    path.toList.head? ≠ some '/' := by
  intro hslash
  obtain ⟨cs, hcs, hempty⟩ := Option.map_eq_some_iff.mp h
  obtain rfl : cs = [] := by simpa using hempty
  have hhead : head path.toList = ['/'] := by
    obtain ⟨rest, hrest⟩ := List.head?_eq_some_iff.mp hslash
    rw [hrest]
    rfl
  rcases isParent_of_parentChars? hcs with ⟨-, hpoint⟩ | ⟨front, back, hparent⟩
  · rw [hhead] at hpoint
    cases hpoint
  · have hnil := hparent.parent
    rw [hhead] at hnil
    cases hnil

/-- A path name without segments is one of slashes only. -/
theorem head?_eq_slash_of_segments_eq_nil {path : String} (h : segments path = [])
    (hne : path ≠ "") : path.toList.head? = some '/' := by
  have hnone : named (split '/' path.toList) = [] := List.map_eq_nil_iff.mp h
  cases hp : path.toList with
  | nil => exact absurd (by simpa using hp) hne
  | cons c cs =>
    by_cases hc : c = '/'
    · rw [hc]
      rfl
    · rw [hp] at hnone
      simp only [named, split, hc, if_false] at hnone
      split at hnone <;> simp at hnone

/-- A path name without a parent has no segment that names anything. -/
theorem eq_here_of_parent?_eq_none {path : String} (h : parent? path = none) :
    ∀ s ∈ segments path, s = "." := by
  intro s hs
  have hnone : parentChars? path.toList = none := Option.map_eq_none_iff.mp h
  unfold parentChars? at hnone
  split at hnone
  · next hbody =>
    split at hnone
    · cases hnone
    · next hhead =>
      obtain ⟨piece, hpiece, rfl⟩ := List.mem_map.mp hs
      replace hpiece : piece ∈ named (split '/' path.toList) := hpiece
      rw [named_split, headPieces, if_neg hhead, List.nil_append, named, List.mem_filter] at hpiece
      rw [body_eq, dropVoid, List.reverse_eq_nil_iff, List.dropWhile_eq_nil_iff] at hbody
      have hvoid := hbody piece (List.mem_reverse.mpr hpiece.1)
      rw [isVoid, Bool.or_eq_true] at hvoid
      rcases hvoid with hempty | hpoint
      · rw [hempty] at hpiece
        exact absurd hpiece.2 (by decide)
      · rw [eq_of_beq hpoint]
  · cases hnone

end LintRatchet.PathName
