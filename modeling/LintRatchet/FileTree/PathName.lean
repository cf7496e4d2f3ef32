import LintRatchet.Text.Split

/-!
# Path names

A path name is the text that names a file.  Its *segments* are what slashes
separate; empty ones and `.` name nothing.  The parent of a path name is the
name of the directory that it names something in.  It is a beginning of the same
text: the parent of `a//b/./c` is `a//b`.

`parent?_length` says that a parent is shorter than its path name.
-/

namespace LintRatchet.PathName

open LintRatchet.Text

/-- A segment that leads nowhere. -/
def isVoid (segment : List Char) : Bool := segment.isEmpty || segment == ['.']

/-- The segments without those at the end that lead nowhere. -/
def dropVoid (segments : List (List Char)) : List (List Char) :=
  (segments.reverse.dropWhile isVoid).reverse

/-- The part of a path name that stands before its first segment: a slash, a single point, or
nothing. -/
def head (path : List Char) : List Char :=
  match path with
  | '/' :: _ => ['/']
  | ['.'] => ['.']
  | '.' :: '/' :: _ => ['.']
  | _ => []

/-- The segments of a path name after its head, without those at the end that lead nowhere. -/
def body (path : List Char) : List (List Char) :=
  dropVoid (split '/' (path.drop (head path).length))

/-- The parent of a path name.  `none` for the root and for the empty name. -/
def parentChars? (path : List Char) : Option (List Char) :=
  if body path = [] then
    if head path = ['.'] then some [] else none
  else some (head path ++ join '/' (dropVoid (body path).dropLast))

/-! ## A parent is shorter -/

/-- Pieces that are added make no text shorter. -/
theorem join_length_append (sep : Char) (front back : List (List Char)) :
    (join sep front).length ≤ (join sep (front ++ back)).length := by
  induction front with
  | nil => simp [join]
  | cons p ps ih =>
    cases ps with
    | nil =>
      cases back with
      | nil => simp
      | cons q qs => simp [join]
    | cons p' ps' =>
      have hr : p :: p' :: ps' ++ back = p :: (p' :: ps' ++ back) := rfl
      rw [hr, join_cons p (List.cons_ne_nil p' ps'), join_cons p (by simp)]
      simp only [List.length_append, List.length_cons]
      omega

theorem dropVoid_prefix (segments : List (List Char)) : dropVoid segments <+: segments := by
  have h : segments.reverse.dropWhile isVoid <:+ segments.reverse := List.dropWhile_suffix _
  obtain ⟨front, hf⟩ := h
  refine ⟨front.reverse, ?_⟩
  have := congrArg List.reverse hf
  simpa [dropVoid] using this

theorem join_dropVoid_length (sep : Char) (segments : List (List Char)) :
    (join sep (dropVoid segments)).length ≤ (join sep segments).length := by
  obtain ⟨back, hb⟩ := dropVoid_prefix segments
  have := join_length_append sep (dropVoid segments) back
  rwa [hb] at this

theorem head_append (path : List Char) : head path ++ path.drop (head path).length = path := by
  unfold head
  split <;> simp

theorem join_dropLast_length {segments : List (List Char)} (h : segments ≠ [])
    (hv : ∀ s ∈ segments.getLast?, isVoid s = false) :
    (join '/' segments.dropLast).length < (join '/' segments).length := by
  induction segments with
  | nil => exact absurd rfl h
  | cons s ss ih =>
    cases ss with
    | nil =>
      have := hv s (by simp)
      cases s with
      | nil => simp [isVoid] at this
      | cons c cs => simp [join]
    | cons t ts =>
      have hrec := ih (by simp) (by simpa using hv)
      rw [join_cons _ (by simp)]
      cases ts with
      | nil => simp [join]
      | cons u us =>
        rw [List.dropLast_cons_of_ne_nil (by simp), join_cons _ (by simp)]
        simp only [List.length_append, List.length_cons]
        omega

theorem dropVoid_getLast (segments : List (List Char)) :
    ∀ s ∈ (dropVoid segments).getLast?, isVoid s = false := by
  intro s hs
  unfold dropVoid at hs
  rw [List.getLast?_reverse] at hs
  generalize segments.reverse = r at hs
  induction r with
  | nil => simp at hs
  | cons c r ih =>
    cases hc : isVoid c with
    | true => exact ih (by simpa [List.dropWhile, hc] using hs)
    | false =>
      simp only [List.dropWhile, hc, List.head?_cons, Option.mem_def, Option.some.injEq] at hs
      rwa [← hs]

/-- A parent is shorter than its path. -/
theorem parentChars?_length {path parent : List Char} (h : parentChars? path = some parent) :
    parent.length < path.length := by
  have hp : path.length = (head path).length + (path.drop (head path).length).length := by
    have := congrArg List.length (head_append path)
    simpa using this.symm
  unfold parentChars? at h
  split at h
  · split at h
    · next hh =>
      simp only [Option.some.injEq] at h
      rw [← h, hp, hh]
      simp only [List.length_nil, List.length_singleton]
      omega
    · exact absurd h (by simp)
  · next hb =>
    simp only [Option.some.injEq] at h
    have h1 := join_dropVoid_length '/' (body path).dropLast
    have h2 := join_dropLast_length hb (dropVoid_getLast _)
    have h3 := join_dropVoid_length '/' (split '/' (path.drop (head path).length))
    rw [join_split] at h3
    rw [← h, List.length_append, hp]
    unfold body at h1 h2 ⊢
    omega

/-! ## On strings -/

/-- The parent of a path name.  `none` for the root and for the empty name. -/
def parent? (path : String) : Option String := (parentChars? path.toList).map String.ofList

theorem parent?_length {path parent : String} (h : parent? path = some parent) :
    parent.length < path.length := by
  obtain ⟨cs, hcs, rfl⟩ := Option.map_eq_some_iff.1 h
  simpa [String.length_ofList, ← String.length_toList] using parentChars?_length hcs

/-- The name of the directory that a path name names something in: `.` when it does not say. -/
def directory (path : String) : String :=
  match parent? path with
  | some "" => "."
  | some parent => parent
  | none => "."

/-- The segments along which one has to go, without those that are empty. -/
def segments (path : String) : List String :=
  ((split '/' path.toList).filter fun s => !s.isEmpty).map String.ofList

end LintRatchet.PathName
