/-!
# Splitting and joining at a character

`split sep cs` cuts a text at every occurrence of one character and keeps the
empty pieces.  `join` is its inverse: `join_split` puts the pieces together
again, and `split_join` finds back pieces that do not contain the character.
-/

namespace LintRatchet.Text

/-- The pieces between the occurrences of a character.  There is always at least one. -/
def split (sep : Char) : List Char → List (List Char)
  | [] => [[]]
  | c :: cs =>
    if c = sep then [] :: split sep cs
    else
      match split sep cs with
      | [] => [[c]]
      | piece :: pieces => (c :: piece) :: pieces

/-- The pieces with the character between each two of them. -/
def join (sep : Char) : List (List Char) → List Char
  | [] => []
  | [piece] => piece
  | piece :: next :: pieces => piece ++ sep :: join sep (next :: pieces)

/-! ## The two are inverse -/

theorem split_ne_nil (sep : Char) (cs : List Char) : split sep cs ≠ [] := by
  cases cs with
  | nil => simp [split]
  | cons c cs =>
    simp only [split]
    split
    · simp
    · split <;> simp

theorem join_cons {sep : Char} (piece : List Char) {pieces : List (List Char)}
    (h : pieces ≠ []) : join sep (piece :: pieces) = piece ++ sep :: join sep pieces := by
  cases pieces with
  | nil => exact absurd rfl h
  | cons p ps => rfl

/-- The pieces of a text make it up again. -/
theorem join_split (sep : Char) (cs : List Char) : join sep (split sep cs) = cs := by
  induction cs with
  | nil => rfl
  | cons c cs ih =>
    simp only [split]
    split
    · next hc => rw [join_cons _ (split_ne_nil sep cs), ih, hc]; rfl
    · split
      · next hs => exact absurd hs (split_ne_nil sep cs)
      · next piece pieces hs =>
        rw [hs] at ih
        cases pieces with
        | nil => simpa [join] using ih
        | cons p ps => rw [join_cons _ (by simp)] at ih ⊢; simp [ih]

theorem split_of_not_mem {sep : Char} {piece : List Char} (h : sep ∉ piece) :
    split sep piece = [piece] := by
  induction piece with
  | nil => rfl
  | cons c cs ih =>
    simp only [List.mem_cons, not_or] at h
    simp [split, Ne.symm h.1, ih h.2]

/-- A text without the separator ends at the first one. -/
theorem split_append {sep : Char} {piece : List Char} (h : sep ∉ piece) (rest : List Char) :
    split sep (piece ++ sep :: rest) = piece :: split sep rest := by
  induction piece with
  | nil => simp [split]
  | cons c cs ih =>
    simp only [List.mem_cons, not_or] at h
    simp [split, Ne.symm h.1, ih h.2]

/-- Pieces without the separator can be told apart again. -/
theorem split_join {sep : Char} {pieces : List (List Char)} (hne : pieces ≠ [])
    (h : ∀ p ∈ pieces, sep ∉ p) : split sep (join sep pieces) = pieces := by
  induction pieces with
  | nil => exact absurd rfl hne
  | cons p ps ih =>
    cases ps with
    | nil => exact split_of_not_mem (h p (by simp))
    | cons q qs =>
      rw [join_cons _ (by simp), split_append (h p (by simp)),
        ih (by simp) (fun x hx => h x (by simp [hx]))]

/-- No piece contains the character at which the text was cut. -/
theorem not_mem_of_mem_split {sep : Char} {cs piece : List Char} (h : piece ∈ split sep cs) :
    sep ∉ piece := by
  induction cs generalizing piece with
  | nil => simp_all [split]
  | cons c cs ih =>
    simp only [split] at h
    split at h
    · rcases List.mem_cons.1 h with rfl | h
      · simp
      · exact ih h
    · next hc =>
      split at h
      · simp only [List.mem_singleton] at h
        simp [h, Ne.symm hc]
      · next first others hs =>
        rw [hs] at ih
        rcases List.mem_cons.1 h with rfl | h
        · simp [Ne.symm hc, ih List.mem_cons_self]
        · exact ih (List.mem_cons_of_mem _ h)

end LintRatchet.Text
