/-!
# Lines

A text is cut into lines at every line feed.  A carriage return right before
the line feed belongs to the line end, one elsewhere belongs to the line.  A
text that ends in a line feed has no further, empty line after it.
-/

namespace LintRatchet.Text

/-- A line without the carriage return that precedes its line feed. -/
def dropReturn (line : List Char) : List Char :=
  if line.getLast? = some '\r' then line.dropLast else line

/-- The lines of a text.  A last line without a line feed is taken as it stands. -/
def lines (cs : List Char) : List (List Char) :=
  match _h : cs.dropWhile (· != '\n') with
  | [] => if cs.isEmpty then [] else [cs]
  | _ :: rest => dropReturn (cs.takeWhile (· != '\n')) :: lines rest
termination_by cs.length
decreasing_by
  have h2 : (cs.dropWhile (· != '\n')).length ≤ cs.length :=
    (List.dropWhile_suffix _).length_le
  rw [_h] at h2
  simp only [List.length_cons] at h2
  omega

/-! ## How the lines arise -/

@[simp] theorem lines_nil : lines [] = [] := by
  rw [lines]; simp

theorem takeWhile_append_newline {l : List Char} (h : '\n' ∉ l) (r : List Char) :
    (l ++ '\n' :: r).takeWhile (· != '\n') = l ∧
      (l ++ '\n' :: r).dropWhile (· != '\n') = '\n' :: r := by
  induction l with
  | nil => simp
  | cons c l ih =>
    simp only [List.mem_cons, not_or] at h
    obtain ⟨ih1, ih2⟩ := ih h.2
    have hc : (c != '\n') = true := by simpa using Ne.symm h.1
    simp [hc, ih1, ih2]

/-- A line feed ends a line. -/
theorem lines_append_newline {l : List Char} (h : '\n' ∉ l) (r : List Char) :
    lines (l ++ '\n' :: r) = dropReturn l :: lines r := by
  obtain ⟨h1, h2⟩ := takeWhile_append_newline h r
  rw [lines]
  split
  · next he => rw [h2] at he; exact absurd he (by simp)
  · next he =>
    rw [h2] at he
    simp only [List.cons.injEq] at he
    rw [h1, he.2]

/-- A text without a line feed is one line. -/
theorem lines_of_not_mem {l : List Char} (h : '\n' ∉ l) (hne : l ≠ []) : lines l = [l] := by
  have hd : ∀ {m : List Char}, '\n' ∉ m → m.dropWhile (· != '\n') = [] := by
    intro m hm
    induction m with
    | nil => rfl
    | cons c m ih =>
      simp only [List.mem_cons, not_or] at hm
      have hc : (c != '\n') = true := by simpa using Ne.symm hm.1
      simp [hc, ih hm.2]
  rw [lines]
  split
  · simp [hne]
  · next he => rw [hd h] at he; exact absurd he (by simp)

/-- A text is empty, a last line, or a line with a line feed and a text after it. -/
@[elab_as_elim]
theorem lines_induction {motive : List Char → Prop} (text : List Char) (empty : motive [])
    (last : ∀ line, '\n' ∉ line → line ≠ [] → motive line)
    (more : ∀ line rest, '\n' ∉ line → motive rest → motive (line ++ '\n' :: rest)) :
    motive text := by
  by_cases h : '\n' ∈ text
  · obtain ⟨line, rest, rfl, hline⟩ := List.eq_append_cons_of_mem h
    exact more line rest hline (lines_induction rest empty last more)
  · by_cases hne : text = []
    · rw [hne]
      exact empty
    · exact last text h hne
termination_by text.length
decreasing_by
  subst text
  simp only [List.length_append, List.length_cons]
  omega

end LintRatchet.Text
