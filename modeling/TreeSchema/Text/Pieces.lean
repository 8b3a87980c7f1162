/-!
# Texts in pieces

A text is cut into the pieces between its separators. There is always one piece more than there are
separators, and joining the pieces again gives the text (`join_pieces`).
-/

namespace TreeSchema.Text

/-- The pieces of a text between the separators. -/
def pieces (sep : Char) : List Char → List (List Char)
  | [] => [[]]
  | c :: cs =>
    if c = sep then [] :: pieces sep cs
    else
      match pieces sep cs with
      | [] => [[c]]
      | p :: ps => (c :: p) :: ps

/-- A text without separators is one piece. -/
theorem pieces_ne_nil (sep : Char) (cs : List Char) : pieces sep cs ≠ [] := by
  cases cs with
  | nil => simp [pieces]
  | cons c cs =>
    simp only [pieces]
    split
    · simp
    · split <;> simp

/-- The pieces joined by the separator give the text. -/
theorem join_pieces (sep : Char) (cs : List Char) : [sep].intercalate (pieces sep cs) = cs := by
  induction cs with
  | nil => simp [pieces]
  | cons c cs ih =>
    simp only [pieces]
    split
    · rename_i h
      subst h
      cases hp : pieces c cs with
      | nil => exact absurd hp (pieces_ne_nil c cs)
      | cons p ps =>
        rw [hp] at ih
        simp only [List.intercalate_cons_cons, List.nil_append, ih, List.singleton_append]
    · cases hp : pieces sep cs with
      | nil => exact absurd hp (pieces_ne_nil sep cs)
      | cons p ps =>
        rw [hp] at ih
        cases ps with
        | nil => simp_all
        | cons q qs =>
          simp only [List.intercalate_cons_cons, List.append_assoc] at ih ⊢
          rw [List.cons_append, ih]

end TreeSchema.Text
