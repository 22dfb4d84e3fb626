/-!
# Separated text

Text cut at a separator: into all its pieces (`pieces`), or into the part before the first separator
and the part after it (`cut?`). Joining the pieces with the separator gives the text back.
-/
namespace Fulfilment.Text

/-- The pieces between separators; there is always one more piece than separators. -/
def pieces (separator : Char) : List Char → List (List Char)
  | [] => [[]]
  | c :: cs =>
    if c = separator then [] :: pieces separator cs
    else
      match pieces separator cs with
      | p :: ps => (c :: p) :: ps
      | [] => [[c]]

/-- The parts before and after the first separator, if there is one. -/
def cut? (separator : Char) : List Char → Option (List Char × List Char)
  | [] => none
  | c :: cs =>
    if c = separator then some ([], cs) else (cut? separator cs).map fun (a, b) => (c :: a, b)

theorem pieces_ne_nil (separator : Char) (cs : List Char) : pieces separator cs ≠ [] := by
  fun_cases pieces separator cs <;> simp_all

/-- Joining the pieces gives the text back. -/
theorem intercalate_pieces (separator : Char) (cs : List Char) :
    [separator].intercalate (pieces separator cs) = cs := by
  fun_induction pieces separator cs with
  | case1 => rfl
  | case2 cs ih =>
    cases h : pieces separator cs with
    | nil => exact absurd h (pieces_ne_nil separator cs)
    | cons p ps => simpa [h, List.intercalate] using ih
  | case3 c cs hc p ps h ih =>
    rw [h] at ih
    cases ps <;> simp_all [List.intercalate]
  | case4 c cs hc h => exact absurd h (pieces_ne_nil separator cs)

/-- The pieces are those of the core library's split. -/
theorem pieces_eq_splitOn (separator : Char) (cs : List Char) :
    pieces separator cs = cs.splitOn separator := by
  fun_induction pieces separator cs with
  | case1 => rfl
  | case2 cs ih => simp [List.splitOn_cons_eq_if_modifyHead, ih]
  | case3 c cs hc p ps h ih => simp [List.splitOn_cons_eq_if_modifyHead, hc, ← ih, h]
  | case4 c cs hc h => exact absurd h (pieces_ne_nil separator cs)

/-- A text around a separator has the pieces of its two sides. -/
theorem pieces_append_cons (separator : Char) (a b : List Char) :
    pieces separator (a ++ separator :: b) = pieces separator a ++ pieces separator b := by
  simp only [pieces_eq_splitOn, List.splitOn_append_cons_self]

theorem pieces_of_notMem {separator : Char} {cs : List Char} (h : separator ∉ cs) :
    pieces separator cs = [cs] := by
  rw [pieces_eq_splitOn, List.splitOn_eq_singleton h]

theorem notMem_of_mem_pieces {separator : Char} {cs : List Char} :
    ∀ p ∈ pieces separator cs, separator ∉ p := by
  fun_induction pieces separator cs with
  | case1 => simp
  | case2 cs ih => simpa using ih
  | case3 c cs hc p ps h ih =>
    obtain ⟨hp, hps⟩ := List.forall_mem_cons.1 (h ▸ ih)
    exact List.forall_mem_cons.2 ⟨List.not_mem_cons_of_ne_of_not_mem (Ne.symm hc) hp, hps⟩
  | case4 c cs hc h => exact absurd h (pieces_ne_nil separator cs)

/-- What is cut off is the text around its first separator. -/
theorem cut?_eq_some_iff {separator : Char} {cs a b : List Char} :
    cut? separator cs = some (a, b) ↔ cs = a ++ separator :: b ∧ separator ∉ a := by
  induction cs generalizing a with
  | nil => simp [cut?]
  | cons c cs ih =>
    simp only [cut?]
    split
    · next h =>
      subst h
      cases a with
      | nil => simp [eq_comm]
      | cons x a => simp +contextual [eq_comm]
    · next h =>
      cases a with
      | nil => simp [h]
      | cons x a => simp [ih]; grind

end Fulfilment.Text
