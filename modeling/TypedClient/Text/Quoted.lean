/-!
# Quoted text

The body of a quoted literal: a backslash and the closing delimiter are written
after a backslash, and every other character stands for itself.
-/

namespace TypedClient.Text

/-- The body of a literal closed by `delimiter`. -/
def escapeChars (delimiter : Char) (text : List Char) : List Char :=
  text.flatMap fun c => if c == '\\' || c == delimiter then ['\\', c] else [c]

section Escaping

variable {c delimiter : Char}

theorem escapeChars_escaped (escaped : c = '\\' ∨ c = delimiter) :
    escapeChars delimiter [c] = ['\\', c] := by
  simp [escapeChars, escaped]

theorem escapeChars_plain (notBackslash : c ≠ '\\')
    (notDelimiter : c ≠ delimiter) : escapeChars delimiter [c] = [c] := by
  simp [escapeChars, notBackslash, notDelimiter]

theorem escapeChars_cons (delimiter c : Char) (text : List Char) :
    escapeChars delimiter (c :: text) =
      escapeChars delimiter [c] ++ escapeChars delimiter text := by
  rw [escapeChars, escapeChars, escapeChars, List.flatMap_cons, List.flatMap_singleton]

theorem mem_escapeChars_singleton (c delimiter : Char) : c ∈ escapeChars delimiter [c] := by
  by_cases escaped : c = '\\' ∨ c = delimiter <;> simp [escapeChars, escaped]

theorem eq_of_mem_escapeChars_singleton {other : Char}
    (member : other ∈ escapeChars delimiter [c]) : other = '\\' ∨ other = c := by
  by_cases escaped : c = '\\' ∨ c = delimiter
  · rw [escapeChars_escaped escaped] at member
    simpa using member
  · rw [not_or] at escaped
    rw [escapeChars_plain escaped.1 escaped.2] at member
    exact Or.inr (List.mem_singleton.mp member)

end Escaping

/-- A text as a single-quoted literal. -/
def singleQuoted (text : String) : String :=
  String.ofList ('\'' :: (escapeChars '\'' text.toList ++ ['\'']))

end TypedClient.Text
