import MqttLink.Settings.Load
/-!
# Placeholders are replaced in one pass

A text with placeholders is a `Template`: literal pieces and placeholders take turns. The scanner finds
exactly the placeholders of the template (`expand_slot`, `expand_literal`), whatever stands next to them, and
puts in what they stand for without looking at it. So the outcome is the template with its placeholders filled
in (`substitute_template`).
-/

namespace MqttLink.Placeholder

/-! ## Templates -/

/-- A placeholder: `${NAME}` or `${NAME:-default}`. -/
structure Slot where
  name : String
  fallback : Option String
  named : name ≠ ""
  plain : ∀ c ∈ name.toList, c ≠ '}' ∧ c ≠ ':'
  closed : ∀ text ∈ fallback, '}' ∉ text.toList

/-- What is written behind the name of a placeholder. -/
def ending : Option String → List Char
  | none => ['}']
  | some text => ':' :: '-' :: (text.toList ++ ['}'])

/-- How a placeholder is written. -/
def Slot.spelling (s : Slot) : List Char := '$' :: '{' :: (s.name.toList ++ ending s.fallback)

/-- What a placeholder stands for: the text of the variable, or else the default, or else nothing. -/
def Slot.value (lookup : String → Option String) (s : Slot) : String :=
  (lookup s.name).getD (s.fallback.getD "")

/-- A text in which no placeholder begins. -/
def IsLiteral (cs : List Char) : Prop := ¬ ['$', '{'] <:+: cs

/-- A piece of text between placeholders. -/
structure Literal where
  text : String
  isLiteral : IsLiteral text.toList

/-- A text in which literal pieces, which may be empty, and placeholders take turns. -/
structure Template where
  start : Literal
  turns : List (Slot × Literal)

/-- How placeholders are written with the literal piece behind each. -/
def written (turns : List (Slot × Literal)) : List Char :=
  turns.flatMap fun (s, l) => s.spelling ++ l.text.toList

/-- How a template is written. -/
def Template.spelling (t : Template) : List Char := t.start.text.toList ++ written t.turns

/-- The text of a template in which every placeholder has given way to what it stands for. -/
def Template.filled (lookup : String → Option String) (t : Template) : List Char :=
  t.start.text.toList ++ t.turns.flatMap fun (s, l) => (s.value lookup).toList ++ l.text.toList

/-! ## The scanner -/

theorem default?_ending {fallback : Option String} (closed : ∀ text ∈ fallback, '}' ∉ text.toList)
    (rest : List Char) : default? (ending fallback ++ rest) = some (fallback.getD "", rest) := by
  cases fallback with
  | none => rfl
  | some text =>
    have inside : ∀ c ∈ text.toList, (c != '}') = true := fun c mem => by
      rw [bne_iff_ne]
      rintro rfl
      exact closed text rfl mem
    have taken : (text.toList ++ '}' :: rest).takeWhile (· != '}') = text.toList := by
      rw [List.takeWhile_append_of_pos inside, List.takeWhile_cons_of_neg (by decide), List.append_nil]
    have left : (text.toList ++ '}' :: rest).dropWhile (· != '}') = '}' :: rest := by
      rw [List.dropWhile_append_of_pos inside, List.dropWhile_cons_of_neg (by decide)]
    simp only [ending, List.cons_append, List.append_assoc, List.nil_append, default?, taken, left,
      String.ofList_toList, Option.getD_some]

/-- What follows a name is no part of it. -/
theorem ending_stops (fallback : Option String) (rest : List Char) :
    (ending fallback ++ rest).takeWhile isNameChar = [] ∧
    (ending fallback ++ rest).dropWhile isNameChar = ending fallback ++ rest := by
  cases fallback with
  | none => exact ⟨rfl, rfl⟩
  | some text => exact ⟨rfl, rfl⟩

/-- A placeholder is found where it is written. -/
theorem match?_slot (s : Slot) (rest : List Char) :
    match? (s.spelling ++ rest) = some ⟨s.name, s.fallback.getD "", rest⟩ := by
  have inside : ∀ c ∈ s.name.toList, isNameChar c = true := fun c mem => by
    simpa [isNameChar] using s.plain c mem
  have taken : (s.name.toList ++ (ending s.fallback ++ rest)).takeWhile isNameChar = s.name.toList := by
    rw [List.takeWhile_append_of_pos inside, (ending_stops s.fallback rest).1, List.append_nil]
  have left : (s.name.toList ++ (ending s.fallback ++ rest)).dropWhile isNameChar = ending s.fallback ++ rest := by
    rw [List.dropWhile_append_of_pos inside, (ending_stops s.fallback rest).2]
  have nonempty : s.name.toList.isEmpty = false := by
    rw [List.isEmpty_eq_false_iff, ne_eq, String.toList_eq_nil_iff]
    exact s.named
  simp only [Slot.spelling, List.cons_append, List.append_assoc, match?, taken, left,
    default?_ending s.closed rest, nonempty, String.ofList_toList, Bool.false_eq_true, if_false]

/-- A placeholder begins with a dollar sign and a brace. -/
theorem match?_apart {cs : List Char} (apart : ¬ ['$', '{'] <+: cs) : match? cs = none := by
  unfold match?
  split
  · exact absurd ⟨_, rfl⟩ apart
  · rfl

/-! ## Replacing -/

section

variable (lookup : String → Option String)

theorem expand_match {cs : List Char} {m : Match} (found : match? cs = some m) :
    expand lookup cs = ((lookup m.name).getD m.fallback).toList ++ expand lookup m.rest := by
  rw [expand]
  split
  · rename_i h
    cases found.symm.trans h
    rfl
  · rename_i h
    cases found.symm.trans h

theorem expand_skip {c : Char} {cs : List Char} (apart : match? (c :: cs) = none) :
    expand lookup (c :: cs) = c :: expand lookup cs := by
  rw [expand]
  split
  · rename_i h
    cases apart.symm.trans h
  · rfl

/-- A placeholder gives way to what it stands for, and the scanner goes on behind it. -/
theorem expand_slot (s : Slot) (rest : List Char) :
    expand lookup (s.spelling ++ rest) = (s.value lookup).toList ++ expand lookup rest :=
  expand_match lookup (match?_slot s rest)

/-- A literal piece stays as it is, also if it ends in the dollar sign that begins a placeholder: what comes
next is no brace. -/
theorem expand_literal {cs rest : List Char} (literal : IsLiteral cs) (next : rest.head? ≠ some '{') :
    expand lookup (cs ++ rest) = cs ++ expand lookup rest := by
  induction cs with
  | nil => simp
  | cons c cs ih =>
    have apart : ¬ ['$', '{'] <+: c :: (cs ++ rest) := by
      intro begins
      rw [List.cons_prefix_cons] at begins
      obtain ⟨rfl, brace⟩ := begins
      cases cs with
      | nil =>
        obtain ⟨more, rfl⟩ := brace
        simp at next
      | cons c' cs =>
        rw [List.cons_append, List.cons_prefix_cons] at brace
        obtain ⟨rfl, -⟩ := brace
        exact literal ⟨[], cs, rfl⟩
    have shorter : IsLiteral cs := by
      intro inside
      exact literal (inside.trans (List.suffix_cons c cs).isInfix)
    rw [List.cons_append, expand_skip lookup (match?_apart apart), ih shorter, List.cons_append]

/-- No brace comes behind a literal piece, where the next placeholder or the end of the text is. -/
theorem head?_written (turns : List (Slot × Literal)) : (written turns).head? ≠ some '{' := by
  cases turns with
  | nil => simp [written]
  | cons turn turns => simp [written, Slot.spelling]

theorem expand_written (turns : List (Slot × Literal)) :
    expand lookup (written turns) = turns.flatMap fun (s, l) => (s.value lookup).toList ++ l.text.toList := by
  induction turns with
  | nil => simp [written, expand, match?]
  | cons turn turns ih =>
    obtain ⟨s, l⟩ := turn
    have split : written ((s, l) :: turns) = s.spelling ++ (l.text.toList ++ written turns) := by
      simp [written]
    rw [split, expand_slot, expand_literal lookup l.isLiteral (head?_written turns), ih]
    simp

end

/-- **Placeholders are replaced in one pass.** However literal pieces and placeholders take turns, every literal
piece stays as it is, and each placeholder gives way to the text of its variable if that is set, or else to its
default, or else to nothing. What is put in is not looked at, even if it holds placeholders or completes one
together with what stands around it. -/
theorem substitute_template (lookup : String → Option String) (t : Template) :
    substitute lookup (String.ofList t.spelling) = String.ofList (t.filled lookup) := by
  unfold substitute Template.spelling Template.filled
  rw [String.toList_ofList, expand_literal lookup t.start.isLiteral (head?_written t.turns), expand_written]

/-- A dollar sign, a placeholder and what looks like the rest of another, and one with a default. -/
def crowded : Template where
  start := ⟨"$", by simp [IsLiteral, List.infix_cons_iff]⟩
  turns :=
    [(⟨"A", none, by simp, by simp, by simp⟩, ⟨"\x7bB\x7d", by simp [IsLiteral, List.infix_cons_iff]⟩),
      (⟨"C", some "a\n:\x7b", by simp, by simp, by simp⟩, ⟨"", by simp [IsLiteral]⟩)]

example : substitute (fun name => if name = "A" then some "$" else none) (String.ofList crowded.spelling) =
    "$$\x7bB\x7da\n:\x7b" := by cbv

end MqttLink.Placeholder
