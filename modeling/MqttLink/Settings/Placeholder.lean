/-!
# Placeholders

A settings text may hold placeholders for variables: `${NAME}` and
`${NAME:-default}`. They are replaced in one pass from left to right, and what is
put in is not looked at again. A variable that is set counts even if it is empty;
one that is not set gives way to the default, or to nothing. What only looks like
a placeholder stays as it is.
-/

namespace MqttLink.Placeholder

/-- A placeholder and the text behind it. -/
structure Match where
  name : String
  fallback : String
  rest : List Char

/-- The characters that a name is made of. -/
def isNameChar (c : Char) : Bool := c != '}' && c != ':'

/-- What closes a placeholder whose name has just been passed: its default, and
the text behind it. -/
def default? (cs : List Char) : Option (String × List Char) :=
  match cs with
  | '}' :: rest => some ("", rest)
  | ':' :: '-' :: after =>
    match after.dropWhile (· != '}') with
    | _ :: rest => some (String.ofList (after.takeWhile (· != '}')), rest)
    | [] => none
  | _ => none

/-- The placeholder at the front of a text. -/
def match? (cs : List Char) : Option Match :=
  match cs with
  | '$' :: '{' :: inner =>
    let name := inner.takeWhile isNameChar
    match default? (inner.dropWhile isNameChar) with
    | some (fallback, rest) =>
      if name.isEmpty then none else some ⟨String.ofList name, fallback, rest⟩
    | none => none
  | _ => none

theorem length_dropWhile_le (p : Char → Bool) (cs : List Char) :
    (cs.dropWhile p).length ≤ cs.length :=
  (List.dropWhile_sublist p).length_le

theorem default?_shorter {cs rest : List Char} {fallback : String}
    (h : default? cs = some (fallback, rest)) : rest.length < cs.length := by
  unfold default? at h
  split at h
  · cases h
    simp
  · rename_i after
    have := length_dropWhile_le (· != '}') after
    split at h
    · rename_i hrest
      cases h
      simp only [hrest, List.length_cons] at this ⊢
      omega
    · cases h
  · cases h

theorem match?_shorter {cs : List Char} {m : Match} (h : match? cs = some m) :
    m.rest.length < cs.length := by
  unfold match? at h
  split at h
  · rename_i inner
    have := length_dropWhile_le isNameChar inner
    split at h
    · rename_i hd
      have := default?_shorter hd
      simp only [Option.ite_none_left_eq_some, Option.some.injEq] at h
      obtain ⟨-, rfl⟩ := h
      simp only [List.length_cons]
      omega
    · cases h
  · cases h

/-- Replaces the placeholders of a text, as the one `replace_all` of
`substitute_env_vars` does. -/
def expand (lookup : String → Option String) (cs : List Char) : List Char :=
  match h : match? cs with
  | some m =>
    have := match?_shorter h
    ((lookup m.name).getD m.fallback).toList ++ expand lookup m.rest
  | none =>
    match cs with
    | [] => []
    | c :: rest => c :: expand lookup rest
termination_by cs.length

/-- The text with its placeholders replaced (`substitute_env_vars`). -/
def substitute (lookup : String → Option String) (text : String) : String :=
  String.ofList (expand lookup text.toList)

end MqttLink.Placeholder
