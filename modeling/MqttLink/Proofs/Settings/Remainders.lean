import MqttLink.Settings.Toml.Document
/-!
# What a reader leaves is an end of what it was given

Every reader takes a piece off the front of a text, so whatever is read later has stood in the text from the start.
There is one lemma for each reader, in the order of their definitions; for values it is one induction on the fuel
(`valuesLeave`). What holds of a text and of all its ends then holds wherever a document is read (`line?_suffix`).
-/

namespace MqttLink.Toml

open Settings (Value)

variable {d : Dialect} {cs rest : List Char}

/-! ## Blanks and ends of lines -/

theorem skipBlanks_suffix (cs : List Char) : skipBlanks cs <:+ cs := List.dropWhile_suffix _

theorem newline?_suffix (read : newline? cs = some rest) : rest <:+ cs := by
  unfold newline? at read
  split at read
  · cases read
    exact List.suffix_cons _ _
  · cases read
    exact (List.suffix_cons _ _).trans (List.suffix_cons _ _)
  · cases read

theorem skipComment_suffix (cs : List Char) : skipComment cs <:+ cs := by
  unfold skipComment
  split
  · exact (List.dropWhile_suffix _).trans (List.suffix_cons _ _)
  · exact List.suffix_rfl

theorem nextLine?_suffix (read : nextLine? cs = some rest) : rest <:+ cs := by
  unfold nextLine? at read
  have skipped := (skipComment_suffix _).trans (skipBlanks_suffix cs)
  split at read
  · cases read
    exact List.nil_suffix
  · exact (newline?_suffix read).trans skipped

theorem skipLines_suffix (fuel : Nat) (cs : List Char) : skipLines fuel cs <:+ cs := by
  induction fuel generalizing cs with
  | zero => exact List.suffix_rfl
  | succ fuel ih =>
    unfold skipLines
    have skipped := (skipComment_suffix _).trans (skipBlanks_suffix cs)
    dsimp only
    split
    · rename_i line
      exact (ih _).trans ((newline?_suffix line).trans skipped)
    · exact skipped

/-! ## Strings -/

theorem coded?_suffix {width : Nat} {c : Char} (read : coded? width cs = some (c, rest)) : rest <:+ cs := by
  unfold coded? at read
  split at read
  · cases read
  · obtain ⟨x, -, same⟩ := Option.map_eq_some_iff.1 read
    cases same
    exact List.drop_suffix _ _

theorem escaped?_suffix {c : Char} (read : escaped? d cs = some (c, rest)) : rest <:+ cs := by
  unfold escaped? at read
  split at read
  · simp only [Option.ite_none_right_eq_some] at read
    exact (coded?_suffix read.2).trans (List.suffix_cons _ _)
  · exact (coded?_suffix read).trans (List.suffix_cons _ _)
  · exact (coded?_suffix read).trans (List.suffix_cons _ _)
  · obtain ⟨x, -, same⟩ := Option.map_eq_some_iff.1 read
    cases same
    exact List.suffix_cons _ _
  · cases read

theorem basic?_suffix {fuel : Nat} {seen : List Char} {s : String}
    (read : basic? d fuel seen cs = some (s, rest)) : rest <:+ cs := by
  induction fuel generalizing seen cs with
  | zero => cases read
  | succ fuel ih =>
    unfold basic? at read
    split at read
    · cases read
    · cases read
      exact List.suffix_cons _ _
    · obtain ⟨⟨c, behind⟩, escape, more⟩ := Option.bind_eq_some_iff.1 read
      exact (ih more).trans ((escaped?_suffix escape).trans (List.suffix_cons _ _))
    · simp only [Option.ite_none_right_eq_some] at read
      exact (ih read.2).trans (List.suffix_cons _ _)

theorem literal?_suffix {s : String} (read : literal? cs = some (s, rest)) : rest <:+ cs := by
  unfold literal? at read
  dsimp only at read
  split at read
  · rename_i behind left
    cases read
    have passed := List.dropWhile_suffix (fun c => isPlain c && c != '\'') (l := cs)
    rw [left] at passed
    exact (List.suffix_cons _ _).trans passed
  · cases read

theorem closing?_suffix {quote : Char} {extra : Nat} (read : closing? quote cs = some (extra, rest)) :
    rest <:+ cs := by
  unfold closing? at read
  simp only [Option.ite_none_left_eq_some, Option.some.injEq, Prod.mk.injEq] at read
  rw [← read.2.2]
  exact List.drop_suffix _ _

theorem skipFirstNewline_suffix (cs : List Char) : skipFirstNewline cs <:+ cs := by
  unfold skipFirstNewline
  cases line : newline? cs with
  | none => exact List.suffix_rfl
  | some rest => exact newline?_suffix line

theorem multiline?_suffix {quote : Char} {escapes : Bool} {fuel : Nat} {trimming : Bool} {seen : List Char}
    {s : String} (read : multiline? d quote escapes fuel trimming seen cs = some (s, rest)) : rest <:+ cs := by
  induction fuel generalizing trimming seen cs with
  | zero => cases read
  | succ fuel ih =>
    unfold multiline? at read
    split at read
    · rename_i line
      exact (ih read).trans (newline?_suffix line)
    · split at read
      · cases read
      · rename_i c tail _
        have further {trimming : Bool} {seen : List Char}
            (more : multiline? d quote escapes fuel trimming seen tail = some (s, rest)) : rest <:+ c :: tail :=
          (ih more).trans (List.suffix_cons _ _)
        split at read
        · exact further read
        · split at read
          · split at read
            · rename_i ends
              cases read
              exact closing?_suffix ends
            · exact further read
          · split at read
            · split at read
              · rename_i line
                exact (ih read).trans
                  ((newline?_suffix line).trans ((skipBlanks_suffix _).trans (List.suffix_cons _ _)))
              · obtain ⟨⟨x, behind⟩, escape, more⟩ := Option.bind_eq_some_iff.1 read
                exact (ih more).trans ((escaped?_suffix escape).trans (List.suffix_cons _ _))
            · simp only [Option.ite_none_right_eq_some] at read
              exact further read.2

theorem string?_suffix {s : String} (read : string? d cs = some (s, rest)) : rest <:+ cs := by
  have delimited {q : Char} {tail : List Char} (inside : rest <:+ skipFirstNewline tail) :
      rest <:+ q :: q :: q :: tail :=
    inside.trans ((skipFirstNewline_suffix tail).trans (List.suffix_append [q, q, q] tail))
  unfold string? at read
  split at read
  · exact delimited (multiline?_suffix read)
  · exact delimited (multiline?_suffix read)
  · exact (basic?_suffix read).trans (List.suffix_cons _ _)
  · exact (literal?_suffix read).trans (List.suffix_cons _ _)
  · cases read

/-! ## Keys -/

theorem simpleKey?_suffix {name : String} (read : simpleKey? d cs = some (name, rest)) : rest <:+ cs := by
  unfold simpleKey? at read
  split at read
  · exact (basic?_suffix read).trans (List.suffix_cons _ _)
  · exact (literal?_suffix read).trans (List.suffix_cons _ _)
  · simp only [Option.ite_none_left_eq_some, Option.some.injEq, Prod.mk.injEq] at read
    obtain ⟨-, -, rfl⟩ := read
    exact List.dropWhile_suffix _

/-- A key is a part of it, and either another key behind a point or nothing more. -/
theorem keyParts?_succ {left : Nat} {parts : List String} :
    keyParts? d (left + 1) cs = some (parts, rest) ↔
      ∃ name behind, simpleKey? d (skipBlanks cs) = some (name, behind) ∧
        ((∃ tail more, skipBlanks behind = '.' :: tail ∧ keyParts? d left tail = some (more, rest) ∧
          parts = name :: more) ∨
        ((∀ tail, skipBlanks behind ≠ '.' :: tail) ∧ rest = skipBlanks behind ∧ parts = [name])) := by
  rw [keyParts?]
  constructor
  · intro read
    obtain ⟨⟨name, behind⟩, first, more⟩ := Option.bind_eq_some_iff.1 read
    refine ⟨name, behind, first, ?_⟩
    dsimp only at more
    split at more
    · rename_i tail point
      obtain ⟨⟨others, rest'⟩, further, same⟩ := Option.bind_eq_some_iff.1 more
      cases same
      exact .inl ⟨tail, others, point, further, rfl⟩
    · rename_i noPoint
      cases more
      exact .inr ⟨noPoint, rfl, rfl⟩
  · rintro ⟨name, behind, first, more⟩
    simp only [first, Option.bind_eq_bind, Option.bind_some]
    rcases more with ⟨tail, others, point, further, rfl⟩ | ⟨noPoint, rfl, rfl⟩
    · simp only [point, further, Option.bind_some]
      rfl
    · split
      · rename_i point
        exact absurd point (noPoint _)
      · rfl

theorem keyParts?_suffix {left : Nat} {parts : List String} (read : keyParts? d left cs = some (parts, rest)) :
    rest <:+ cs := by
  induction left generalizing cs parts with
  | zero => cases read
  | succ left ih =>
    obtain ⟨name, behind, first, more⟩ := keyParts?_succ.1 read
    have passed := (skipBlanks_suffix behind).trans ((simpleKey?_suffix first).trans (skipBlanks_suffix cs))
    rcases more with ⟨tail, others, point, further, rfl⟩ | ⟨-, rfl, rfl⟩
    · rw [point] at passed
      exact (ih further).trans ((List.suffix_cons _ _).trans passed)
    · exact passed

theorem key?_suffix {path : List String} (read : key? d cs = some (path, rest)) : rest <:+ cs :=
  keyParts?_suffix read

/-! ## Values -/

theorem bareScalar?_suffix {v : Value} (read : bareScalar? d cs = some (v, rest)) : rest <:+ cs := by
  have run := List.dropWhile_suffix isScalarChar (l := cs)
  have mapped {found : Option Value} {left : List Char} (part : found.map (·, left) = some (v, rest)) :
      rest = left := by
    obtain ⟨x, -, same⟩ := Option.map_eq_some_iff.1 part
    cases same
    rfl
  unfold bareScalar? at read
  dsimp only at read
  split at read
  · rename_i more _ blank
    split at read
    · rw [blank] at run
      rw [mapped read]
      exact (List.dropWhile_suffix _).trans ((List.suffix_cons _ _).trans run)
    · rw [mapped read]
      exact run
  · rw [mapped read]
    exact run

theorem skipInline_suffix (d : Dialect) (cs : List Char) : skipInline d cs <:+ cs := by
  unfold skipInline
  split
  · exact skipLines_suffix _ _
  · exact skipBlanks_suffix cs

/-- With so much fuel values leave an end of what they are read from. -/
structure ValuesLeave (d : Dialect) (fuel : Nat) : Prop where
  value : ∀ {depth : Nat} {cs rest : List Char} {v : Value},
    value? d fuel depth cs = some (v, rest) → rest <:+ cs
  items : ∀ {depth : Nat} {cs rest : List Char} {vs : List Value},
    items? d fuel depth cs = some (vs, rest) → rest <:+ cs
  pairs : ∀ {depth : Nat} {draft result : Draft} {mayEnd : Bool} {cs rest : List Char},
    pairs? d fuel depth draft mayEnd cs = some (result, rest) → rest <:+ cs

theorem value?_suffix {fuel : Nat} (ih : ValuesLeave d fuel) {depth : Nat} {v : Value}
    (read : value? d (fuel + 1) depth cs = some (v, rest)) : rest <:+ cs := by
  unfold value? at read
  split at read
  · obtain ⟨⟨s, behind⟩, text, same⟩ := Option.map_eq_some_iff.1 read
    cases same
    exact string?_suffix text
  · obtain ⟨⟨s, behind⟩, text, same⟩ := Option.map_eq_some_iff.1 read
    cases same
    exact string?_suffix text
  · cases depth with
    | zero => cases read
    | succ depth =>
      obtain ⟨⟨vs, behind⟩, items, same⟩ := Option.map_eq_some_iff.1 read
      cases same
      exact (ih.items items).trans (List.suffix_cons _ _)
  · cases depth with
    | zero => cases read
    | succ depth =>
      obtain ⟨⟨draft, behind⟩, pairs, same⟩ := Option.bind_eq_some_iff.1 read
      cases same
      exact (ih.pairs pairs).trans ((skipInline_suffix d _).trans (List.suffix_cons _ _))
  · exact bareScalar?_suffix read

theorem items?_suffix {fuel : Nat} (ih : ValuesLeave d fuel) {depth : Nat} {vs : List Value}
    (read : items? d (fuel + 1) depth cs = some (vs, rest)) : rest <:+ cs := by
  unfold items? at read
  dsimp only at read
  have start := skipLines_suffix (cs.length + 1) cs
  split at read
  · rename_i bracket
    rw [bracket] at start
    cases read
    exact (List.suffix_cons _ _).trans start
  · obtain ⟨⟨item, behind⟩, first, more⟩ := Option.bind_eq_some_iff.1 read
    have next := (skipLines_suffix (behind.length + 1) behind).trans ((ih.value first).trans start)
    dsimp only at more
    split at more
    · rename_i comma
      rw [comma] at next
      obtain ⟨⟨others, last⟩, further, same⟩ := Option.bind_eq_some_iff.1 more
      cases same
      exact (ih.items further).trans ((List.suffix_cons _ _).trans next)
    · rename_i bracket
      rw [bracket] at next
      cases more
      exact (List.suffix_cons _ _).trans next
    · cases more

theorem pairs?_suffix {fuel : Nat} (ih : ValuesLeave d fuel) {depth : Nat} {draft result : Draft} {mayEnd : Bool}
    (read : pairs? d (fuel + 1) depth draft mayEnd cs = some (result, rest)) : rest <:+ cs := by
  unfold pairs? at read
  split at read
  · cases read
    exact List.suffix_cons _ _
  · obtain ⟨⟨path, behind⟩, key, more⟩ := Option.bind_eq_some_iff.1 read
    have gap := (skipInline_suffix d behind).trans (key?_suffix key)
    dsimp only at more
    split at more
    · rename_i equals
      rw [equals] at gap
      obtain ⟨⟨v, behindValue⟩, value, more⟩ := Option.bind_eq_some_iff.1 more
      obtain ⟨joined, -, more⟩ := Option.bind_eq_some_iff.1 more
      have next := (skipInline_suffix d behindValue).trans ((ih.value value).trans
        ((skipInline_suffix d _).trans ((List.suffix_cons _ _).trans gap)))
      dsimp only at more
      split at more
      · rename_i comma
        rw [comma] at next
        exact (ih.pairs more).trans ((skipInline_suffix d _).trans ((List.suffix_cons _ _).trans next))
      · rename_i brace
        rw [brace] at next
        cases more
        exact (List.suffix_cons _ _).trans next
      · cases more
    · cases more

theorem valuesLeave (d : Dialect) (fuel : Nat) : ValuesLeave d fuel := by
  induction fuel with
  | zero =>
    constructor
    · intro depth cs rest v read
      cases read
    · intro depth cs rest vs read
      cases read
    · intro depth draft result mayEnd cs rest read
      cases read
  | succ fuel ih => exact ⟨value?_suffix ih, items?_suffix ih, pairs?_suffix ih⟩

/-! ## Lines -/

theorem header?_suffix {path : List String} (read : header? d cs = some (path, rest)) : rest <:+ cs := by
  unfold header? at read
  obtain ⟨found, key, more⟩ := Option.bind_eq_some_iff.1 read
  split at more
  · cases more
    exact (List.suffix_cons _ _).trans (key?_suffix key)
  · cases more

theorem elementHeader?_suffix {path : List String} (read : elementHeader? d cs = some (path, rest)) :
    rest <:+ cs := by
  unfold elementHeader? at read
  obtain ⟨found, header, more⟩ := Option.bind_eq_some_iff.1 read
  split at more
  · cases more
    exact (List.suffix_cons _ _).trans (header?_suffix header)
  · cases more

theorem line?_suffix {progress result : Progress} (read : line? d progress cs = some (result, rest)) :
    rest <:+ cs := by
  unfold line? at read
  split at read
  all_goals simp only [Option.bind_eq_bind, Option.bind_eq_some_iff, Prod.exists] at read
  · obtain ⟨path, behind, header, root, -, next, line, same⟩ := read
    cases same
    exact (nextLine?_suffix line).trans ((elementHeader?_suffix header).trans (List.suffix_append ['[', '['] _))
  · obtain ⟨path, behind, header, root, -, next, line, same⟩ := read
    cases same
    exact (nextLine?_suffix line).trans ((header?_suffix header).trans (List.suffix_cons _ _))
  · obtain ⟨path, behind, key, more⟩ := read
    split at more
    · simp only [Option.bind_eq_some_iff, Prod.exists] at more
      obtain ⟨v, behindValue, value, root, -, next, line, same⟩ := more
      cases same
      have passed := ((valuesLeave d _).value value).trans (skipBlanks_suffix _)
      exact (nextLine?_suffix line).trans (passed.trans ((List.suffix_cons _ _).trans (key?_suffix key)))
    · cases more

end MqttLink.Toml
