import Mathlib.Data.List.DropRight
import MqttLink.Proofs.Settings.Remainders
/-!
# What a dialect reads, a freer one reads alike

`d.Within d' text` says that `d'` allows all that `d` allows, and that what the two settle differently does not come up
in a text: then a document with that text which is read in `d` is read in `d'`, and as the same entries
(`parse?_within`). The readers are gone through in the order of their definitions. Where a freer reader passes over
more, such as line ends in an inline table, what comes next in a text that the stricter one reads is nothing of the
kind (`skipInline_within`); where it knows more forms of a value, none of them fits what the stricter one takes for a
number (`scalarOf?_within`). Strings over several lines and numbers are looked up in the text as a whole, of which
every reader is given an end or a piece.
-/

namespace MqttLink.Toml

open Settings (Value Entries setEntry)

/-- Whether the ends of lines in strings are kept makes no difference in a text: none of them is written as two
characters, or no string goes over several lines. -/
def OneLineEnd (text : List Char) : Prop :=
  ¬ ['\r', '\n'] <:+: text ∨ ¬ ['"', '"', '"'] <:+: text ∧ ¬ ['\'', '\'', '\''] <:+: text

/-- No number in a text is too far below zero. -/
def InReach (d : Dialect) (text : List Char) : Prop :=
  ∀ run, '-' :: run <:+: text → decimal? d true run ≠ some (.infinite true)

/-- All that a dialect allows, another allows as well, and what it leaves open they settle alike or it does not come up
in a text. -/
structure Dialect.Within (d d' : Dialect) (text : List Char) : Prop where
  moreEscapes : d.moreEscapes = true → d'.moreEscapes = true
  freeInlineTables : d.freeInlineTables = true → d'.freeInlineTables = true
  shortTimes : d.shortTimes = true → d'.shortTimes = true
  keepsLineEnds : d.keepsLineEnds = d'.keepsLineEnds ∨ OneLineEnd text
  joinsPassed : d.joinsPassed = true → d'.joinsPassed = true
  reachesMinusInfinity : (d.reachesMinusInfinity = true → d'.reachesMinusInfinity = true) ∨ InReach d text
  maxDepth : d.maxDepth ≤ d'.maxDepth
  maxParts : ∀ most', d'.maxParts = some most' → ∃ most, d.maxParts = some most ∧ most ≤ most'

variable {d d' : Dialect} {text : List Char}

/-! ## Strings -/

theorem escape?_within (h : d.Within d' text) {c x : Char} (read : escape? d c = some x) : escape? d' c = some x := by
  unfold escape? at read
  split at read
  · simp only [Option.ite_none_right_eq_some] at read
    simp [escape?, h.moreEscapes read.1, read.2]
  any_goals exact read
  cases read

theorem escaped?_within (h : d.Within d' text) {cs rest : List Char} {c : Char}
    (read : escaped? d cs = some (c, rest)) : escaped? d' cs = some (c, rest) := by
  unfold escaped? at read ⊢
  split at read
  · simp only [Option.ite_none_right_eq_some] at read
    rw [if_pos (h.moreEscapes read.1)]
    exact read.2
  · exact read
  · exact read
  · rename_i c' rest' _ _ _
    obtain ⟨x, known, same⟩ := Option.map_eq_some_iff.1 read
    simp [escape?_within h known, same]
  · cases read

theorem basic?_within (h : d.Within d' text) {fuel : Nat} {seen cs rest : List Char} {s : String}
    (read : basic? d fuel seen cs = some (s, rest)) : basic? d' fuel seen cs = some (s, rest) := by
  induction fuel generalizing seen cs with
  | zero => cases read
  | succ fuel ih =>
    unfold basic? at read ⊢
    split at read
    · cases read
    · exact read
    · obtain ⟨⟨c, behind⟩, escape, more⟩ := Option.bind_eq_some_iff.1 read
      simp only [escaped?_within h escape, Option.bind_eq_bind, Option.bind_some]
      exact ih more
    · simp only [Option.ite_none_right_eq_some] at read
      rw [if_pos read.1]
      exact ih read.2

theorem lineEnd_within {cs rest : List Char} (line : newline? cs = some rest)
    (ends : d.keepsLineEnds = d'.keepsLineEnds ∨ ¬ ['\r', '\n'] <:+: cs) : lineEnd d' cs = lineEnd d cs := by
  unfold lineEnd
  rcases ends with same | none
  · rw [same]
  · unfold newline? at line
    split at line
    · simp
    · exact absurd (List.prefix_append ['\r', '\n'] _).isInfix none
    · cases line

theorem multiline?_within (h : d.Within d' text) {quote : Char} {escapes : Bool} {fuel : Nat} {trimming : Bool}
    {seen cs rest : List Char} {s : String}
    (ends : d.keepsLineEnds = d'.keepsLineEnds ∨ ¬ ['\r', '\n'] <:+: cs)
    (read : multiline? d quote escapes fuel trimming seen cs = some (s, rest)) :
    multiline? d' quote escapes fuel trimming seen cs = some (s, rest) := by
  induction fuel generalizing trimming seen cs with
  | zero => cases read
  | succ fuel ih =>
    have behind {tail : List Char} (inside : tail <:+ cs) :
        d.keepsLineEnds = d'.keepsLineEnds ∨ ¬ ['\r', '\n'] <:+: tail :=
      ends.imp_right fun none more => none (more.trans inside.isInfix)
    unfold multiline? at read ⊢
    split at read
    · rename_i line
      rw [lineEnd_within line ends]
      exact ih (behind (newline?_suffix line)) read
    · split at read
      · cases read
      · rename_i c tail _
        have next := behind (List.suffix_cons c tail)
        by_cases trims : (trimming && isBlank c) = true
        · rw [if_pos trims] at read ⊢
          exact ih next read
        · rw [if_neg trims] at read ⊢
          by_cases quoted : (c == quote) = true
          · rw [if_pos quoted] at read ⊢
            cases closes : closing? quote (c :: tail) with
            | some found =>
              simp only [closes] at read ⊢
              exact read
            | none =>
              simp only [closes] at read ⊢
              exact ih next read
          · rw [if_neg quoted] at read ⊢
            by_cases escapes' : (escapes && c == '\\') = true
            · rw [if_pos escapes'] at read ⊢
              cases line : newline? (skipBlanks tail) with
              | some rest' =>
                simp only [line] at read ⊢
                have passed := (newline?_suffix line).trans (skipBlanks_suffix tail)
                exact ih (behind (passed.trans (List.suffix_cons _ _))) read
              | none =>
                simp only [line] at read ⊢
                obtain ⟨⟨x, rest'⟩, escape, more⟩ := Option.bind_eq_some_iff.1 read
                simp only [escaped?_within h escape, Option.bind_eq_bind, Option.bind_some]
                exact ih (behind ((escaped?_suffix escape).trans (List.suffix_cons _ _))) more
            · rw [if_neg escapes'] at read ⊢
              simp only [Option.ite_none_right_eq_some] at read
              rw [if_pos read.1]
              exact ih next read.2

/-- Behind an opening delimiter there are no ends of lines that would make a difference. -/
theorem Dialect.Within.lines (h : d.Within d' text) {q : Char} (quote : q = '"' ∨ q = '\'') {rest : List Char}
    (inside : q :: q :: q :: rest <:+ text) :
    d.keepsLineEnds = d'.keepsLineEnds ∨ ¬ ['\r', '\n'] <:+: skipFirstNewline rest := by
  have opened : [q, q, q] <:+: text := (List.prefix_append [q, q, q] rest).isInfix.trans inside.isInfix
  have passed : skipFirstNewline rest <:+ text :=
    (skipFirstNewline_suffix rest).trans ((List.suffix_append [q, q, q] rest).trans inside)
  refine h.keepsLineEnds.imp_right ?_
  rintro (none | ⟨noDouble, noSingle⟩)
  · exact fun more => none (more.trans passed.isInfix)
  · rcases quote with rfl | rfl
    · exact absurd opened noDouble
    · exact absurd opened noSingle

theorem string?_within (h : d.Within d' text) {cs rest : List Char} {s : String} (inside : cs <:+ text)
    (read : string? d cs = some (s, rest)) : string? d' cs = some (s, rest) := by
  unfold string? at read ⊢
  split at read
  · exact multiline?_within h (h.lines (.inl rfl) inside) read
  · exact multiline?_within h (h.lines (.inr rfl) inside) read
  · have more := basic?_within h read
    simp_all
  · simp_all
  · cases read

/-! ## Keys -/

theorem simpleKey?_within (h : d.Within d' text) {cs rest : List Char} {name : String}
    (read : simpleKey? d cs = some (name, rest)) : simpleKey? d' cs = some (name, rest) := by
  unfold simpleKey? at read ⊢
  split at read
  · exact basic?_within h read
  · exact read
  · exact read

/-- A key has no more parts than there are points in front of what follows it, and one. -/
theorem keyParts?_length {left : Nat} {cs rest : List Char} {parts : List String}
    (read : keyParts? d left cs = some (parts, rest)) : parts.length ≤ left ∧ parts.length ≤ cs.length + 1 := by
  induction left generalizing cs parts rest with
  | zero => cases read
  | succ left ih =>
    obtain ⟨name, behind, first, more⟩ := keyParts?_succ.1 read
    have shorter := (simpleKey?_suffix first).length_le
    have blanks := (skipBlanks_suffix cs).length_le
    rcases more with ⟨tail, others, point, further, rfl⟩ | ⟨-, -, rfl⟩
    · have inside := (skipBlanks_suffix behind).length_le
      have counted := ih further
      rw [point, List.length_cons] at inside
      simp only [List.length_cons]
      omega
    · simp

theorem keyParts?_within (h : d.Within d' text) {left left' : Nat} {cs rest : List Char} {parts : List String}
    (read : keyParts? d left cs = some (parts, rest)) (enough : parts.length ≤ left') :
    keyParts? d' left' cs = some (parts, rest) := by
  -- The limits differ; what the freer dialect has left is measured against the parts that are there.
  induction left generalizing left' cs parts rest with
  | zero => cases read
  | succ left ih =>
    obtain ⟨name, behind, first, more⟩ := keyParts?_succ.1 read
    cases left' with
    | zero => rcases more with ⟨tail, others, -, -, rfl⟩ | ⟨-, -, rfl⟩ <;> simp at enough
    | succ left' =>
      refine keyParts?_succ.2 ⟨name, behind, simpleKey?_within h first, ?_⟩
      rcases more with ⟨tail, others, point, further, rfl⟩ | last
      · rw [List.length_cons] at enough
        exact .inl ⟨tail, others, point, ih further (by omega), rfl⟩
      · exact .inr last

theorem key?_within (h : d.Within d' text) {cs rest : List Char} {path : List String}
    (read : key? d cs = some (path, rest)) : key? d' cs = some (path, rest) := by
  have size := keyParts?_length read
  apply keyParts?_within h read
  cases most' : d'.maxParts with
  | none => exact size.2
  | some bound' =>
    obtain ⟨bound, most, less⟩ := h.maxParts bound' most'
    rw [most] at size
    exact Nat.le_trans size.1 less

/-! ## Scalars -/

theorem fixed?_subset {width low high : Nat} {cs digits rest : List Char}
    (read : fixed? width low high cs = some (digits, rest)) : rest ⊆ cs := by
  unfold fixed? at read
  simp only [Option.ite_none_right_eq_some, Option.some.injEq, Prod.mk.injEq] at read
  rw [← read.2.2]
  exact List.drop_subset _ _

theorem sign?_eq_some {wanted : Char} {cs rest : List Char} :
    sign? wanted cs = some rest ↔ cs = wanted :: rest := by
  unfold sign?
  cases cs with
  | nil => simp
  | cons c tail => simp

theorem sign?_subset {wanted : Char} {cs rest : List Char} (read : sign? wanted cs = some rest) : rest ⊆ cs := by
  rw [sign?_eq_some.1 read]
  exact List.subset_cons_self _ _

theorem date?_subset {cs date rest : List Char} (read : date? cs = some (date, rest)) : rest ⊆ cs := by
  unfold date? at read
  simp only [Option.bind_eq_bind, Option.bind_eq_some_iff, Prod.exists] at read
  obtain ⟨year, behindYear, hYear, beforeMonth, dash, month, behindMonth, hMonth, beforeDay, dash', day, behindDay,
    hDay, same⟩ := read
  cases same
  have behindYear : behindYear ⊆ cs := fixed?_subset hYear
  have behindMonth : behindMonth ⊆ cs :=
    List.Subset.trans (fixed?_subset hMonth) (List.Subset.trans (sign?_subset dash) behindYear)
  exact List.Subset.trans (fixed?_subset hDay) (List.Subset.trans (sign?_subset dash') behindMonth)

/-- A time of day has a colon. -/
theorem time?_colon {cs time rest : List Char} (read : time? d cs = some (time, rest)) : ':' ∈ cs := by
  unfold time? at read
  simp only [Option.bind_eq_bind, Option.bind_eq_some_iff, Prod.exists] at read
  obtain ⟨hour, behindHour, hHour, beforeMinute, colon, -⟩ := read
  apply fixed?_subset hHour
  simp [sign?_eq_some.1 colon]

theorem time?_within (h : d.Within d' text) {cs time rest : List Char} (read : time? d cs = some (time, rest)) :
    time? d' cs = some (time, rest) := by
  unfold time? at read ⊢
  simp only [Option.bind_eq_bind, Option.bind_eq_some_iff, Prod.exists] at read
  obtain ⟨hour, behindHour, hHour, beforeMinute, colon, minute, behindMinute, hMinute, more⟩ := read
  simp only [hHour, colon, hMinute, Option.bind_eq_bind, Option.bind_some]
  cases second : sign? ':' behindMinute with
  | none =>
    simp only [second, Option.ite_none_right_eq_some] at more ⊢
    exact ⟨h.shortTimes more.1, more.2⟩
  | some beforeSecond =>
    simp only [second] at more ⊢
    exact more

theorem datetime?_within (h : d.Within d' text) {cs s : List Char} (read : datetime? d cs = some s) :
    datetime? d' cs = some s := by
  unfold datetime? at read ⊢
  cases date : date? cs with
  | none =>
    simp only [date] at read ⊢
    cases time : time? d cs with
    | none => simp [time] at read
    | some found =>
      obtain ⟨digits, rest⟩ := found
      simpa only [time, time?_within h time] using read
  | some found =>
    obtain ⟨digits, rest⟩ := found
    cases rest with
    | nil => simpa only [date] using read
    | cons separator rest =>
      simp only [date, Option.ite_none_right_eq_some, Option.bind_eq_bind, Option.bind_eq_some_iff,
        Prod.exists] at read ⊢
      obtain ⟨parts, time, behind, hTime, offset⟩ := read
      exact ⟨parts, time, behind, time?_within h hTime, offset⟩

/-- What only a freer dialect takes for a date or a time has a colon. -/
theorem datetime?_colon {cs s : List Char} (read : datetime? d' cs = some s) (unread : datetime? d cs = none) :
    ':' ∈ cs := by
  unfold datetime? at read unread
  cases date : date? cs with
  | none =>
    simp only [date] at read
    cases time : time? d' cs with
    | none => simp [time] at read
    | some found => exact time?_colon time
  | some found =>
    obtain ⟨digits, rest⟩ := found
    cases rest with
    | nil => simp [date] at unread
    | cons separator rest =>
      simp only [date, Option.ite_none_right_eq_some, Option.bind_eq_bind, Option.bind_eq_some_iff,
        Prod.exists] at read
      obtain ⟨-, time, behind, hTime, -⟩ := read
      exact date?_subset date (List.mem_cons_of_mem _ (time?_colon hTime))

theorem digits?_plain {radix : Nat} {cs digits : List Char} (noDigit : Number.isDigit radix ':' = false)
    (read : digits? radix cs = some digits) : ':' ∉ cs := by
  unfold digits? at read
  dsimp only at read
  split at read
  · rename_i fits
    intro colon
    simp only [Bool.and_eq_true, List.all_eq_true] at fits
    have digit := fits.1.1.1.2 ':' (List.mem_filter.2 ⟨colon, by decide⟩)
    rw [noDigit] at digit
    cases digit
  · cases read

theorem properDigits?_plain {cs digits : List Char} (read : properDigits? cs = some digits) : ':' ∉ cs := by
  unfold properDigits? at read
  obtain ⟨found, hDigits, -⟩ := Option.bind_eq_some_iff.1 read
  exact digits?_plain (by decide) hDigits

theorem splitSign_plain {cs : List Char} (plain : ':' ∉ (Number.splitSign cs).2) : ':' ∉ cs := by
  unfold Number.splitSign at plain
  split at plain <;> simp_all

/-- A whole number has no colon. -/
theorem integer?_plain {cs : List Char} {n : Int} (read : integer? cs = some n) : ':' ∉ cs := by
  unfold integer? at read
  dsimp only at read
  split at read
  · obtain ⟨digits, hDigits, -⟩ := Option.bind_eq_some_iff.1 read
    simp [digits?_plain (by decide) hDigits]
  · obtain ⟨digits, hDigits, -⟩ := Option.bind_eq_some_iff.1 read
    simp [digits?_plain (by decide) hDigits]
  · obtain ⟨digits, hDigits, -⟩ := Option.bind_eq_some_iff.1 read
    simp [digits?_plain (by decide) hDigits]
  · obtain ⟨digits, hDigits, -⟩ := Option.bind_eq_some_iff.1 read
    exact splitSign_plain (properDigits?_plain hDigits)

/-- A character at which a run does not end is in none of its parts. -/
theorem not_mem_parts {p : Char → Bool} {x : Char} {cs : List Char} (pass : p x = true)
    (front : x ∉ cs.takeWhile p) (behind : ∀ c rest, cs.dropWhile p = c :: rest → x ∉ rest) : x ∉ cs := by
  intro inside
  rw [← List.takeWhile_append_dropWhile (p := p) (l := cs), List.mem_append] at inside
  rcases inside with inside | inside
  · exact front inside
  · cases left : cs.dropWhile p with
    | nil => simp [left] at inside
    | cons c rest =>
      have ends := List.head?_dropWhile_not p cs
      rw [left] at ends inside
      rcases List.mem_cons.1 inside with rfl | inside
      · simp [pass] at ends
      · exact behind c rest left inside

/-- A number with a point or an exponent has no colon. -/
theorem decimal?_plain {negative : Bool} {cs : List Char} {x : Number.Double}
    (read : decimal? d negative cs = some x) : ':' ∉ cs := by
  unfold decimal? at read
  simp only [Option.bind_eq_bind, Option.bind_eq_some_iff] at read
  obtain ⟨wholeDigits, hWhole, more⟩ := read
  apply not_mem_parts (p := fun c => !(c == 'e' || c == 'E')) (by decide)
  · apply not_mem_parts (p := fun c => c != '.') (by decide) (properDigits?_plain hWhole)
    intro c rest point
    simp only [point] at more
    obtain ⟨fraction, hFraction, -⟩ := Option.bind_eq_some_iff.1 more
    exact digits?_plain (by decide) hFraction
  · intro c rest mark
    have exponent : ∃ digits, digits? 10 (Number.splitSign rest).2 = some digits := by
      simp only [mark] at more
      split at more
      all_goals
        obtain ⟨fraction, -, more⟩ := Option.bind_eq_some_iff.1 more
        obtain ⟨exponent, hExponent, -⟩ := Option.bind_eq_some_iff.1 more
        obtain ⟨digits, hDigits, -⟩ := Option.map_eq_some_iff.1 hExponent
        exact ⟨digits, hDigits⟩
    obtain ⟨digits, hDigits⟩ := exponent
    exact splitSign_plain (digits?_plain (by decide) hDigits)

theorem float?_plain {cs : List Char} {x : Number.Double} (read : float? d cs = some x) : ':' ∉ cs := by
  unfold float? at read
  apply splitSign_plain
  dsimp only at read
  split at read
  · rename_i infinite
    rw [beq_iff_eq.1 infinite]
    decide
  · split at read
    · rename_i nan
      rw [beq_iff_eq.1 nan]
      decide
    · exact decimal?_plain read

/-- A number with a point or an exponent is the same where both dialects reach it. -/
theorem decimal?_within {negative : Bool} {cs : List Char} {x : Number.Double}
    (reach : (d.reachesMinusInfinity = true → d'.reachesMinusInfinity = true) ∨
      (negative = true → x ≠ .infinite true))
    (read : decimal? d negative cs = some x) : decimal? d' negative cs = some x := by
  have last {whole : Prop} [Decidable whole] {y : Number.Double}
      (kept : (if whole then none else if y = .infinite negative ∧ !(negative && d.reachesMinusInfinity) then none
        else some y) = some x) :
      (if whole then none else if y = .infinite negative ∧ !(negative && d'.reachesMinusInfinity) then none
        else some y) = some x := by
    simp only [Option.ite_none_left_eq_some, Option.some.injEq] at kept ⊢
    obtain ⟨noWhole, finite, rfl⟩ := kept
    refine ⟨noWhole, ?_, rfl⟩
    rintro ⟨rfl, refused⟩
    cases negative with
    | false => exact finite ⟨rfl, rfl⟩
    | true => rcases reach with more | other <;> simp_all
  unfold decimal? at read ⊢
  simp only [Option.bind_eq_bind, Option.bind_eq_some_iff] at read ⊢
  obtain ⟨digits, hWhole, more⟩ := read
  refine ⟨digits, hWhole, ?_⟩
  cases point : (cs.takeWhile fun c => !(c == 'e' || c == 'E')).dropWhile fun c => c != '.'
  all_goals
    simp only [point] at more ⊢
    obtain ⟨fraction, hFraction, more⟩ := Option.bind_eq_some_iff.1 more
    rw [hFraction, Option.bind_some]
    cases mark : cs.dropWhile fun c => !(c == 'e' || c == 'E')
    all_goals
      simp only [mark] at more ⊢
      obtain ⟨exponent, hExponent, more⟩ := Option.bind_eq_some_iff.1 more
      rw [hExponent, Option.bind_some]
      exact last more

theorem float?_within (h : d.Within d' text) {cs : List Char} {x : Number.Double} (inside : cs <:+: text)
    (read : float? d cs = some x) : float? d' cs = some x := by
  -- A number behind a minus sign is a piece of the text, with the sign in front of it.
  have signed : (Number.splitSign cs).1 = true → '-' :: (Number.splitSign cs).2 = cs := by
    unfold Number.splitSign
    split <;> simp
  unfold float? at read ⊢
  dsimp only at read ⊢
  split at read
  · rename_i infinite
    rw [if_pos infinite]
    exact read
  · rename_i finite
    rw [if_neg finite]
    split at read
    · rename_i nan
      rw [if_pos nan]
      exact read
    · rename_i proper
      rw [if_neg proper]
      refine decimal?_within (h.reachesMinusInfinity.imp_right fun reach minus => ?_) read
      rw [minus] at read
      rintro rfl
      exact reach _ (signed minus ▸ inside) read

/-- A scalar has no other value in a freer dialect: what that may take for a date or a time besides is no number. -/
theorem scalarOf?_within (h : d.Within d' text) {cs : List Char} {v : Value} (inside : cs <:+: text)
    (read : scalarOf? d cs = some v) : scalarOf? d' cs = some v := by
  unfold scalarOf? at read ⊢
  split at read
  · rename_i yes
    rw [if_pos yes]
    exact read
  · rename_i notYes
    rw [if_neg notYes]
    split at read
    · rename_i no
      rw [if_pos no]
      exact read
    · rename_i notNo
      rw [if_neg notNo]
      cases date : datetime? d cs with
      | some s =>
        simp only [date, datetime?_within h date] at read ⊢
        exact read
      | none =>
        -- A date or time that only the freer dialect knows would come before a number, but it has a colon.
        have undated (plain : ':' ∉ cs) : datetime? d' cs = none := by
          cases date' : datetime? d' cs with
          | none => rfl
          | some s => exact absurd (datetime?_colon date' date) plain
        cases whole : integer? cs with
        | some n =>
          simp only [date, undated (integer?_plain whole), whole] at read ⊢
          exact read
        | none =>
          cases number : float? d cs with
          | some x =>
            simp only [date, undated (float?_plain number), whole, number, float?_within h inside number] at read ⊢
            exact read
          | none => simp [date, whole, number] at read

theorem bareScalar?_within (h : d.Within d' text) {cs rest : List Char} {v : Value} (inside : cs <:+ text)
    (read : bareScalar? d cs = some (v, rest)) : bareScalar? d' cs = some (v, rest) := by
  have mapped {run left : List Char} (piece : run <+: cs)
      (part : (scalarOf? d run).map (·, left) = some (v, rest)) :
      (scalarOf? d' run).map (·, left) = some (v, rest) := by
    obtain ⟨x, found, same⟩ := Option.map_eq_some_iff.1 part
    rw [scalarOf?_within h (piece.isInfix.trans inside.isInfix) found, Option.map_some, same]
  have first := List.takeWhile_prefix isScalarChar (l := cs)
  unfold bareScalar? at read ⊢
  dsimp only at read ⊢
  split at read
  · rename_i more _ blank
    split at read
    · rename_i digit
      rw [if_pos digit]
      refine mapped ?_ read
      have whole := List.takeWhile_append_dropWhile (p := isScalarChar) (l := cs)
      rw [blank] at whole
      nth_rewrite 2 [← whole]
      exact (List.prefix_append_right_inj _).2
        (List.cons_prefix_cons.2 ⟨rfl, List.takeWhile_prefix _⟩)
    · rename_i noDigit
      rw [if_neg noDigit]
      exact mapped first read
  · exact mapped first read

/-! ## Tables under construction -/

theorem Draft.update_within {change change' : Draft → Option Draft} {dotted : Bool}
    (same : ∀ old new, change old = some new → change' old = some new) {path : List String} {draft result : Draft}
    (done : draft.update dotted change path = some result) : draft.update dotted change' path = some result := by
  induction path generalizing draft result with
  | nil => exact same _ _ done
  | cons key rest ih =>
    unfold Draft.update at done ⊢
    dsimp only at done ⊢
    split at done
    · obtain ⟨inner, more, last⟩ := Option.bind_eq_some_iff.1 done
      simp only [ih more, Option.bind_eq_bind, Option.bind_some]
      exact last
    · cases done
    · cases done
    · obtain ⟨inner, more, last⟩ := Option.bind_eq_some_iff.1 done
      simp only [ih more, Option.bind_eq_bind, Option.bind_some]
      exact last
    · simp only [Option.ite_none_left_eq_some] at done
      obtain ⟨open', more⟩ := done
      obtain ⟨inner, more, last⟩ := Option.bind_eq_some_iff.1 more
      simp only [if_neg open', ih more, Option.bind_eq_bind, Option.bind_some]
      exact last

theorem Draft.assign_within (h : d.Within d' text) {path : List String} {v : Value} {draft result : Draft}
    (done : draft.assign d path v = some result) : draft.assign d' path v = some result := by
  unfold Draft.assign at done ⊢
  split at done
  · cases done
  · apply Draft.update_within _ done
    intro old new step
    simp only [Option.ite_none_left_eq_some] at step ⊢
    refine ⟨?_, step.2⟩
    have joins := h.joinsPassed
    intro apart
    apply step.1
    revert apart
    cases hd : d.joinsPassed <;> cases hd' : d'.joinsPassed <;> simp_all

/-! ## Values -/

/-- A character at which nothing starts that is skipped: no blank, no comment and no end of a line. -/
def IsSolid (c : Char) : Prop := isBlank c = false ∧ c ≠ '#' ∧ c ≠ '\n' ∧ c ≠ '\r'

instance (c : Char) : Decidable (IsSolid c) := inferInstanceAs (Decidable (_ ∧ _))

theorem skipBlanks_solid {cs : List Char} (solid : ∀ c ∈ cs.head?, IsSolid c) : skipBlanks cs = cs := by
  cases cs with
  | nil => rfl
  | cons c rest => simp [skipBlanks, (solid c rfl).1]

/-- Where something solid comes next, blanks are all that there is to skip. -/
theorem skipLines_solid {cs : List Char} (solid : ∀ c ∈ (skipBlanks cs).head?, IsSolid c) (fuel : Nat) :
    skipLines (fuel + 1) cs = skipBlanks cs := by
  unfold skipLines
  dsimp only
  cases next : skipBlanks cs with
  | nil => rfl
  | cons c rest =>
    obtain ⟨-, noComment, noFeed, noReturn⟩ := solid c (by simp [next])
    have kept : skipComment (c :: rest) = c :: rest := by
      unfold skipComment
      split
      · simp_all
      · rfl
    have noEnd : newline? (c :: rest) = none := by
      unfold newline?
      split <;> simp_all
    rw [kept, noEnd]

theorem skipBlanks_idem (cs : List Char) : skipBlanks (skipBlanks cs) = skipBlanks cs :=
  List.dropWhile_idempotent _ cs

/-- Behind the same text both skip the same if something solid comes next for the stricter one. -/
theorem skipInline_within (h : d.Within d' text) {cs : List Char}
    (solid : ∀ c ∈ (skipBlanks (skipInline d cs)).head?, IsSolid c) : skipInline d' cs = skipInline d cs := by
  unfold skipInline at solid ⊢
  by_cases free : d.freeInlineTables = true
  · rw [if_pos free, if_pos (h.freeInlineTables free)]
  · rw [if_neg free, skipBlanks_idem] at solid
    rw [if_neg free]
    split
    · exact skipLines_solid solid _
    · rfl

theorem solid_behind {cs : List Char} (solid : ∀ c ∈ cs.head?, IsSolid c) :
    ∀ c ∈ (skipBlanks cs).head?, IsSolid c := by
  rw [skipBlanks_solid solid]
  exact solid

theorem skipInline_sign (h : d.Within d' text) {cs tail : List Char} {c : Char} (next : skipInline d cs = c :: tail)
    (sign : IsSolid c) : skipInline d' cs = c :: tail := by
  have solid : ∀ c' ∈ (c :: tail).head?, IsSolid c' := by
    rintro c' ⟨⟩
    exact sign
  rw [← next]
  apply skipInline_within h
  rw [next]
  exact solid_behind solid

/-- The characters of a kind that none of those which start something skipped belongs to. -/
theorem isSolid_of {p : Char → Bool} {c : Char} (holds : p c = true)
    (apart : [' ', '\t', '#', '\n', '\r'].any p = false) : IsSolid c := by
  have other : ∀ x ∈ [' ', '\t', '#', '\n', '\r'], c ≠ x := by
    rintro x listed rfl
    rw [List.any_eq_true.2 ⟨c, listed, holds⟩] at apart
    cases apart
  have noBlank : isBlank c = false := by
    simp [isBlank, other ' ' (by simp), other '\t' (by simp)]
  exact ⟨noBlank, other _ (by simp), other _ (by simp), other _ (by simp)⟩

/-- A run that something fits in starts with what its characters start with. -/
theorem head?_takeWhile {p : Char → Bool} {cs : List Char} (some' : cs.takeWhile p ≠ []) :
    ∀ c ∈ cs.head?, p c = true := by
  cases cs with
  | nil => simp
  | cons c rest =>
    intro c' first
    cases first
    by_contra other
    apply some'
    simp [other]

theorem scalarOf?_nil : scalarOf? d [] = none := by
  simp [scalarOf?, datetime?, date?, time?, fixed?, integer?, properDigits?, digits?, float?, decimal?,
    Number.splitSign, Number.ofDigits]

theorem bareScalar?_solid {cs rest : List Char} {v : Value} (read : bareScalar? d cs = some (v, rest)) :
    ∀ c ∈ cs.head?, IsSolid c := by
  have run : cs.takeWhile isScalarChar ≠ [] := by
    intro empty
    have noDate : (date? []).any (·.2.isEmpty) = false := by decide
    simp [bareScalar?, empty, noDate, scalarOf?_nil] at read
  intro c first
  exact isSolid_of (head?_takeWhile run c first) (by decide)

theorem value?_solid {fuel depth : Nat} {cs rest : List Char} {v : Value}
    (read : value? d fuel depth cs = some (v, rest)) : ∀ c ∈ cs.head?, IsSolid c := by
  cases fuel with
  | zero => cases read
  | succ fuel =>
    unfold value? at read
    split at read
    any_goals
      intro c first
      cases first
      decide
    exact bareScalar?_solid read

theorem simpleKey?_solid {cs rest : List Char} {name : String} (read : simpleKey? d cs = some (name, rest)) :
    ∀ c ∈ cs.head?, IsSolid c := by
  unfold simpleKey? at read
  split at read
  · intro c first
    cases first
    decide
  · intro c first
    cases first
    decide
  · simp only [Option.ite_none_left_eq_some, List.isEmpty_iff] at read
    intro c first
    exact isSolid_of (head?_takeWhile read.1 c first) (by decide)

theorem key?_solid {cs rest : List Char} {path : List String} (read : key? d cs = some (path, rest)) :
    ∀ c ∈ (skipBlanks cs).head?, IsSolid c := by
  unfold key? at read
  cases parts : d.maxParts.getD (cs.length + 1) with
  | zero => rw [parts] at read; cases read
  | succ left =>
    rw [parts] at read
    obtain ⟨name, behind, first, -⟩ := keyParts?_succ.1 read
    exact simpleKey?_solid first

theorem pairs?_solid {fuel depth : Nat} {draft result : Draft} {mayEnd : Bool} {cs rest : List Char}
    (read : pairs? d fuel depth draft mayEnd cs = some (result, rest)) :
    ∀ c ∈ (skipBlanks cs).head?, IsSolid c := by
  cases fuel with
  | zero => cases read
  | succ fuel =>
    unfold pairs? at read
    split at read
    · intro c first
      cases first
      decide
    · obtain ⟨⟨path, behind⟩, first, -⟩ := Option.bind_eq_some_iff.1 read
      exact key?_solid first

/-- No key starts with a closing brace. -/
theorem key?_brace (cs : List Char) : key? d ('}' :: cs) = none := by
  have noBlank : skipBlanks ('}' :: cs) = '}' :: cs := rfl
  have noKey : simpleKey? d ('}' :: cs) = none := rfl
  cases read : key? d ('}' :: cs) with
  | none => rfl
  | some found =>
    unfold key? at read
    cases parts : d.maxParts.getD (('}' :: cs).length + 1) with
    | zero => rw [parts] at read; cases read
    | succ left =>
      rw [parts] at read
      obtain ⟨name, behind, first, -⟩ := keyParts?_succ.1 read
      rw [noBlank, noKey] at first
      cases first

/-- With so much fuel values are read alike anywhere in a text, also at a place that is less deep. -/
structure ValuesWithin (d d' : Dialect) (text : List Char) (fuel : Nat) : Prop where
  value : ∀ {depth depth' : Nat} {cs rest : List Char} {v : Value}, depth ≤ depth' → cs <:+ text →
    value? d fuel depth cs = some (v, rest) → value? d' fuel depth' cs = some (v, rest)
  items : ∀ {depth depth' : Nat} {cs rest : List Char} {vs : List Value}, depth ≤ depth' → cs <:+ text →
    items? d fuel depth cs = some (vs, rest) → items? d' fuel depth' cs = some (vs, rest)
  pairs : ∀ {depth depth' : Nat} {draft result : Draft} {mayEnd mayEnd' : Bool} {cs rest : List Char},
    depth ≤ depth' → (mayEnd = true → mayEnd' = true) → cs <:+ text →
    pairs? d fuel depth draft mayEnd cs = some (result, rest) →
      pairs? d' fuel depth' draft mayEnd' cs = some (result, rest)

theorem value?_within (h : d.Within d' text) {fuel : Nat} (ih : ValuesWithin d d' text fuel) {depth depth' : Nat}
    {cs rest : List Char} {v : Value} (deep : depth ≤ depth') (inside : cs <:+ text)
    (read : value? d (fuel + 1) depth cs = some (v, rest)) : value? d' (fuel + 1) depth' cs = some (v, rest) := by
  unfold value? at read ⊢
  split at read
  · obtain ⟨⟨s, behind⟩, known, same⟩ := Option.map_eq_some_iff.1 read
    simp only [string?_within h inside known, Option.map_some]
    exact congrArg some same
  · obtain ⟨⟨s, behind⟩, known, same⟩ := Option.map_eq_some_iff.1 read
    simp only [string?_within h inside known, Option.map_some]
    exact congrArg some same
  · cases depth with
    | zero => cases read
    | succ depth =>
      obtain ⟨depth', rfl⟩ : ∃ n, depth' = n + 1 := ⟨depth' - 1, by omega⟩
      obtain ⟨⟨vs, behind⟩, items, same⟩ := Option.map_eq_some_iff.1 read
      have start := (List.suffix_cons _ _).trans inside
      simp only [ih.items (Nat.le_of_succ_le_succ deep) start items, Option.map_some]
      exact congrArg some same
  · rename_i tail
    cases depth with
    | zero => cases read
    | succ depth =>
      obtain ⟨depth', rfl⟩ : ∃ n, depth' = n + 1 := ⟨depth' - 1, by omega⟩
      obtain ⟨⟨draft, behind⟩, pairs, same⟩ := Option.bind_eq_some_iff.1 read
      have start := (skipInline_suffix d tail).trans ((List.suffix_cons _ _).trans inside)
      simp only [skipInline_within h (pairs?_solid pairs),
        ih.pairs (Nat.le_of_succ_le_succ deep) id start pairs, Option.bind_eq_bind, Option.bind_some]
      exact same
  · exact bareScalar?_within h inside read

theorem items?_within {fuel : Nat} (ih : ValuesWithin d d' text fuel) {depth depth' : Nat} {cs rest : List Char}
    {vs : List Value} (deep : depth ≤ depth') (inside : cs <:+ text)
    (read : items? d (fuel + 1) depth cs = some (vs, rest)) : items? d' (fuel + 1) depth' cs = some (vs, rest) := by
  have start := (skipLines_suffix (cs.length + 1) cs).trans inside
  unfold items? at read ⊢
  dsimp only at read ⊢
  split at read
  · exact read
  · obtain ⟨⟨item, behind⟩, first, more⟩ := Option.bind_eq_some_iff.1 read
    have next := (skipLines_suffix (behind.length + 1) behind).trans (((valuesLeave d _).value first).trans start)
    simp only [ih.value deep start first, Option.bind_eq_bind, Option.bind_some]
    dsimp only at more
    split at more
    · rename_i comma
      rw [comma] at next
      obtain ⟨⟨others, last⟩, further, same⟩ := Option.bind_eq_some_iff.1 more
      simp only [ih.items deep ((List.suffix_cons _ _).trans next) further, Option.bind_some]
      exact same
    · exact more
    · cases more

theorem pairs?_within (h : d.Within d' text) {fuel : Nat} (ih : ValuesWithin d d' text fuel) {depth depth' : Nat}
    {draft result : Draft} {mayEnd mayEnd' : Bool} {cs rest : List Char} (deep : depth ≤ depth')
    (ends : mayEnd = true → mayEnd' = true) (inside : cs <:+ text)
    (read : pairs? d (fuel + 1) depth draft mayEnd cs = some (result, rest)) :
    pairs? d' (fuel + 1) depth' draft mayEnd' cs = some (result, rest) := by
  unfold pairs? at read ⊢
  split at read
  · rw [ends rfl]
    exact read
  · obtain ⟨⟨path, behind⟩, key, more⟩ := Option.bind_eq_some_iff.1 read
    -- Where the stricter dialect does not let the table end, a brace would have to start a key.
    have noEnd : ∀ tail, cs ≠ '}' :: tail := by
      rintro tail rfl
      rw [key?_brace] at key
      cases key
    have passed := (skipInline_suffix d behind).trans ((key?_suffix key).trans inside)
    split
    · exact absurd rfl (noEnd _)
    · simp only [key?_within h key, Option.bind_eq_bind, Option.bind_some]
      dsimp only at more
      split at more
      · rename_i equals
        rw [equals] at passed
        obtain ⟨⟨v, behindValue⟩, value, more⟩ := Option.bind_eq_some_iff.1 more
        obtain ⟨joined, assigned, more⟩ := Option.bind_eq_some_iff.1 more
        dsimp only at assigned more
        have start := (skipInline_suffix d _).trans ((List.suffix_cons _ _).trans passed)
        have next := (skipInline_suffix d behindValue).trans (((valuesLeave d _).value value).trans start)
        -- The value starts at the same place for both, since something solid stands there.
        have gap := skipInline_within h (solid_behind (value?_solid value))
        simp only [skipInline_sign h equals (by decide), gap, ih.value deep start value,
          Draft.assign_within h assigned, Option.bind_some]
        split at more
        · rename_i comma
          rw [comma] at next
          have gap' := skipInline_within h (pairs?_solid more)
          simp only [skipInline_sign h comma (by decide), gap']
          exact ih.pairs deep h.freeInlineTables
            ((skipInline_suffix d _).trans ((List.suffix_cons _ _).trans next)) more
        · rename_i brace
          simp only [skipInline_sign h brace (by decide)]
          exact more
        · cases more
      · cases more

theorem valuesWithin (h : d.Within d' text) (fuel : Nat) : ValuesWithin d d' text fuel := by
  induction fuel with
  | zero =>
    constructor
    · intro depth depth' cs rest v _ _ read
      cases read
    · intro depth depth' cs rest vs _ _ read
      cases read
    · intro depth depth' draft result mayEnd mayEnd' cs rest _ _ _ read
      cases read
  | succ fuel ih => exact ⟨value?_within h ih, items?_within ih, pairs?_within h ih⟩

/-! ## Lines -/

theorem header?_within (h : d.Within d' text) {cs rest : List Char} {path : List String}
    (read : header? d cs = some (path, rest)) : header? d' cs = some (path, rest) := by
  unfold header? at read ⊢
  obtain ⟨⟨name, behind⟩, key, more⟩ := Option.bind_eq_some_iff.1 read
  simp only [key?_within h key, Option.bind_eq_bind, Option.bind_some]
  exact more

theorem elementHeader?_within (h : d.Within d' text) {cs rest : List Char} {path : List String}
    (read : elementHeader? d cs = some (path, rest)) : elementHeader? d' cs = some (path, rest) := by
  unfold elementHeader? at read ⊢
  obtain ⟨⟨name, behind⟩, header, more⟩ := Option.bind_eq_some_iff.1 read
  simp only [header?_within h header, Option.bind_eq_bind, Option.bind_some]
  exact more

theorem line?_within (h : d.Within d' text) {progress result : Progress} {cs rest : List Char}
    (inside : cs <:+ text) (read : line? d progress cs = some (result, rest)) :
    line? d' progress cs = some (result, rest) := by
  unfold line? at read ⊢
  split at read
  · obtain ⟨⟨path, behind⟩, header, more⟩ := Option.bind_eq_some_iff.1 read
    simp only [elementHeader?_within h header, Option.bind_eq_bind, Option.bind_some]
    exact more
  · obtain ⟨⟨path, behind⟩, header, more⟩ := Option.bind_eq_some_iff.1 read
    simp only [header?_within h header, Option.bind_eq_bind, Option.bind_some]
    exact more
  · obtain ⟨⟨path, behind⟩, key, more⟩ := Option.bind_eq_some_iff.1 read
    have passed := (key?_suffix key).trans inside
    simp only [key?_within h key, Option.bind_eq_bind, Option.bind_some]
    dsimp only at more
    split at more
    · obtain ⟨⟨v, behindValue⟩, value, more⟩ := Option.bind_eq_some_iff.1 more
      obtain ⟨root, assigned, more⟩ := Option.bind_eq_some_iff.1 more
      have start := (skipBlanks_suffix _).trans ((List.suffix_cons _ _).trans passed)
      have assigned' := Draft.update_within (fun _ _ => Draft.assign_within h) assigned
      simp only [(valuesWithin h _).value h.maxDepth start value, assigned', Option.bind_some]
      exact more
    · cases more

theorem lines?_within (h : d.Within d' text) {fuel : Nat} {progress result : Progress} {cs : List Char}
    (inside : cs <:+ text) (read : lines? d fuel progress cs = some result) :
    lines? d' fuel progress cs = some result := by
  induction fuel generalizing progress cs with
  | zero => cases read
  | succ fuel ih =>
    have start := (skipLines_suffix (cs.length + 1) cs).trans inside
    unfold lines? at read ⊢
    split at read
    · exact read
    · obtain ⟨⟨progress', rest⟩, line, more⟩ := Option.bind_eq_some_iff.1 read
      simp only [line?_within h start line, Option.bind_eq_bind, Option.bind_some]
      exact ih ((line?_suffix line).trans start) more

/-- A document that is read in a dialect is read in a freer one, and as the same entries. -/
theorem parse?_within {text : String} (h : d.Within d' text.toList) {entries : Entries}
    (read : parse? d text = some entries) : parse? d' text = some entries := by
  unfold parse? at read ⊢
  obtain ⟨progress, lines, same⟩ := Option.map_eq_some_iff.1 read
  refine Option.map_eq_some_iff.2 ⟨progress, lines?_within h ?_ lines, same⟩
  split
  · rename_i mark
    rw [mark]
    exact List.suffix_cons _ _
  · exact List.suffix_rfl

/-! ## What both versions read alike -/

/-- Version 1.0, where what the two versions settle differently is settled as in version 1.1: the ends of lines in a
string stay as they are, and a number too far below zero is refused. -/
def Dialect.common : Dialect := { Dialect.v1_0 with keepsLineEnds := true, reachesMinusInfinity := false }

theorem Dialect.common_within (text : List Char) : Dialect.common.Within .v1_1 text where
  moreEscapes := by decide
  freeInlineTables := by decide
  shortTimes := by decide
  keepsLineEnds := .inl rfl
  joinsPassed := by decide
  reachesMinusInfinity := .inl id
  maxDepth := by decide
  maxParts := by
    intro most' limit
    cases limit

/-- A text in which neither of these two matters. -/
structure Plain (text : List Char) : Prop where
  lineEnds : OneLineEnd text
  reach : InReach .v1_0 text

/-- Then it does not matter how they are settled. -/
theorem Plain.within {text : List Char} (plain : Plain text) : Dialect.v1_0.Within .common text where
  moreEscapes := id
  freeInlineTables := id
  shortTimes := id
  keepsLineEnds := .inr plain.lineEnds
  joinsPassed := id
  reachesMinusInfinity := .inr plain.reach
  maxDepth := Nat.le_refl _
  maxParts most same := ⟨most, same, Nat.le_refl _⟩

end MqttLink.Toml
