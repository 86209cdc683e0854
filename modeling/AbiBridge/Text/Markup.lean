/-!
Text inside markup.

Messages and table cells are written with tags in square brackets. `escapeMarkup` puts a
backslash in front of everything in a text that would be read as a tag: an opening bracket, a
lower-case letter or one of `#`, `/` and `@`, and then no further opening bracket up to the next
closing one. Backslashes in front of such a bracket are doubled, and a single one at the end of
the text is too. `escapeMarkupBefore` does it for a text that goes on, whose last tag may end in
what follows.
-/

namespace AbiBridge.Text

/-- Whether a tag may begin with a character. -/
def isTagStart (c : Char) : Bool :=
  ('a' ≤ c && c ≤ 'z') || c == '#' || c == '/' || c == '@'

/-- The characters up to and with the next closing bracket, if no opening one comes before it,
and the rest. -/
def untilClosing? : List Char → Option (List Char × List Char)
  | [] => none
  | c :: r =>
      if c == ']' then some ([c], r)
      else if c == '[' then none
      else (untilClosing? r).map fun (inside, rest) => (c :: inside, rest)

/-- The characters of a tag behind its opening bracket, and the rest. -/
def tag? : List Char → Option (List Char × List Char)
  | [] => none
  | c :: r =>
      if isTagStart c then (untilClosing? r).map fun (inside, rest) => (c :: inside, rest)
      else none

theorem length_untilClosing? {cs inside rest : List Char}
    (h : untilClosing? cs = some (inside, rest)) : rest.length < cs.length := by
  induction cs generalizing inside rest with
  | nil => simp [untilClosing?] at h
  | cons c r ih =>
      rw [untilClosing?] at h
      split at h
      · simp_all
      · split at h
        · simp at h
        · obtain ⟨⟨i, s⟩, hs, he⟩ := Option.map_eq_some_iff.1 h
          have := ih hs
          simp only [Prod.mk.injEq] at he
          simp only [List.length_cons, ← he.2]
          omega

theorem length_tag? {cs inside rest : List Char} (h : tag? cs = some (inside, rest)) :
    rest.length < cs.length := by
  cases cs with
  | nil => simp [tag?] at h
  | cons c r =>
      rw [tag?] at h
      split at h
      · obtain ⟨⟨i, s⟩, hs, he⟩ := Option.map_eq_some_iff.1 h
        have := length_untilClosing? hs
        simp only [Prod.mk.injEq] at he
        simp only [List.length_cons, ← he.2]
        omega
      · simp at h

/-- The text with its tags escaped, `pending` being the number of backslashes just before it and
`next` what follows it. -/
def escapeTags (next : List Char) (pending : Nat) (cs : List Char) : List Char :=
  match cs with
  | [] => List.replicate pending '\\'
  | c :: r =>
      if c == '\\' then escapeTags next (pending + 1) r
      else if c == '[' then
        match h : tag? r with
        | some (inside, rest) =>
            have : rest.length < r.length := length_tag? h
            List.replicate (2 * pending + 1) '\\' ++ '[' :: inside ++ escapeTags next 0 rest
        | none =>
            -- All that is left lies inside of a tag that ends in `next`.
            if (tag? (r ++ next)).isSome then List.replicate (2 * pending + 1) '\\' ++ '[' :: r
            else List.replicate pending '\\' ++ '[' :: escapeTags next 0 r
      else List.replicate pending '\\' ++ c :: escapeTags next 0 r
  termination_by cs.length

/-- Doubles a single backslash at the end of a text. -/
def closeBackslash (cs : List Char) : List Char :=
  match cs.reverse with
  | '\\' :: '\\' :: _ => cs
  | '\\' :: _ => cs ++ ['\\']
  | _ => cs

/-- The text in a form that markup shows as it is. -/
def escapeMarkup (s : String) : String :=
  String.ofList (closeBackslash (escapeTags [] 0 s.toList))

/-- The text in a form that markup shows as it is, where `next` follows it in the same message. -/
def escapeMarkupBefore (next s : String) : String :=
  String.ofList (escapeTags next.toList 0 s.toList)

end AbiBridge.Text
