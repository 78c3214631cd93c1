import RecordAddress.Proofs.Tokens

/-! Splitting and joining undo each other. Escapes are two replacements, one after the other, and their order matters:
tildes are replaced first when a token is written, and last when it is read. -/

namespace RecordAddress.Token

/-- Puts other characters in the place of every occurrence of the old ones, from the left. What was put there is not
searched again. -/
def replaceAll (old new : List Char) : List Char → List Char
  | [] => []
  | char :: rest =>
    if old.isPrefixOf (char :: rest) then new ++ replaceAll old new (rest.drop (old.length - 1))
    else char :: replaceAll old new rest
termination_by chars => chars.length
decreasing_by
  · rw [List.length_drop]
    exact Nat.lt_succ_of_le (Nat.sub_le _ _)
  · exact Nat.lt_succ_self _

variable {new chars rest : List Char} {first second char other : Char}

theorem replaceAll_nil (old new : List Char) : replaceAll old new [] = [] := by
  rw [replaceAll]

theorem replaceAll_one (chars : List Char) :
    replaceAll [first] new chars = chars.flatMap fun char => if char = first then new else [char] := by
  induction chars with
  | nil => exact replaceAll_nil _ _
  | cons char rest ih =>
    rw [replaceAll, List.flatMap_cons, ← ih]
    by_cases same : char = first
    · simp [same]
    · simp [same, Ne.symm same]

theorem replaceAll_two (rest : List Char) :
    replaceAll [first, second] new (first :: second :: rest) = new ++ replaceAll [first, second] new rest := by
  rw [replaceAll]
  simp

/-- Nothing is replaced where the two characters do not follow each other. -/
theorem replaceAll_two_of_apart (apart : char = first → rest.head? ≠ some second) :
    replaceAll [first, second] new (char :: rest) = char :: replaceAll [first, second] new rest := by
  rw [replaceAll, if_neg]
  intro found
  cases rest with
  | nil => simp at found
  | cons next rest =>
    simp only [List.isPrefixOf_cons_cons, List.isPrefixOf_nil_left, Bool.and_true, Bool.and_eq_true, beq_iff_eq] at found
    exact apart found.1.symm (congrArg some found.2.symm)

/-- The first character is the new one or what it was before. -/
theorem head?_replaceAll_two (isOther : other ≠ char) (before : chars.head? ≠ some char) :
    (replaceAll [first, second] [other] chars).head? ≠ some char := by
  cases chars with
  | nil => rwa [replaceAll_nil]
  | cons next rest =>
    rw [replaceAll]
    split
    · simpa using isOther
    · exact before

theorem escapeChars_eq_replaceAll (chars : List Char) :
    escapeChars chars = replaceAll ['/'] ['~', '1'] (replaceAll ['~'] ['~', '0'] chars) := by
  rw [escapeChars_eq_flatMap, replaceAll_one, replaceAll_one]

/-- What was a slash before is no part of another escape, so that reading from the left comes to the same as replacing
the escapes of slashes first and those of tildes then. -/
theorem unescapeChars_eq_replaceAll (chars : List Char) :
    unescapeChars chars = replaceAll ['~', '0'] ['~'] (replaceAll ['~', '1'] ['/'] chars) := by
  fun_induction unescapeChars chars with
  | case1 => simp only [replaceAll_nil]
  | case2 rest ih =>
    have kept : replaceAll ['~', '1'] ['/'] ('~' :: '0' :: rest) = '~' :: '0' :: replaceAll ['~', '1'] ['/'] rest := by
      rw [replaceAll_two_of_apart (by simp), replaceAll_two_of_apart (by simp)]
    rw [kept, replaceAll_two, ih]
    rfl
  | case3 rest ih =>
    rw [replaceAll_two, List.singleton_append, replaceAll_two_of_apart (by simp), ih]
  | case4 char rest noTilde noSlash ih =>
    -- replacing slashes first does not put a digit behind a tilde that had none there
    have noEscape : char = '~' → rest.head? ≠ some '0' ∧ rest.head? ≠ some '1' := by
      rintro rfl
      cases rest with
      | nil => simp
      | cons next rest =>
        simp only [List.head?_cons, ne_eq, Option.some.injEq]
        exact ⟨fun zero => noTilde rest rfl (zero ▸ rfl), fun one => noSlash rest rfl (one ▸ rfl)⟩
    rw [replaceAll_two_of_apart fun tilde => (noEscape tilde).2, replaceAll_two_of_apart, ih]
    exact fun tilde => head?_replaceAll_two (by decide) (noEscape tilde).1

theorem splitAtSlashes_eq_splitOn (chars : List Char) : splitAtSlashes chars = chars.splitOn '/' := by
  fun_induction splitAtSlashes chars with
  | case1 => rfl
  | case2 rest ih => simp [ih, List.splitOn_cons_eq_if_modifyHead]
  | case3 char rest noSlash nothing ih =>
    rw [nothing] at ih
    exact absurd ih.symm (List.splitOn_ne_nil '/' rest)
  | case4 char rest noSlash piece pieces whole ih =>
    have other : char ≠ '/' := noSlash
    rw [List.splitOn_cons_eq_if_modifyHead, ← ih, whole, if_neg (by simpa using other)]
    rfl

theorem wellEscaped_iff {text : String} :
    WellEscaped text ↔
      ∀ before after, text.toList = before ++ '~' :: after → after.head? = some '0' ∨ after.head? = some '1' := by
  simp only [WellEscaped, exists_or, ← List.head?_eq_some_iff]

theorem split_fails_iff {text : String} :
    (∃ fault, split text = .error fault) ↔
      (text ≠ "" ∧ text.toList.head? ≠ some '/') ∨
        ∃ before after, text.toList = before ++ '~' :: after ∧ after.head? ≠ some '0' ∧ after.head? ≠ some '1' := by
  have succeeds : (∃ tokens, split text = .ok tokens) ↔ (text = "" ∨ text.toList.head? = some '/') ∧ WellEscaped text := by
    simp only [split_eq_ok, exists_and_left, exists_eq, and_comm, true_and]
  have fails : (∃ fault, split text = .error fault) ↔ ¬ ∃ tokens, split text = .ok tokens := by
    cases split text <;> simp
  rw [fails, succeeds, wellEscaped_iff]
  simp only [not_and_or, not_or, not_forall, exists_prop, ne_eq]

/-- What a piece between slashes stands for. -/
def unescape (piece : List Char) : String :=
  String.ofList (replaceAll ['~', '0'] ['~'] (replaceAll ['~', '1'] ['/'] piece))

theorem unescaped_eq_map {text : String} (begins : text = "" ∨ text.toList.head? = some '/') :
    unescaped text = (text.toList.splitOn '/').tail.map unescape := by
  rcases begins with rfl | slash
  · rfl
  · obtain ⟨rest, chars⟩ := List.head?_eq_some_iff.mp slash
    have tail : (text.toList.splitOn '/').tail = splitAtSlashes rest := by
      rw [chars, List.splitOn_cons_eq_if_modifyHead, splitAtSlashes_eq_splitOn]
      rfl
    rw [tail, unescaped, chars]
    simp only [unescapeChars_eq_replaceAll]
    rfl

/-- Texts and lists of tokens stand for each other, where each token is written after a slash, with its tildes replaced
first and its slashes then. A text stands for none if it starts with something else than a slash, or if a tilde in it
opens no escape. What stands between the slashes is read with the escapes of slashes replaced first. -/
theorem splitting_undoes_joining :
    (∀ tokens, split (join tokens) = .ok tokens) ∧
    (∀ text tokens, split text = .ok tokens → join tokens = text) ∧
    (∀ text, (∃ fault, split text = .error fault) ↔
      (text ≠ "" ∧ text.toList.head? ≠ some '/') ∨
        ∃ before after, text.toList = before ++ '~' :: after ∧ after.head? ≠ some '0' ∧ after.head? ≠ some '1') ∧
    (∀ tokens, (join tokens).toList = tokens.flatMap fun token => '/' :: (escape token).toList) ∧
    (∀ token, (escape token).toList = replaceAll ['/'] ['~', '1'] (replaceAll ['~'] ['~', '0'] token.toList)) ∧
    ∀ text tokens, split text = .ok tokens → tokens = (text.toList.splitOn '/').tail.map unescape := by
  refine ⟨split_join, fun _ _ => join_of_split, fun _ => split_fails_iff, ?joined, ?escaped, ?read⟩
  case joined =>
    intro tokens
    simp only [toList_join_eq_flatMap, escape, String.toList_ofList]
  case escaped =>
    intro token
    rw [escape, String.toList_ofList, escapeChars_eq_replaceAll]
  case read =>
    intro text tokens pieces
    obtain ⟨-, begins, rfl⟩ := split_eq_ok.mp pieces
    exact unescaped_eq_map begins

/-- A slash and a tilde inside tokens come through, also where the tilde stands before a digit, and so does an empty
token. -/
theorem escaped_tokens_come_through :
    let tokens := ["a/b", "", "~1"]
    split "/a~1b//~01" = .ok tokens ∧ join tokens = "/a~1b//~01" ∧
      tokens = ("/a~1b//~01".toList.splitOn '/').tail.map unescape := by
  intro tokens
  have pieces : split "/a~1b//~01" = .ok tokens := rfl
  obtain ⟨-, joins, -, -, -, reads⟩ := splitting_undoes_joining
  exact ⟨pieces, joins _ _ pieces, reads _ _ pieces⟩

end RecordAddress.Token
