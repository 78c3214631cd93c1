import Mathlib.Data.List.TakeWhile
import RecordAddress.Pointer.Parsing
import RecordAddress.Proofs.Grammar

/-! Tokens as they are written. The checks of a text and of its tokens are told without the recursions that
carry them out. -/

namespace RecordAddress

namespace MemberName

theorem inner_of_alphanumeric {c : Char} (alphanumeric : c.isAlphanum = true) : isInner c = true := by
  simp [isInner, alphanumeric]

theorem endsName_iff {chars : List Char} :
    endsName chars = true ↔ (∀ c ∈ chars, isInner c = true) ∧ ∀ c, chars.getLast? = some c → c.isAlphanum = true := by
  fun_induction endsName chars with
  | case1 => simp
  | case2 last => simpa using inner_of_alphanumeric
  | case3 first rest noLast ih =>
    obtain ⟨second, rest, rfl⟩ := List.exists_cons_of_ne_nil noLast
    simp only [Bool.and_eq_true, ih, List.getLast?_cons_cons, List.forall_mem_cons, and_assoc]

theorem allowed_iff {name : String} :
    allowed name = true ↔
      name ≠ "" ∧ (∀ c ∈ name.toList, isInner c = true) ∧
        (∀ c, name.toList.head? = some c → c.isAlphanum = true) ∧
        ∀ c, name.toList.getLast? = some c → c.isAlphanum = true := by
  rw [allowed, ne_eq, ← String.toList_eq_nil_iff]
  cases name.toList with
  | nil => simp
  | cons first rest =>
    rw [Bool.and_eq_true, endsName_iff]
    constructor
    · rintro ⟨alphanumeric, inner, last⟩
      refine ⟨by simp, List.forall_mem_cons.mpr ⟨inner_of_alphanumeric alphanumeric, inner⟩, by simpa using alphanumeric, ?_⟩
      cases rest with
      | nil => simpa using alphanumeric
      | cons second rest => simpa using last
    · rintro ⟨-, inner, alphanumeric, last⟩
      refine ⟨alphanumeric first rfl, (List.forall_mem_cons.mp inner).2, ?_⟩
      cases rest with
      | nil => simp
      | cons second rest => simpa using last

theorem inner_of_allowed {name : String} (isAllowed : allowed name = true) :
    name ≠ "" ∧ ∀ c ∈ name.toList, isInner c = true := by
  obtain ⟨named, inner, -⟩ := allowed_iff.mp isAllowed
  exact ⟨named, inner⟩

theorem no_colon {name : String} (isAllowed : allowed name = true) : name ≠ "" ∧ ':' ∉ name.toList := by
  obtain ⟨named, inner⟩ := inner_of_allowed isAllowed
  exact ⟨named, fun within => absurd (inner _ within) (by decide)⟩

/-- Other characters than inner ones are in no name, be it empty or not. -/
theorem excluded_if_named {name : String} {c : Char} (strange : isInner c = false) (free : name = "" ∨ allowed name = true) :
    c ∉ name.toList := by
  rcases free with rfl | isAllowed
  · simp
  · intro within
    rw [(inner_of_allowed isAllowed).2 c within] at strange
    cases strange

theorem no_colon_if_named {name : String} (free : name = "" ∨ allowed name = true) : ':' ∉ name.toList :=
  excluded_if_named (by decide) free

end MemberName

namespace Token

theorem badEscape?_eq_none {chars : List Char} :
    badEscape? chars = none ↔
      ∀ before after, chars = before ++ '~' :: after → ∃ rest, after = '0' :: rest ∨ after = '1' :: rest := by
  fun_induction badEscape? chars with
  | case1 => simp
  | case2 =>
    simp only [reduceCtorEq, false_iff]
    intro escapes
    obtain ⟨rest, zero | one⟩ := escapes [] [] rfl
    · cases zero
    · cases one
  | case3 char rest escape ih =>
    rw [ih]
    constructor
    · rintro escapes (_ | ⟨tilde, _ | ⟨second, before⟩⟩) after chars
      · cases chars
        exact ⟨rest, by simpa using escape⟩
      · cases chars
        simp at escape
      · cases chars
        exact escapes before after rfl
    · rintro escapes before after rfl
      exact escapes ('~' :: char :: before) after rfl
  | case4 char rest noEscape =>
    simp only [reduceCtorEq, false_iff]
    intro escapes
    obtain ⟨_, same | same⟩ := escapes [] (char :: rest) rfl
    · cases same
      simp at noEscape
    · cases same
      simp at noEscape
  | case5 char rest notLast notTilde ih =>
    rw [ih]
    constructor
    · rintro escapes (_ | ⟨first, before⟩) after chars
      · cases chars
        cases rest with
        | nil => exact (notLast rfl rfl).elim
        | cons second rest => exact (notTilde second rest rfl rfl).elim
      · cases chars
        exact escapes before after rfl
    · rintro escapes before after rfl
      exact escapes (char :: before) after rfl

theorem split_eq_ok {text : String} {tokens : List String} :
    split text = .ok tokens ↔ WellEscaped text ∧ (text = "" ∨ text.toList.head? = some '/') ∧ tokens = unescaped text := by
  unfold split unescaped
  rw [WellEscaped, ← badEscape?_eq_none]
  cases escapes : badEscape? text.toList with
  | some found => simp
  | none =>
    rw [← String.toList_eq_nil_iff]
    cases chars : text.toList with
    | nil => simp [eq_comm]
    | cons first rest =>
      by_cases slash : first = '/'
      · subst slash
        simp [eq_comm]
      · simp [slash]

/-! Splitting undoes joining. -/

variable {piece : List Char}

theorem unescape_escape (chars : List Char) : unescapeChars (escapeChars chars) = chars := by
  fun_induction escapeChars chars with
  | case1 => rfl
  | case2 rest ih => rw [unescapeChars, ih]
  | case3 rest ih => rw [unescapeChars, ih]
  | case4 char rest noTilde noSlash ih =>
    rw [unescapeChars, ih]
    · rintro _ rfl
      exact absurd rfl noTilde
    · rintro _ rfl
      exact absurd rfl noTilde

theorem no_slash_in_escape (chars : List Char) : '/' ∉ escapeChars chars := by
  fun_induction escapeChars chars with
  | case1 => simp
  | case2 rest ih => simp [ih]
  | case3 rest ih => simp [ih]
  | case4 char rest noTilde noSlash ih =>
    intro within
    rcases List.mem_cons.mp within with same | later
    · exact noSlash same.symm
    · exact ih later

theorem badEscape?_escape_append (chars rest : List Char) : badEscape? (escapeChars chars ++ rest) = badEscape? rest := by
  fun_induction escapeChars chars with
  | case1 => rfl
  | case2 later ih => simpa [badEscape?] using ih
  | case3 later ih => simpa [badEscape?] using ih
  | case4 char later noTilde noSlash ih =>
    rw [List.cons_append, badEscape?, ih]
    · rintro rfl
      exact absurd rfl noTilde
    · rintro _ _ rfl
      exact absurd rfl noTilde

theorem splitAtSlashes_of_none (none : '/' ∉ piece) : splitAtSlashes piece = [piece] := by
  induction piece with
  | nil => rfl
  | cons first rest ih =>
    obtain ⟨other, later⟩ := List.ne_and_not_mem_of_not_mem_cons none
    rw [splitAtSlashes, ih later]
    exact Ne.symm other

theorem splitAtSlashes_append (none : '/' ∉ piece) (rest : List Char) :
    splitAtSlashes (piece ++ '/' :: rest) = piece :: splitAtSlashes rest := by
  induction piece with
  | nil => rfl
  | cons first later ih =>
    obtain ⟨other, noneLater⟩ := List.ne_and_not_mem_of_not_mem_cons none
    rw [List.cons_append, splitAtSlashes, ih noneLater]
    exact Ne.symm other

theorem toList_join (token : String) (rest : List String) :
    (join (token :: rest)).toList = '/' :: (escapeChars token.toList ++ (join rest).toList) := by
  simp [join, escape]

theorem toList_join_eq_flatMap (tokens : List String) :
    (join tokens).toList = tokens.flatMap fun token => '/' :: escapeChars token.toList := by
  induction tokens with
  | nil => rfl
  | cons token rest ih => simp [toList_join, ih]

theorem join_append (tokens more : List String) : join (tokens ++ more) = join tokens ++ join more := by
  induction tokens with
  | nil => simp [join]
  | cons first rest ih => simp [join, ih, String.append_assoc]

theorem join_snoc (tokens : List String) (token : String) : join (tokens ++ [token]) = join tokens ++ "/" ++ escape token := by
  simp [join_append, join, String.append_assoc]

theorem escapeChars_of_plain {chars : List Char} (plain : ∀ char ∈ chars, char ≠ '~' ∧ char ≠ '/') :
    escapeChars chars = chars := by
  fun_induction escapeChars chars with
  | case1 => rfl
  | case2 rest => exact absurd rfl (plain '~' List.mem_cons_self).1
  | case3 rest => exact absurd rfl (plain '/' List.mem_cons_self).2
  | case4 char rest _ _ ih => rw [ih fun later within => plain later (List.mem_cons_of_mem _ within)]

/-- A token without tildes and slashes is written as it is. -/
theorem escape_of_plain {token : String} (plain : ∀ char ∈ token.toList, char ≠ '~' ∧ char ≠ '/') : escape token = token := by
  rw [escape, escapeChars_of_plain plain, String.ofList_toList]

/-- Each token is written after a slash, and no other slashes are. -/
theorem count_slashes (tokens : List String) : (join tokens).toList.count '/' = tokens.length := by
  induction tokens with
  | nil => rfl
  | cons token rest ih =>
    rw [toList_join, List.count_cons_self, List.count_append, List.count_eq_zero_of_not_mem (no_slash_in_escape _), ih,
      Nat.zero_add, List.length_cons]

theorem badEscape?_join (tokens : List String) : badEscape? (join tokens).toList = none := by
  induction tokens with
  | nil => rfl
  | cons token rest ih =>
    rw [toList_join]
    have slash : badEscape? ('/' :: (escapeChars token.toList ++ (join rest).toList)) =
        badEscape? (escapeChars token.toList ++ (join rest).toList) := rfl
    rw [slash, badEscape?_escape_append, ih]

theorem splitAtSlashes_join (token : String) (rest : List String) :
    splitAtSlashes (escapeChars token.toList ++ (join rest).toList) =
      (token :: rest).map fun token => escapeChars token.toList := by
  induction rest generalizing token with
  | nil =>
    rw [join, String.toList_empty, List.append_nil]
    exact splitAtSlashes_of_none (no_slash_in_escape _)
  | cons next rest ih =>
    rw [toList_join, splitAtSlashes_append (no_slash_in_escape _), ih next]
    rfl

/-- Tokens that are joined can be split again. -/
theorem split_join (tokens : List String) : split (join tokens) = .ok tokens := by
  unfold split
  rw [badEscape?_join]
  cases tokens with
  | nil => rfl
  | cons token rest =>
    rw [toList_join]
    simp only [splitAtSlashes_join, List.map_map]
    congr 1
    apply List.map_id''
    intro token
    simp [unescape_escape]

private theorem splitAtSlashes_cons {first : Char} (other : first ≠ '/') (rest : List Char) :
    ∃ piece pieces, splitAtSlashes rest = piece :: pieces ∧ splitAtSlashes (first :: rest) = (first :: piece) :: pieces := by
  have some : splitAtSlashes rest ≠ [] := by
    cases rest with
    | nil => exact nofun
    | cons second rest =>
      by_cases slash : second = '/'
      · simp [splitAtSlashes, slash]
      · rw [splitAtSlashes]
        · split <;> exact nofun
        · exact slash
  obtain ⟨piece, pieces, split⟩ := List.exists_cons_of_ne_nil some
  refine ⟨piece, pieces, split, ?_⟩
  rw [splitAtSlashes, split]
  exact other

/-- Pieces whose tildes all open escapes are what they are unescaped and escaped again to. -/
private theorem rejoin_pieces {chars : List Char} (escaped : badEscape? chars = none) :
    (splitAtSlashes chars).flatMap (fun piece => '/' :: escapeChars (unescapeChars piece)) = '/' :: chars := by
  fun_induction badEscape? chars with
  | case1 => rfl
  | case2 | case4 => cases escaped
  | case3 char rest escape ih =>
    have noSlash : char ≠ '/' := by
      rintro rfl
      simp at escape
    obtain ⟨_, _, split, short⟩ := splitAtSlashes_cons noSlash rest
    obtain ⟨piece, pieces, whole, long⟩ := splitAtSlashes_cons (by decide : '~' ≠ '/') (char :: rest)
    cases whole.symm.trans short
    have rejoined := ih escaped
    rw [split] at rejoined
    rw [long]
    rcases escape with rfl | rfl <;> simpa [unescapeChars, escapeChars] using rejoined
  | case5 char rest notLast notTilde ih =>
    have noTilde : char ≠ '~' := by
      rintro rfl
      cases rest with
      | nil => exact notLast rfl rfl
      | cons second rest => exact notTilde second rest rfl rfl
    have rejoined := ih escaped
    by_cases slash : char = '/'
    · subst slash
      simpa [splitAtSlashes, unescapeChars, escapeChars] using rejoined
    · obtain ⟨piece, pieces, split, long⟩ := splitAtSlashes_cons slash rest
      rw [split] at rejoined
      rw [long]
      simpa [unescapeChars, escapeChars, noTilde, slash] using rejoined

/-- Tokens that were split off are joined again to the text that they come from. -/
theorem join_of_split {text : String} {tokens : List String} (pieces : split text = .ok tokens) : join tokens = text := by
  rw [← String.toList_inj, toList_join_eq_flatMap]
  unfold split at pieces
  cases escaped : badEscape? text.toList with
  | some found => simp [escaped] at pieces
  | none =>
    rw [escaped] at pieces
    cases whole : text.toList with
    | nil =>
      simp only [whole, Except.ok.injEq] at pieces
      simp [← pieces]
    | cons first rest =>
      rw [whole] at pieces escaped
      by_cases slash : first = '/'
      · subst slash
        obtain rfl := Except.ok.inj pieces
        have later : badEscape? rest = none := escaped
        simpa [List.flatMap_map] using rejoin_pieces later
      · simp at pieces

end Token

namespace ArrayIndex

theorem ofText_eq_ok {dashAllowed : Bool} {token : String} {index : ArrayIndex} :
    ofText dashAllowed token = .ok index ↔
      (token = "-" ∧ dashAllowed = true ∧ index = .afterLast) ∨
      (isDecimal token.toList = true ∧ token.toList.length ≤ digitLimit ∧
        index = .position (decimalValue token.toList)) := by
  have noDecimal : isDecimal "-".toList = false := rfl
  unfold ofText position?
  by_cases dash : token = "-"
  · subst dash
    rw [noDecimal]
    cases dashAllowed with
    | false => simp only [Bool.false_eq_true, ite_true, ite_false, reduceCtorEq, false_and, and_false, or_false]
    | true =>
      simp only [Bool.false_eq_true, ite_true, Except.ok.injEq, true_and, false_and, or_false]
      exact eq_comm
  · cases decimal : isDecimal token.toList with
    | false => simp [dash, Except.map]
    | true =>
      by_cases short : token.toList.length ≤ digitLimit
      · simp only [dash, ite_true, ite_false, short, Except.map, Except.ok.injEq, false_and, true_and, false_or]
        exact eq_comm
      · simp only [dash, ite_true, ite_false, short, Except.map, reduceCtorEq, false_and, and_false, or_false]

theorem isDecimal_of_digits {first : Char} {rest : List Char} (noZero : first ≠ '0') (digit : first.isDigit = true)
    (digits : ∀ char ∈ rest, char.isDigit = true) : isDecimal (first :: rest) = true := by
  rw [isDecimal]
  · simpa [noZero, digit] using digits
  · rintro rfl
    exact absurd rfl noZero

theorem ofText_of_long {token : String} (decimal : isDecimal token.toList = true)
    (long : digitLimit < token.toList.length) (dashAllowed : Bool) :
    ofText dashAllowed token = .error .tooManyDigits := by
  have noDecimal : isDecimal "-".toList = false := rfl
  have noDash : token ≠ "-" := by
    rintro rfl
    rw [noDecimal] at decimal
    cases decimal
  simp only [ofText, position?, noDash, decimal, if_true, if_false, Nat.not_le.mpr long, Except.map]

theorem long_of_ofText {dashAllowed : Bool} {token : String} (read : ofText dashAllowed token = .error .tooManyDigits) :
    isDecimal token.toList = true ∧ digitLimit < token.toList.length := by
  unfold ofText position? at read
  split at read
  · split at read <;> cases read
  · split at read
    next decimal =>
      split at read
      · cases read
      next long => exact ⟨decimal, Nat.lt_of_not_le long⟩
    · cases read

end ArrayIndex

/-- What stands before the first separator and after it are both told by the whole. -/
theorem cut_inj {separator : Char} {before other after rest : List Char} (none : separator ∉ before)
    (otherNone : separator ∉ other) (same : before ++ separator :: after = other ++ separator :: rest) :
    before = other ∧ after = rest := by
  induction before generalizing other with
  | nil =>
    cases other with
    | nil => exact ⟨rfl, (List.cons.inj same).2⟩
    | cons first other => exact absurd (List.cons.inj same).1 (List.ne_of_not_mem_cons otherNone)
  | cons first before ih =>
    cases other with
    | nil => exact absurd (List.cons.inj same).1.symm (List.ne_of_not_mem_cons none)
    | cons second other =>
      obtain ⟨rfl, further⟩ := List.cons.inj same
      obtain ⟨rfl, rfl⟩ := ih (List.not_mem_of_not_mem_cons none) (List.not_mem_of_not_mem_cons otherNone) further
      exact ⟨rfl, rfl⟩

namespace Pointer

private theorem split_at_colon {chars rest : List Char} {first : Char}
    (cut : chars.dropWhile (· ≠ ':') = first :: rest) :
    chars = chars.takeWhile (· ≠ ':') ++ ':' :: rest ∧ ':' ∉ chars.takeWhile (· ≠ ':') := by
  have colon : first = ':' := by
    have stopped := List.head?_dropWhile_not (· ≠ ':') chars
    rw [cut] at stopped
    simpa using stopped
  subst colon
  constructor
  · rw [← cut]
    exact List.takeWhile_append_dropWhile.symm
  · intro within
    simpa using List.mem_takeWhile_imp within

private theorem cut_at_colon {before : List Char} (none : ':' ∉ before) (after : List Char) :
    (before ++ ':' :: after).takeWhile (· ≠ ':') = before ∧ (before ++ ':' :: after).dropWhile (· ≠ ':') = ':' :: after := by
  have going : ∀ char ∈ before, decide (char ≠ ':') = true := by
    intro char within
    simp only [ne_eq, decide_not, Bool.not_eq_true', decide_eq_false_iff_not]
    rintro rfl
    exact none within
  rw [List.takeWhile_append_of_pos going, List.dropWhile_append_of_pos going]
  simp

theorem subtypeAndName?_eq_some {token subtype name : String} :
    subtypeAndName? token = some (subtype, name) ↔
      token = subtype ++ ":" ++ name ∧ subtype ≠ "" ∧ ':' ∉ subtype.toList ∧ name ≠ "" := by
  constructor
  · intro parts
    simp only [subtypeAndName?] at parts
    split at parts
    next first second rest cut =>
      obtain ⟨whole, none⟩ := split_at_colon cut
      split at parts
      · cases parts
      next present =>
        cases parts
        refine ⟨?_, ?_, by simpa using none, by simp⟩
        · rw [← String.toList_inj]
          simpa using whole
        · simpa using present
    next => cases parts
  · rintro ⟨rfl, present, noColon, named⟩
    have chars : (subtype ++ ":" ++ name).toList = subtype.toList ++ ':' :: name.toList := by simp
    have cut := cut_at_colon noColon name.toList
    simp only [subtypeAndName?, chars, cut]
    have first : ∃ char rest, name.toList = char :: rest := by
      apply List.exists_cons_of_ne_nil
      simpa using named
    obtain ⟨char, rest, letters⟩ := first
    simp only [letters]
    rw [if_neg (by simpa using present), ← letters]
    simp

theorem no_subtypeAndName? {token : String} (noColon : ':' ∉ token.toList) : subtypeAndName? token = none := by
  cases parts : subtypeAndName? token with
  | none => rfl
  | some both =>
    obtain ⟨rfl, -⟩ := subtypeAndName?_eq_some.mp parts
    simp at noColon

end Pointer
end RecordAddress
