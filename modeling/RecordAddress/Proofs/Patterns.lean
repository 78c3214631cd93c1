import RecordAddress.Proofs.Tokens

/-! Patterns of texts, and the two of them that names and array indices are told by. What a pattern takes up may depend on
what stands before it and after it, so that anchors are patterns like others. -/

namespace RecordAddress

inductive Pattern where
  /-- One character of one of the ranges. -/
  | oneOf (ranges : List (Char × Char))
  /-- Nothing, where the text starts. -/
  | start
  /-- Nothing, where the text ends or where only a line break follows. -/
  | finish
  | followed (first second : Pattern)
  | either (first second : Pattern)
  | optional (inner : Pattern)
  /-- Any number of times. -/
  | repeated (inner : Pattern)

namespace Pattern

def atLeastOnce (inner : Pattern) : Pattern :=
  inner.followed inner.repeated

/-- Whether a character is in one of the ranges, ends included. -/
def InRanges (ranges : List (Char × Char)) (char : Char) : Prop :=
  ∃ range ∈ ranges, range.1 ≤ char ∧ char ≤ range.2

theorem inRanges_append {ranges more : List (Char × Char)} {char : Char} :
    InRanges (ranges ++ more) char ↔ InRanges ranges char ∨ InRanges more char := by
  simp only [InRanges, List.mem_append, or_and_right, exists_or]

theorem inRanges_single {other char : Char} : InRanges [(other, other)] char ↔ char = other := by
  simp only [InRanges, List.mem_singleton, exists_eq_left]
  constructor
  · exact fun both => Char.le_antisymm both.2 both.1
  · rintro rfl
    exact ⟨Char.le_refl _, Char.le_refl _⟩

/-- Whether the pattern can take up some characters between others. -/
inductive Matches : Pattern → (before taken after : List Char) → Prop where
  | oneOf {ranges : List (Char × Char)} {before after : List Char} {char : Char} (within : InRanges ranges char) :
    Matches (.oneOf ranges) before [char] after
  | start {after : List Char} : Matches .start [] [] after
  | finish {before after : List Char} (ends : after = [] ∨ after = ['\n']) : Matches .finish before [] after
  | followed {first second : Pattern} {before one two after : List Char} (matchesFirst : Matches first before one (two ++ after))
      (matchesSecond : Matches second (before ++ one) two after) :
    Matches (.followed first second) before (one ++ two) after
  | first {first second : Pattern} {before taken after : List Char} (matchesFirst : Matches first before taken after) :
    Matches (.either first second) before taken after
  | second {first second : Pattern} {before taken after : List Char} (matchesSecond : Matches second before taken after) :
    Matches (.either first second) before taken after
  | absent {inner : Pattern} {before after : List Char} : Matches (.optional inner) before [] after
  | present {inner : Pattern} {before taken after : List Char} (matchesInner : Matches inner before taken after) :
    Matches (.optional inner) before taken after
  | done {inner : Pattern} {before after : List Char} : Matches (.repeated inner) before [] after
  | again {inner : Pattern} {before one two after : List Char} (matchesOnce : Matches inner before one (two ++ after))
      (matchesFurther : Matches (.repeated inner) (before ++ one) two after) :
    Matches (.repeated inner) before (one ++ two) after

/-- Whether the pattern can take up a text from its start to its end. -/
def MatchesFully (pattern : Pattern) (text : String) : Prop :=
  pattern.Matches [] text.toList []

variable {pattern first second inner : Pattern} {ranges : List (Char × Char)} {before taken after : List Char}

theorem matches_oneOf : (oneOf ranges).Matches before taken after ↔ ∃ char, taken = [char] ∧ InRanges ranges char := by
  constructor
  · intro matched
    cases matched with
    | oneOf within => exact ⟨_, rfl, within⟩
  · rintro ⟨char, rfl, within⟩
    exact .oneOf within

theorem matches_start : start.Matches before taken after ↔ before = [] ∧ taken = [] := by
  constructor
  · intro matched
    cases matched with
    | start => exact ⟨rfl, rfl⟩
  · rintro ⟨rfl, rfl⟩
    exact .start

theorem matches_finish : finish.Matches before taken after ↔ taken = [] ∧ (after = [] ∨ after = ['\n']) := by
  constructor
  · intro matched
    cases matched with
    | finish ends => exact ⟨rfl, ends⟩
  · rintro ⟨rfl, ends⟩
    exact .finish ends

theorem matches_followed :
    (first.followed second).Matches before taken after ↔
      ∃ one two, taken = one ++ two ∧ first.Matches before one (two ++ after) ∧ second.Matches (before ++ one) two after := by
  constructor
  · intro matched
    cases matched with
    | followed matchesFirst matchesSecond => exact ⟨_, _, rfl, matchesFirst, matchesSecond⟩
  · rintro ⟨one, two, rfl, matchesFirst, matchesSecond⟩
    exact .followed matchesFirst matchesSecond

theorem matches_either :
    (first.either second).Matches before taken after ↔ first.Matches before taken after ∨ second.Matches before taken after := by
  constructor
  · intro matched
    cases matched with
    | first matchesFirst => exact .inl matchesFirst
    | second matchesSecond => exact .inr matchesSecond
  · rintro (matchesFirst | matchesSecond)
    · exact .first matchesFirst
    · exact .second matchesSecond

theorem matches_optional : inner.optional.Matches before taken after ↔ taken = [] ∨ inner.Matches before taken after := by
  constructor
  · intro matched
    cases matched with
    | absent => exact .inl rfl
    | present matchesInner => exact .inr matchesInner
  · rintro (rfl | matchesInner)
    · exact .absent
    · exact .present matchesInner

theorem inRanges_of_repeated (matched : (repeated (oneOf ranges)).Matches before taken after) :
    ∀ char ∈ taken, InRanges ranges char := by
  generalize whole : repeated (oneOf ranges) = pattern at matched
  induction matched with
  | done => simp
  | again matchesOnce matchesFurther _ ih =>
    cases whole
    obtain ⟨char, rfl, within⟩ := matches_oneOf.mp matchesOnce
    exact List.forall_mem_cons.mpr ⟨within, ih rfl⟩
  | _ => cases whole

theorem repeated_of_inRanges (within : ∀ char ∈ taken, InRanges ranges char) :
    (repeated (oneOf ranges)).Matches before taken after := by
  induction taken generalizing before with
  | nil => exact .done
  | cons char rest ih =>
    obtain ⟨here, later⟩ := List.forall_mem_cons.mp within
    have once : (oneOf ranges).Matches before [char] (rest ++ after) := .oneOf here
    exact once.again (ih later)

/-- Where one character is taken at a time, any number of them is, whatever stands around them. -/
theorem matches_repeated :
    (repeated (oneOf ranges)).Matches before taken after ↔ ∀ char ∈ taken, InRanges ranges char :=
  ⟨inRanges_of_repeated, repeated_of_inRanges⟩

theorem matches_atLeastOnce :
    (atLeastOnce (oneOf ranges)).Matches before taken after ↔ taken ≠ [] ∧ ∀ char ∈ taken, InRanges ranges char := by
  rw [atLeastOnce, matches_followed]
  simp only [matches_oneOf, matches_repeated]
  constructor
  · rintro ⟨_, rest, rfl, ⟨char, rfl, here⟩, later⟩
    exact ⟨by simp, List.forall_mem_cons.mpr ⟨here, later⟩⟩
  · rintro ⟨some, within⟩
    obtain ⟨char, rest, rfl⟩ := List.exists_cons_of_ne_nil some
    obtain ⟨here, later⟩ := List.forall_mem_cons.mp within
    exact ⟨[char], rest, rfl, ⟨char, rfl, here⟩, later⟩

end Pattern

namespace MemberName

def alphanumeric : List (Char × Char) :=
  [('a', 'z'), ('A', 'Z'), ('0', '9')]

def edge : Pattern :=
  .oneOf alphanumeric

/-- Behind the first character of a name stand some characters up to a letter or digit, or at most one letter or digit. -/
def ending : Pattern :=
  .either (.followed (.atLeastOnce (.oneOf (alphanumeric ++ [('-', '-')] ++ [('_', '_')]))) edge) (.optional edge)

/-- What names are matched against, with both ends of the text. -/
def rule : Pattern :=
  .followed .start (.followed edge (.followed ending .finish))

theorem inRanges_alphanumeric {char : Char} : Pattern.InRanges alphanumeric char ↔ char.isAlphanum = true := by
  have ranges : char.isAlphanum = (decide (char.val ≥ 'A'.val ∧ char.val ≤ 'Z'.val) ||
      (char.val ≥ 'a'.val && char.val ≤ 'z'.val) || (char.val ≥ '0'.val && char.val ≤ '9'.val)) := rfl
  rw [ranges]
  simp [Pattern.InRanges, alphanumeric, Char.le_def, or_assoc, or_left_comm]

theorem inRanges_inner {char : Char} :
    Pattern.InRanges (alphanumeric ++ [('-', '-')] ++ [('_', '_')]) char ↔ isInner char = true := by
  rw [Pattern.inRanges_append, Pattern.inRanges_append, Pattern.inRanges_single, Pattern.inRanges_single,
    inRanges_alphanumeric]
  simp [isInner]

theorem endsName_concat {chars : List Char} {last : Char} :
    endsName (chars ++ [last]) = true ↔ (∀ c ∈ chars, isInner c = true) ∧ last.isAlphanum = true := by
  rw [endsName_iff, List.forall_mem_append]
  simp only [List.getLast?_concat, List.mem_singleton, Option.some.injEq, forall_eq, forall_eq', and_assoc]
  exact and_congr_right fun _ => ⟨And.right, fun alphanumeric => ⟨inner_of_alphanumeric alphanumeric, alphanumeric⟩⟩

theorem matches_ending {before taken after : List Char} :
    ending.Matches before taken after ↔ endsName taken = true := by
  simp only [ending, edge, Pattern.matches_either, Pattern.matches_followed, Pattern.matches_atLeastOnce,
    Pattern.matches_optional, Pattern.matches_oneOf, inRanges_inner, inRanges_alphanumeric]
  constructor
  · rintro (⟨some, _, rfl, ⟨-, inner⟩, last, rfl, alphanumeric⟩ | rfl | ⟨last, rfl, alphanumeric⟩)
    · exact endsName_concat.mpr ⟨inner, alphanumeric⟩
    · rfl
    · exact alphanumeric
  · intro ends
    rcases List.eq_nil_or_concat taken with rfl | ⟨chars, last, rfl⟩
    · exact .inr (.inl rfl)
    rw [List.concat_eq_append] at ends ⊢
    obtain ⟨inner, alphanumeric⟩ := endsName_concat.mp ends
    by_cases one : chars = []
    · exact .inr (.inr ⟨last, by simp [one], alphanumeric⟩)
    · exact .inl ⟨chars, [last], rfl, ⟨one, inner⟩, last, rfl, alphanumeric⟩

/-- A line break at the end is not taken up before the rule is through, so that it does not belong to any name. -/
theorem matchesFully_rule {name : String} : rule.MatchesFully name ↔ allowed name = true := by
  simp only [rule, edge, Pattern.MatchesFully, Pattern.matches_followed, Pattern.matches_start, Pattern.matches_oneOf,
    inRanges_alphanumeric, matches_ending, Pattern.matches_finish]
  rw [allowed]
  constructor
  · rintro ⟨_, _, chars, ⟨-, rfl⟩, _, _, rfl, ⟨first, rfl, alphanumeric⟩, rest, _, rfl, ends, rfl, -⟩
    rw [chars]
    simp [alphanumeric, ends]
  · intro isAllowed
    cases chars : name.toList with
    | nil => simp [chars] at isAllowed
    | cons first rest =>
      rw [chars, Bool.and_eq_true] at isAllowed
      obtain ⟨alphanumeric, ends⟩ := isAllowed
      exact ⟨[], first :: rest, rfl, ⟨trivial, rfl⟩, [first], rest, rfl, ⟨first, rfl, alphanumeric⟩, rest, [], by simp, ends,
        rfl, .inl trivial⟩

end MemberName

namespace ArrayIndex

/-- A zero on its own, or digits of which the first one is none. -/
def rule : Pattern :=
  .either (.oneOf [('0', '0')]) (.followed (.oneOf [('1', '9')]) (.repeated (.oneOf [('0', '9')])))

theorem matchesFully_rule {token : String} : rule.MatchesFully token ↔ isDecimal token.toList = true := by
  have digit (char : Char) : Pattern.InRanges [('0', '9')] char ↔ char.isDigit = true := by
    simp [Pattern.InRanges, Char.isDigit, Char.le_def]
  have leading (char : Char) : Pattern.InRanges [('1', '9')] char ↔ char ≠ '0' ∧ char.isDigit = true := by
    simp only [Pattern.InRanges, List.mem_singleton, exists_eq_left, Char.isDigit, Bool.and_eq_true, decide_eq_true_eq,
      ge_iff_le, ne_eq, Char.le_def, Char.ext_iff, UInt32.le_iff_toNat_le, ← UInt32.toNat_inj, Char.reduceVal, UInt32.reduceToNat]
    omega
  simp only [rule, Pattern.MatchesFully, Pattern.matches_either, Pattern.matches_followed, Pattern.matches_oneOf,
    Pattern.matches_repeated, digit, leading, Pattern.inRanges_single]
  fun_cases isDecimal token.toList with
  | case1 => simp
  | case2 => simp
  | case3 first rest notZero =>
    rw [Bool.and_eq_true, Bool.and_eq_true, decide_eq_true_eq, List.all_eq_true]
    constructor
    · rintro (⟨_, same, rfl⟩ | ⟨_, _, same, ⟨char, rfl, isLeading⟩, digits⟩)
      · cases same
        exact (notZero rfl rfl).elim
      · cases same
        exact ⟨isLeading, digits⟩
    · rintro ⟨isLeading, digits⟩
      exact .inr ⟨[first], rest, rfl, ⟨first, rfl, isLeading⟩, digits⟩

end ArrayIndex
end RecordAddress
