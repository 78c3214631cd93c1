import RecordAddress.ArrayIndex.Check
import RecordAddress.Proofs.Composing
import RecordAddress.Proofs.Orders
import RecordAddress.Proofs.Patterns
import RecordAddress.Proofs.Reached

/-! Indices of arrays as they are written. Each number has one decimal text, so that an index and its token determine each
other. -/

namespace RecordAddress

namespace ArrayIndex
variable {chars : List Char} {last char : Char} {token : String} {dashAllowed : Bool}

theorem digitChar_of_isDigit (digit : char.isDigit = true) :
    char.toNat - '0'.toNat < 10 ∧ (char.toNat - '0'.toNat).digitChar = char := by
  obtain ⟨low, high⟩ : 48 ≤ char.toNat ∧ char.toNat ≤ 57 := by
    simpa [Char.isDigit, UInt32.le_iff_toNat_le] using digit
  have bound : char.toNat - '0'.toNat < 10 := by
    show char.toNat - 48 < 10
    omega
  refine ⟨bound, ?_⟩
  rw [← Char.toNat_inj, Nat.toNat_digitChar_of_lt_ten bound]
  exact Nat.add_sub_cancel' low

/-- Decimal texts grow at their end, unless they are a zero. -/
theorem isDecimal_concat :
    isDecimal (chars ++ [last]) = true ↔
      last.isDigit = true ∧ (chars = [] ∨ isDecimal chars = true ∧ chars ≠ ['0']) := by
  cases chars with
  | nil =>
    by_cases zero : last = '0'
    · simp [zero, isDecimal]
    · simp [zero, isDecimal]
  | cons first rest =>
    by_cases zero : first = '0'
    · subst zero
      cases rest <;> simp [isDecimal]
    · simp [isDecimal, zero, and_comm, and_left_comm]

theorem decimalValue_concat : decimalValue (chars ++ [last]) = 10 * decimalValue chars + (last.toNat - '0'.toNat) := by
  simp [decimalValue]

theorem isDecimal_toDigits (n : Nat) : isDecimal (Nat.toDigits 10 n) = true := by
  induction n using Nat.strongRecOn with
  | ind n ih =>
    rw [Nat.toDigits_eq_if (by decide)]
    split
    next small =>
      exact isDecimal_concat.mpr ⟨by simpa [Nat.isDigit_digitChar] using small, .inl rfl⟩
    next large =>
      have digit : (n % 10).digitChar.isDigit = true := by
        simpa [Nat.isDigit_digitChar] using Nat.mod_lt n (by decide)
      refine isDecimal_concat.mpr ⟨digit, .inr ⟨ih (n / 10) (by omega), ?_⟩⟩
      -- no other number than zero is written as a zero
      intro zero
      have isZero : n / 10 = 0 := by
        rw [← Nat.ofDigitChars_ten_toDigits (n := n / 10), zero]
        rfl
      omega

theorem toDigits_decimalValue (decimal : isDecimal chars = true) : Nat.toDigits 10 (decimalValue chars) = chars := by
  induction chars using List.reverseRecOn with
  | nil => cases decimal
  | append_singleton front last ih =>
    obtain ⟨digit, further⟩ := isDecimal_concat.mp decimal
    obtain ⟨small, same⟩ := digitChar_of_isDigit digit
    rw [decimalValue_concat]
    rcases further with rfl | ⟨decimalFront, notZero⟩
    · rw [show 10 * decimalValue [] = 0 from rfl, Nat.zero_add, Nat.toDigits_of_lt_base small, same, List.nil_append]
    · -- so the digits in front of the last one are not dropped
      have positive : 0 < decimalValue front := by
        refine Nat.pos_of_ne_zero fun zero => notZero ?_
        rw [← ih decimalFront, zero]
        rfl
      rw [← Nat.toDigits_append_toDigits (by decide) positive small, ih decimalFront, Nat.toDigits_of_lt_base small, same]

/-- The decimal texts are those of the natural numbers, each of which has one. -/
theorem isDecimal_iff : isDecimal token.toList = true ↔ ∃ n : Nat, token = toString n := by
  constructor
  · intro decimal
    refine ⟨decimalValue token.toList, ?_⟩
    rw [← String.toList_inj, Nat.toString_eq_repr, Nat.toList_repr, toDigits_decimalValue decimal]
  · rintro ⟨n, rfl⟩
    rw [Nat.toString_eq_repr, Nat.toList_repr]
    exact isDecimal_toDigits n

theorem decimalValue_number (n : Nat) : decimalValue (toString n).toList = n := by
  rw [Nat.toString_eq_repr, Nat.toList_repr]
  exact Nat.ofDigitChars_ten_toDigits

theorem isDecimal_iff_digits :
    isDecimal chars = true ↔ chars ≠ [] ∧ (∀ char ∈ chars, char.isDigit = true) ∧ (chars.head? = some '0' → chars = ['0']) := by
  cases chars with
  | nil => simp [isDecimal]
  | cons first rest =>
    by_cases zero : first = '0'
    · subst zero
      cases rest <;> simp [isDecimal]
    · simp [isDecimal, zero]

/-- The token that an index is written as. -/
def text : ArrayIndex → String
  | position n => toString n
  | afterLast => "-"

theorem text_of_ofText {index : ArrayIndex} (read : ofText dashAllowed token = .ok index) : token = index.text := by
  rcases ofText_eq_ok.mp read with ⟨rfl, -, rfl⟩ | ⟨decimal, -, rfl⟩
  · rfl
  · obtain ⟨n, rfl⟩ := isDecimal_iff.mp decimal
    rw [decimalValue_number]
    rfl

theorem ofText_number {n : Nat} (short : (toString n).length ≤ digitLimit) : ofText dashAllowed (toString n) = .ok (.position n) := by
  refine ofText_eq_ok.mpr (.inr ⟨isDecimal_iff.mpr ⟨n, rfl⟩, ?_, by rw [decimalValue_number]⟩)
  rwa [String.length_toList]

theorem ofText_eq_position {n : Nat} (short : token.length ≤ digitLimit) :
    ofText dashAllowed token = .ok (.position n) ↔ token = toString n := by
  constructor
  · exact text_of_ofText
  · rintro rfl
    exact ofText_number short

theorem ofText_eq_afterLast : ofText dashAllowed token = .ok .afterLast ↔ token = "-" ∧ dashAllowed = true := by
  rw [ofText_eq_ok]
  simp

theorem message_of_ofText {fault : Fault} (short : token.length ≤ digitLimit) (read : ofText dashAllowed token = .error fault) :
    ∃ message, fault.message? = some message := by
  cases fault with
  | tooManyDigits =>
    have long := (long_of_ofText read).2
    rw [String.length_toList] at long
    exact absurd short (Nat.not_le.mpr long)
  | notText | dashNotAllowed | notAnIndex => exact ⟨_, rfl⟩

theorem ofText_fails_iff (short : token.length ≤ digitLimit) :
    (∃ fault message, ofText dashAllowed token = .error fault ∧ fault.message? = some message) ↔
      (∀ n : Nat, token ≠ toString n) ∧ ¬ (token = "-" ∧ dashAllowed = true) := by
  cases read : ofText dashAllowed token with
  | ok index =>
    simp only [reduceCtorEq, false_and, exists_false, false_iff]
    rintro ⟨noNumber, noDash⟩
    cases index with
    | position n => exact noNumber n (text_of_ofText read)
    | afterLast => exact noDash (ofText_eq_afterLast.mp read)
  | error fault =>
    obtain ⟨message, told⟩ := message_of_ofText short read
    simp only [Except.error.injEq, exists_and_left, exists_eq_left', told, Option.some.injEq, exists_eq', true_iff]
    constructor
    · intro n same
      cases read.symm.trans ((ofText_eq_position short).mpr same)
    · intro dash
      cases read.symm.trans (ofText_eq_afterLast.mpr dash)

/-- The sign is no digit, and not on its own. -/
theorem ofText_negative {n : Int} (negative : n < 0) (index : ArrayIndex) : ofText dashAllowed (toString n) ≠ .ok index := by
  intro read
  have signed : (toString n).toList = '-' :: (toString (-n).toNat).toList := by
    rw [Int.toString_eq_repr, Int.repr_eq_if, if_neg (by omega)]
    simp
  have same := congrArg String.toList (text_of_ofText read)
  rw [signed] at same
  cases index with
  | position m =>
    have within : '-' ∈ (text (.position m)).toList := same ▸ List.mem_cons_self
    cases Location.isDigit_of_mem_number within
  | afterLast =>
    exact Nat.repr_ne_empty (String.toList_eq_nil_iff.mp (List.cons.inj same).2)

theorem text_injective : Function.Injective text := by
  have noNumber (n : Nat) : toString n ≠ "-" := by
    intro same
    have decimal := isDecimal_iff.mpr ⟨n, rfl⟩
    rw [same] at decimal
    cases decimal
  rintro (n | _) (m | _) same
  · have values := congrArg (fun token : String => decimalValue token.toList) same
    simp only [text, decimalValue_number] at values
    rw [values]
  · exact absurd same (noNumber n)
  · exact absurd same.symm (noNumber m)
  · rfl

theorem escape_text (index : ArrayIndex) : Token.escape index.text = index.text := by
  cases index with
  | position n => exact Location.escape_number n
  | afterLast => rfl

end ArrayIndex

namespace ArrayIndexCheck
open ArrayIndex
variable {token : String}

theorem run_eq_int (check : ArrayIndexCheck) {n : Int} (short : token.length ≤ digitLimit) :
    (check.run (.text token)).map toValue = .ok (.int n) ↔ ∃ k : Nat, n = k ∧ token = toString k := by
  rw [map_eq_ok]
  constructor
  · rintro ⟨index, read, value⟩
    cases index with
    | position k =>
      cases value
      exact ⟨k, rfl, (ofText_eq_position short).mp read⟩
    | afterLast => cases value
  · rintro ⟨k, rfl, written⟩
    exact ⟨.position k, (ofText_eq_position short).mpr written, rfl⟩

theorem run_eq_dash (check : ArrayIndexCheck) :
    (check.run (.text token)).map toValue = .ok (.text "-") ↔ token = "-" ∧ check.dashAllowed = true := by
  rw [map_eq_ok, ← ofText_eq_afterLast]
  constructor
  · rintro ⟨index, read, value⟩
    cases index with
    | position k => cases value
    | afterLast => exact read
  · exact fun read => ⟨_, read, rfl⟩

end ArrayIndexCheck

namespace Pointer
variable {context : Context} {whole : Value} {dashAllowed : Bool} {array other first second : Pointer} {token : String}

/-- The other pointer is that of one of the elements of an array, however it came about. -/
def HasElement (array element : Pointer) : Prop :=
  ∃ (context : Context) (whole : Value) (dashAllowed : Bool) (token : String),
    array.next context.amendments = .arrayIndex ∧ (extend context whole dashAllowed array token).outcome = .ok element

theorem extend_array (isArray : array.next context.amendments = .arrayIndex) :
    (extend context whole dashAllowed array token).outcome = .ok first ↔
      ∃ index, ArrayIndex.ofText dashAllowed token = .ok index ∧ first = .element array token (.ofArray index) := by
  rw [extend_eq_ok, isArray]
  simp

theorem HasElement.written (element : array.HasElement first) :
    ∃ index : ArrayIndex, first = .element array index.text (.ofArray index) := by
  obtain ⟨_, _, _, token, isArray, extended⟩ := element
  obtain ⟨index, read, rfl⟩ := (extend_array isArray).mp extended
  exact ⟨index, by rw [← ArrayIndex.text_of_ofText read]⟩

theorem text_of_element (array : Pointer) (index : ArrayIndex) (kind : ElementIndex) :
    (element array index.text kind).text = array.text ++ "/" ++ index.text := by
  rw [text, ArrayIndex.escape_text]

theorem HasElement.same_iff (same : array.isSame other = true) (element : array.HasElement first)
    (otherElement : other.HasElement second) : first.isSame second = true ↔ first.index? = second.index? := by
  obtain ⟨index, rfl⟩ := element.written
  obtain ⟨otherIndex, rfl⟩ := otherElement.written
  obtain ⟨samePath, sameText⟩ : array.path = other.path ∧ array.text = other.text := by simpa [isSame] using same
  have paths : (Pointer.element array index.text (.ofArray index)).path =
      (Pointer.element other otherIndex.text (.ofArray otherIndex)).path := samePath
  simp only [isSame, paths, text_of_element, sameText, decide_true, Bool.true_and, decide_eq_true_eq, index?]
  constructor
  · intro texts
    have tokens : index.text = otherIndex.text := by simpa using texts
    rw [ArrayIndex.text_injective tokens]
  · intro indices
    cases index <;> cases otherIndex <;> cases indices <;> rfl

theorem child_of_negative (isArray : array.next context.amendments = .arrayIndex) {n : Int} (negative : n < 0)
    (dashAllowed : Bool) : ∃ fault, (array.child context dashAllowed (toString n)).outcome = .error fault := by
  cases made : (array.child context dashAllowed (toString n)).outcome with
  | error fault => exact ⟨fault, rfl⟩
  | ok element =>
    obtain ⟨index, read, -⟩ := (extend_array isArray).mp made
    exact absurd read (ArrayIndex.ofText_negative negative index)

theorem divide_of_numeral {n : Int} {numeral : String} (written : Value.numeral? n = some numeral) :
    array.divide context (.int n) = array.child context true numeral := by
  rw [divide, show (Value.int n).display? = some numeral from written]

open ArrayIndex in
/-- Indices are what natural numbers are written as. What is read of a text is the number that it is the decimal of, or
the dash as far as it is allowed, and nothing else is read. So the elements of an array are told apart by their indices,
each of them is found by its own, and none by a negative one. Longer numbers are not read at all. -/
theorem indices_are_decimals :
    (∀ (check : ArrayIndexCheck) (token : String), token.length ≤ digitLimit →
      (∀ n : Int, (check.run (.text token)).map toValue = .ok (.int n) ↔ ∃ k : Nat, n = k ∧ token = toString k) ∧
      ((check.run (.text token)).map toValue = .ok (.text "-") ↔ token = "-" ∧ check.dashAllowed = true) ∧
      ((∃ fault message, check.run (.text token) = .error fault ∧ fault.message? = some message) ↔
        (∀ k : Nat, token ≠ toString k) ∧ ¬ (token = "-" ∧ check.dashAllowed = true))) ∧
    (∀ token : String, ((∃ k : Nat, token = toString k) ↔ rule.MatchesFully token) ∧
      ((∃ k : Nat, token = toString k) ↔
        token ≠ "" ∧ (∀ char ∈ token.toList, char.isDigit = true) ∧ (token.toList.head? = some '0' → token = "0"))) ∧
    (∀ (context : Context) (dashAllowed : Bool) (array : Pointer), array.next context.amendments = .arrayIndex →
      (∀ n : Nat, (toString n).length ≤ digitLimit →
        ∃ element, (array.divide context (.int n)).outcome = .ok element ∧
          (array.child context dashAllowed (toString n)).outcome = .ok element ∧
          element.index? = some (.position n) ∧ element.text = array.text ++ "/" ++ toString n) ∧
      ∀ n : Int, n < 0 → (∃ fault, (array.divide context (.int n)).outcome = .error fault) ∧
        ∃ fault, (array.child context dashAllowed (toString n)).outcome = .error fault) ∧
    ∀ array other first second : Pointer, array.isSame other = true → array.HasElement first → other.HasElement second →
      (first.isSame second = true ↔ first.index? = second.index?) := by
  refine ⟨fun check token short => ⟨fun n => check.run_eq_int short, check.run_eq_dash, ofText_fails_iff short⟩, ?digits,
    ?elements, fun _ _ _ _ same element otherElement => element.same_iff same otherElement⟩
  case digits =>
    intro token
    have zero : token.toList = ['0'] ↔ token = "0" := by
      rw [← String.toList_inj]
      rfl
    rw [← isDecimal_iff, matchesFully_rule, isDecimal_iff_digits, ne_eq, String.toList_eq_nil_iff, zero]
    exact ⟨Iff.rfl, Iff.rfl⟩
  case elements =>
    intro context dashAllowed array isArray
    refine ⟨fun n short => ?_, fun n negative => ⟨?_, child_of_negative isArray negative dashAllowed⟩⟩
    · have extended (dashAllowed : Bool) :
          (array.child context dashAllowed (toString n)).outcome = .ok (.element array (toString n) (.position n)) :=
        (extend_array isArray).mpr ⟨.position n, ofText_number short, rfl⟩
      refine ⟨_, ?_, extended dashAllowed, rfl, text_of_element array (.position n) _⟩
      rw [divide_of_numeral (Value.numeral?_of_nat short)]
      exact extended true
    · cases written : Value.numeral? n with
      | none => exact ⟨_, by rw [divide, show (Value.int n).display? = none from written]; rfl⟩
      | some numeral =>
        obtain ⟨-, rfl⟩ := Value.numeral?_eq_some.mp written
        rw [divide_of_numeral written]
        exact child_of_negative isArray negative true

open ArrayIndex in
/-- The tags of an order are counted from zero. A leading zero makes a number none, and so does a sign. -/
theorem tags_are_counted :
    let context : Context := { registry := Orders.registry }
    let tags := Orders.nextTag.parent
    let second := Pointer.element tags "1" (.position 1)
    (({} : ArrayIndexCheck).run (.text "1")).map toValue = .ok (.int 1) ∧
    (∃ fault message, ({} : ArrayIndexCheck).run (.text "01") = .error fault ∧ fault.message? = some message) ∧
    (∃ element, (tags.divide context (.int 1)).outcome = .ok element ∧
      (tags.child context false (toString 1)).outcome = .ok element ∧
      element.index? = some (.position 1) ∧ element.text = "/tags/1") ∧
    (∃ fault, (tags.divide context (.int (-1))).outcome = .error fault) ∧
    tags.HasElement second ∧ tags.HasElement Orders.nextTag ∧ second.isSame Orders.nextTag = false := by
  intro context tags second
  obtain ⟨reads, decimals, divides, compares⟩ := indices_are_decimals
  have isArray : tags.next context.amendments = .arrayIndex := rfl
  have isSecond : tags.HasElement second := ⟨context, .null, true, "1", isArray, rfl⟩
  have isLast : tags.HasElement Orders.nextTag := ⟨context, .null, true, "-", isArray, rfl⟩
  refine ⟨?number, ?leadingZero, ?element, ((divides context true tags isArray).2 (-1) (by decide)).1, isSecond, isLast,
    ?apart⟩
  case number => exact ((reads {} "1" (by decide)).1 1).mpr ⟨1, rfl, rfl⟩
  case leadingZero =>
    refine (reads {} "01" (by decide)).2.2.mpr ⟨fun k same => ?_, by decide⟩
    have alone := ((decimals "01").2.mp ⟨k, same⟩).2.2 rfl
    exact absurd alone (by decide)
  case element => exact (divides context false tags isArray).1 1 (by decide)
  case apart =>
    rw [Bool.eq_false_iff]
    intro same
    cases (compares tags tags second Orders.nextTag (by decide) isSecond isLast).mp same

end Pointer
end RecordAddress
