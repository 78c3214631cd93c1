import RecordAddress.Location.Resolution
import RecordAddress.Proofs.Outcomes
import RecordAddress.Proofs.Tokens

/-! Composition of locations. A location that is divided by another one goes on with all tokens of it, as its text does
with the other text. Divided by a text, it only goes on with the first token. The lists that there were before stay as
they are. -/

namespace RecordAddress.Location
variable {first second third : Location} {tokens further : List String} {text : String}

theorem parse_eq_ok {location : Location} : parse text = .ok location ↔ Token.split text = .ok location.tokens := by
  rw [parse, map_eq_ok]
  constructor
  · rintro ⟨tokens, pieces, rfl⟩
    exact pieces
  · intro pieces
    exact ⟨_, pieces, rfl⟩

theorem text_of_parse {location : Location} (parsed : parse text = .ok location) : location.text = text :=
  Token.join_of_split (parse_eq_ok.mp parsed)

theorem text_append : (first.append second).text = first.text ++ second.text :=
  Token.join_append first.tokens second.tokens

namespace Composing
variable {lists : Lists} {place other : Nat}

theorem run_listAt : (listAt place).run lists = (.ok (lists.getD place []), lists) := rfl

theorem run_keep : (keep tokens).run lists = (.ok lists.length, lists ++ [tokens]) := rfl

theorem run_extend :
    (extend place tokens).run lists = (.ok ⟨⟩, lists.set place (lists.getD place [] ++ tokens)) := rfl

theorem run_takeFirst :
    (takeFirst place).run lists =
      (.ok ((lists.getD place []).take 1), lists.set place ((lists.getD place []).drop 1)) := rfl

theorem run_read (pieces : Token.split text = .ok tokens) :
    (read text).run lists = (.ok lists.length, lists ++ [tokens]) := by
  rw [read, pieces]
  rfl

theorem run_read_error {fault : Token.Fault} (pieces : Token.split text = .error fault) :
    (read text).run lists = (.error fault, lists) := by
  rw [read, pieces]
  rfl

/-- The copy is made behind all lists, and behind it the composed list, which its text is read into. -/
theorem run_compose_tokens (own : lists[place]? = some tokens) (divisor : lists[other]? = some further) :
    (compose place (.tokens other)).run lists =
      (.ok (lists.length + 1), lists ++ [tokens ++ further, tokens ++ further]) := by
  have inside : other < lists.length := (List.getElem?_eq_some_iff.mp divisor).1
  simp only [compose, run_bind_eq, run_listAt, run_keep, run_extend]
  simp [List.getD_eq_getElem?_getD, own, List.getElem?_append_left inside, divisor, run_read (Token.split_join _)]

/-- A text is read into a list of its own, which the first token is taken out of. -/
theorem run_compose_text (own : lists[place]? = some tokens) (pieces : Token.split (slashed text) = .ok further) :
    (compose place (.text text)).run lists =
      (.ok (lists.length + 2), lists ++ [tokens ++ further.take 1, further.drop 1, tokens ++ further.take 1]) := by
  simp only [compose, run_bind_eq, run_listAt, run_keep, run_extend, run_takeFirst, run_read pieces]
  simp [List.getD_eq_getElem?_getD, own, run_read (Token.split_join _)]

theorem run_compose_error {fault : Token.Fault} (own : lists[place]? = some tokens)
    (pieces : Token.split (slashed text) = .error fault) :
    (compose place (.text text)).run lists = (.error fault, lists ++ [tokens]) := by
  simp only [compose, run_bind_eq, run_listAt, run_keep, run_read_error pieces]
  simp [List.getD_eq_getElem?_getD, own]

end Composing

theorem composed_tokens (first : Location) (further : List String) :
    first.composed [further] (.tokens 1) = .ok ⟨first.tokens ++ further⟩ := by
  have own : [first.tokens, further][0]? = some first.tokens := rfl
  have divisor : [first.tokens, further][1]? = some further := rfl
  rw [composed, Composing.run_compose_tokens own divisor]
  rfl

theorem composed_text (first : Location) (text : String) :
    first.composed [] (.text text) =
      (Token.split (slashed text)).map fun further => ⟨first.tokens ++ further.take 1⟩ := by
  have own : [first.tokens][0]? = some first.tokens := rfl
  cases pieces : Token.split (slashed text) with
  | error fault =>
    rw [composed, Composing.run_compose_error own pieces]
    rfl
  | ok further =>
    rw [composed, Composing.run_compose_text own pieces]
    rfl

theorem toLocation_ofLocation (given : Location) : (Value.list (given.tokens.map Value.text)).toLocation = given := by
  have texts : (given.tokens.map Value.text).filterMap Value.text? = given.tokens := by
    rw [List.filterMap_map]
    exact List.filterMap_some
  rw [Value.toLocation, texts]

theorem divide_location (first second : Location) : first.divide (.ofLocation second) = .ok (first.append second) := by
  rw [Value.ofLocation, divide, toLocation_ofLocation, composed_tokens]
  rfl

theorem divide_text (first : Location) (pieces : Token.split (slashed text) = .ok further) :
    first.divide (.text text) = .ok ⟨first.tokens ++ further.take 1⟩ := by
  rw [divide, composed_text, pieces]
  rfl

/-! A text that is not empty and can be read has a first token, which a slash stands before. -/

theorem tokens_of_nonempty {given : Location} (read : parse text = .ok given) (nonempty : text ≠ "") :
    ∃ first rest, given.tokens = first :: rest := by
  apply List.exists_cons_of_ne_nil
  intro none
  rw [← text_of_parse read, Location.text, none] at nonempty
  exact nonempty rfl

theorem slashed_join (token : String) (rest : List String) : slashed (Token.join (token :: rest)) = Token.join (token :: rest) := by
  rw [slashed, Token.toList_join]
  rfl

theorem slashed_of_nonempty {given : Location} (read : parse text = .ok given) (nonempty : text ≠ "") : slashed text = text := by
  obtain ⟨first, rest, tokens⟩ := tokens_of_nonempty read nonempty
  rw [← text_of_parse read, Location.text, tokens, slashed_join]

/-! Numbers are written without a slash, and as one token. -/

theorem isDigit_of_mem_number {n : Nat} {char : Char} (within : char ∈ (toString n).toList) : char.isDigit = true := by
  rw [Nat.toString_eq_repr, Nat.toList_repr] at within
  exact Nat.isDigit_of_mem_toDigits (by decide) (by decide) within

theorem escape_number (n : Nat) : Token.escape (toString n) = toString n := by
  apply Token.escape_of_plain
  intro char within
  have digit := isDigit_of_mem_number within
  constructor
  · rintro rfl
    cases digit
  · rintro rfl
    cases digit

/-- A text leads on by its first token only, a location by all of its tokens. Both come to the same exactly if there
is one slash in the text. -/
theorem text_leads_on_by_one_token {a b : String} (parsed : parse a = .ok first) (parsedNext : parse b = .ok second)
    (nonempty : b ≠ "") :
    ∃ token rest shorter whole, second.tokens = token :: rest ∧
      first.divide (.text b) = .ok shorter ∧ shorter.tokens = first.tokens ++ [token] ∧
      shorter.text = a ++ "/" ++ Token.escape token ∧
      first.divide (.ofLocation second) = .ok whole ∧ whole.tokens = first.tokens ++ token :: rest ∧ whole.text = a ++ b ∧
      (shorter = whole ↔ rest = []) ∧ (rest = [] ↔ b.toList.count '/' = 1) := by
  obtain ⟨token, rest, tokens⟩ := tokens_of_nonempty parsedNext nonempty
  have pieces : Token.split (slashed b) = .ok second.tokens := by
    rw [slashed_of_nonempty parsedNext nonempty]
    exact parse_eq_ok.mp parsedNext
  have shorter := divide_text first pieces
  rw [tokens] at shorter
  refine ⟨token, rest, _, _, tokens, shorter, rfl, ?_, divide_location first second, ?_, ?_, ?_, ?_⟩
  · rw [← text_of_parse parsed]
    exact Token.join_snoc first.tokens token
  · rw [append, tokens]
  · rw [text_append, text_of_parse parsed, text_of_parse parsedNext]
  · simp [append, tokens, eq_comm]
  · rw [← text_of_parse parsedNext, Location.text, Token.count_slashes, tokens]
    simp

/-- A slash in the text stands between two tokens unless it is escaped. -/
theorem escaped_slash_leads_on_by_one_token :
    ∃ base given shorter : Location, parse "/a" = .ok base ∧ parse "/b~1c/d" = .ok given ∧ "/b~1c/d" ≠ "" ∧
      base.divide (.text "/b~1c/d") = .ok shorter ∧ shorter.tokens = ["a", "b/c"] := by
  have base : parse "/a" = .ok ⟨["a"]⟩ := rfl
  have given : parse "/b~1c/d" = .ok ⟨["b/c", "d"]⟩ := rfl
  have nonempty : "/b~1c/d" ≠ "" := by decide
  obtain ⟨token, rest, shorter, whole, tokens, divided, taken, -⟩ := text_leads_on_by_one_token base given nonempty
  obtain ⟨rfl, rfl⟩ := List.cons.inj tokens
  exact ⟨_, _, shorter, base, given, nonempty, divided, taken⟩

/-- The second token of a text is lost. -/
theorem second_token_is_lost :
    parse "/a" = .ok ⟨["a"]⟩ ∧ parse "/b/c" = .ok ⟨["b", "c"]⟩ ∧
    Location.divide ⟨["a"]⟩ (.text "/b/c") = .ok ⟨["a", "b"]⟩ ∧
    Location.divide ⟨["a"]⟩ (.ofLocation ⟨["b", "c"]⟩) = .ok ⟨["a", "b", "c"]⟩ := by
  decide +kernel

end RecordAddress.Location
