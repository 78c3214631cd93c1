import RecordAddress.Pointer.Access
import RecordAddress.Proofs.Stepwise

/-! Pointers and their texts. A pointer prints what it was parsed from, and below one container its tokens tell it
apart from every other pointer. -/

namespace RecordAddress.Pointer
variable {memory : Memory} {container : Container} {schema : Schema} {place : Place} {first second pointer last : Pointer}
  {whole : Value} {dashAllowed : Bool} {tokens : List String}

theorem tokens_of_extendAll {context : Context}
    (extended : (tokens.foldlM (extend context whole dashAllowed) pointer).outcome = .ok last) :
    last.tokens = pointer.tokens ++ tokens := by
  induction tokens generalizing pointer with
  | nil =>
    cases extended
    exact (List.append_nil _).symm
  | cons token rest ih =>
    rw [List.foldlM_cons, Opening.outcome_bind, bind_eq_ok] at extended
    obtain ⟨child, made, further⟩ := extended
    rw [ih further, tokens_of_extend made, List.append_assoc]
    rfl

theorem split_tokens (pointer : Pointer) : Token.split pointer.text = .ok pointer.tokens := by
  rw [text_eq_join, Token.split_join]

/-- Pointers below one container that have the same tokens are one and the same. -/
theorem Firm.eq_of_tokens (firm : Firm container memory first) (otherFirm : Firm container memory second)
    (same : first.tokens = second.tokens) : first = second := by
  have leads : (first.tokens.foldlM (extend { memory } .null true) (.root container)).outcome = .ok first :=
    firm.again {} .null fun _ => rfl
  have leadsToo : (second.tokens.foldlM (extend { memory } .null true) (.root container)).outcome = .ok second :=
    otherFirm.again {} .null fun _ => rfl
  rw [same] at leads
  exact Except.ok.inj (leads.symm.trans leadsToo)

/-- A pointer prints the text that it was parsed from, and its location has the tokens that were split off. Two
pointers below one container are the same exactly if their tokens are, and exactly if their texts are. Then they
read the same in every record. -/
theorem printing_undoes_parsing (opens : container.Opens schema place) (memory : Memory) :
    (∀ context text dashAllowed pointer,
      (parse context container dashAllowed (.text text)).outcome = .ok pointer →
        pointer.text = text ∧ ∃ location, pointer.location = .ok location ∧ location.text = text ∧
          Token.split text = .ok location.tokens) ∧
    (∀ first second, Held container memory first → Held container memory second →
      (first.isSame second = true ↔ first.tokens = second.tokens) ∧
      (first.isSame second = true ↔ first.text = second.text) ∧
      (first.isSame second = true → ∀ context record, first.get context record = second.get context record)) := by
  constructor
  · intro context text dashAllowed pointer parsed
    obtain ⟨_, tokens, ⟨rfl⟩, pieces⟩ := split_of_parse parsed
    rw [parse_of_split pieces] at parsed
    have tokensSame : pointer.tokens = tokens := tokens_of_extendAll parsed
    have textSame : pointer.text = text := by rw [text_eq_join, tokensSame, Token.join_of_split pieces]
    refine ⟨textSame, ⟨tokens⟩, ?_, Token.join_of_split pieces, pieces⟩
    rw [location, Location.parse, textSame, pieces]
    rfl
  · intro first second held otherHeld
    have of_text : first.text = second.text → first = second := by
      intro same
      have pieces := split_tokens first
      rw [same, split_tokens second] at pieces
      exact (held.firm opens).eq_of_tokens (otherHeld.firm opens) (Except.ok.inj pieces).symm
    have same_iff : first.isSame second = true ↔ first = second := by
      constructor
      · intro same
        simp only [isSame, Bool.and_eq_true, decide_eq_true_eq] at same
        exact of_text same.2
      · rintro rfl
        simp [isSame]
    rw [same_iff]
    refine ⟨⟨?_, (held.firm opens).eq_of_tokens (otherHeld.firm opens)⟩, ⟨?_, of_text⟩, ?_⟩
    · rintro rfl
      rfl
    · rintro rfl
      rfl
    · rintro rfl context record
      rfl

theorem note_is_told_by_its_tokens :
    let context : Context := { registry := Orders.registry }
    let place : Place := { ground := .schema Orders.order.id }
    Orders.container.Opens Orders.order place ∧
    ∃ notes note other, (parse context Orders.container true (.text "/notes")).outcome = .ok notes ∧
      (parse context Orders.container true (.text "/notes/a~1b")).outcome = .ok note ∧
      (notes.child context true "a/b").outcome = .ok other ∧ note.text = "/notes/a~1b" ∧ note.isSame other = true := by
  intro context place
  have made : Container.ofSchema Orders.order "" (some place) = .ok Orders.container := rfl
  have opens := Container.opens_of_ofSchema made
  obtain ⟨notes, note, other, above, direct, below, nothing, tokens⟩ : ∃ notes note other,
      (parse context Orders.container true (.text "/notes")).outcome = .ok notes ∧
      (parse context Orders.container true (.text "/notes/a~1b")).outcome = .ok note ∧
      (notes.child context true "a/b").outcome = .ok other ∧
      ((parse context Orders.container true (.text "/notes")).opened = [] ∧
        (parse context Orders.container true (.text "/notes/a~1b")).opened = [] ∧
        (notes.child context true "a/b").opened = []) ∧
      note.tokens = other.tokens := ⟨_, _, _, rfl, rfl, rfl, ⟨rfl, rfl, rfl⟩, rfl⟩
  have heldAbove : Held Orders.container {} notes :=
    .parsed Memory.lasting_of_empty above (by rw [nothing.1]; exact .refl _)
  have held : Held Orders.container {} note :=
    .parsed Memory.lasting_of_empty direct (by rw [nothing.2.1]; exact .refl _)
  have heldToo : Held Orders.container {} other :=
    .child Memory.lasting_of_empty heldAbove below (by rw [nothing.2.2]; exact .refl _)
  obtain ⟨prints, tells⟩ := printing_undoes_parsing opens {}
  exact ⟨opens, notes, note, other, above, direct, below, (prints _ _ _ _ direct).1,
    (tells note other held heldToo).1.mpr tokens⟩

end RecordAddress.Pointer
