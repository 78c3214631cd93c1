import RecordAddress.Proofs.Lookups

/-! Steps that only look at what there is. Such a step answers the same whatever was opened before it, and leaves
nothing behind but the containers that it opened. -/

namespace RecordAddress.Session
open Session.Action

variable {registry : Registry} {known : Schema → Prop} {step : Step} {keep : Option String}

/-- Whether nothing is defined, registered, written or kept by name. -/
def Step.isAccess : Step → Bool
  | .parse _ _ _ _ keep | .child _ _ _ keep | .divide _ _ keep | .parseRegistered _ _ _ _ keep => keep.isNone
  | .add .. | .replace .. | .remove _ | .setRecord _ | .define _ | .register .. => false
  | _ => true

/-! The pointers that steps make. -/

def parsing (type : TypeSource) (pointer : Given) (dashAllowed byClass : Bool) : Action Pointer := do
  let target ← type.target
  if byClass && !(← target.shows .parse) then throw .notOffered
  let pointer ← pointer.acceptBare
  let container ← if byClass then target.ownContainer else target.toContainer
  parseAt container dashAllowed pointer

def parsingRegistered (choice : RegistryChoice) (key : TypeSource) (pointer : Given) (dashAllowed : Bool) :
    Action Pointer := do
  let key ← key.target
  let pointer ← pointer.acceptBare
  let schema ← key.schemaIn (← choice.registry)
  parseAt (← rootContainer schema) dashAllowed pointer

theorem run_parse (type : TypeSource) (pointer : Given) (dashAllowed byClass : Bool) :
    run (.parse type pointer dashAllowed byClass keep) = parsing type pointer dashAllowed byClass >>= keptAs keep := by
  simp only [run, parsing, bind_assoc]
  congr 1
  funext target
  congr 1
  funext shown
  split
  · rfl
  · cases byClass <;> simp

theorem run_parseRegistered (choice : RegistryChoice) (key : TypeSource) (pointer : Given) (dashAllowed : Bool) :
    run (.parseRegistered choice key pointer dashAllowed keep) =
      parsingRegistered choice key pointer dashAllowed >>= keptAs keep := by
  simp only [run, parsingRegistered, bind_assoc]

theorem parsing_repeats (type : TypeSource) (pointer : Given) (dashAllowed byClass : Bool) :
    (parsing type pointer dashAllowed byClass).Repeats registry known (·.Trusted registry known) := by
  apply (target_repeats type).bind
  intro target trusted
  apply (shows_repeats .parse target).bind
  intro shown _
  dsimp only
  split
  · exact .throw_bind
  · apply (acceptBare_repeats pointer).bind
    intro value _
    cases byClass with
    | true =>
      apply (ownContainer_repeats trusted).bind
      intro container inside
      exact parseAt_repeats inside dashAllowed value
    | false =>
      apply (toContainer_repeats trusted).bind
      intro container inside
      exact parseAt_repeats inside dashAllowed value

theorem extending_repeats {parent : Pointer} (trusted : parent.Trusted registry known) (dashAllowed : Bool)
    (token : String) : (opening Failure.ofPointer fun context => parent.child context dashAllowed token).Repeats
      registry known (·.Trusted registry known) := by
  apply Repeats.opening
  intro distinct memory genuine
  exact Pointer.extend_repeats distinct genuine trusted

theorem dividing_repeats {parent : Pointer} (trusted : parent.Trusted registry known) (divisor : Value) :
    (opening Failure.ofPointer fun context => parent.divide context divisor).Repeats
      registry known (·.Trusted registry known) := by
  apply Repeats.opening
  intro distinct memory genuine
  exact Pointer.divide_repeats distinct genuine trusted divisor

theorem parsingRegistered_repeats (choice : RegistryChoice) (key : TypeSource) (pointer : Given) (dashAllowed : Bool) :
    (parsingRegistered choice key pointer dashAllowed).Repeats registry known (·.Trusted registry known) := by
  apply (target_repeats key).bind
  intro target trusted
  apply (acceptBare_repeats pointer).bind
  intro value _
  apply (choice_repeats choice).bind
  intro chosen knows
  apply (schemaIn_repeats knows target).bind
  intro schema isKnown
  apply (rootContainer_repeats isKnown).bind
  intro container inside
  exact parseAt_repeats inside dashAllowed value

theorem unkept_repeats (unkept : keep.isNone = true) (pointer : Pointer) :
    (keptAs keep pointer).Repeats registry known fun _ => True := by
  cases keep with
  | some name => cases unkept
  | none =>
    apply Repeats.settle_any.bind
    intro summary _
    exact .pure trivial

/-! Steps. -/

private theorem child_repeats (unkept : keep.isNone = true) (parent : PointerSource) (token : Value) (dashAllowed : Bool) :
    (run (.child parent token dashAllowed keep)).Repeats registry known fun _ => True := by
  apply (pointer_repeats parent).bind
  intro above trusted
  split
  · apply (extending_repeats trusted dashAllowed _).bind
    intro child _
    exact unkept_repeats unkept child
  · exact .throw

private theorem describe_repeats (label : String) : (run (.describe label)).Repeats registry known fun _ => True := by
  apply (labelled_repeats label).bind
  intro cls isKnown
  apply Repeats.settle_any.bind
  intro summary _
  have opened : (do summarized (← rootContainer cls.outline)).Repeats registry known fun _ => True := by
    apply (rootContainer_repeats isKnown).bind
    intro container _
    exact summarized_repeats container
  apply opened.attempt.bind
  intro container _
  exact .pure trivial

private theorem way_repeats (way : List Segment) {start : Option Container}
    (trusted : ∀ container, start = some container → container.Trusted registry known) :
    (way.foldlM stepInto start).Repeats registry known fun _ => True := by
  induction way generalizing start with
  | nil => exact .pure trivial
  | cons segment rest ih =>
    rw [List.foldlM_cons]
    apply (stepInto_repeats trusted segment).bind
    intro nested inside
    exact ih inside

private def tellReached (asked : Option (List String)) : Option Container → Action Answer
  | none => return .noContainer
  | some container => do
    let summary ← summarized container
    return .opened summary (← asked.mapM (told container))

private theorem tellReached_repeats (asked : Option (List String)) (reached : Option Container) :
    (tellReached asked reached).Repeats registry known fun _ => True := by
  cases reached with
  | none => exact .pure trivial
  | some container =>
    apply (summarized_repeats container).bind
    intro summary _
    have asks : (asked.mapM (told container)).Repeats registry known fun _ => True :=
      .mapOption fun names _ => told_repeats container names
    apply asks.bind
    intro answers _
    exact .pure trivial

private theorem container_repeats (label : String) (path : Option String) (way : List Segment)
    (asked : Option (List String)) : (run (.container label path way asked)).Repeats registry known fun _ => True := by
  apply (labelled_repeats label).bind
  intro cls isKnown
  have tells (start : Container) (trusted : start.Trusted registry known) :
      (way.foldlM stepInto (some start) >>= tellReached asked).Repeats registry known fun _ => True := by
    have inside : ∀ container, some start = some container → container.Trusted registry known := by
      rintro container same
      cases same
      exact trusted
    apply (way_repeats way inside).bind
    intro reached _
    exact tellReached_repeats asked reached
  cases path with
  | none =>
    apply (offering_repeats .rootContainer isKnown).bind
    intro schema schemaKnown
    apply (rootContainer_repeats schemaKnown).bind
    exact tells
  | some path =>
    apply (offering_repeats .container isKnown).bind
    intro schema _
    apply Repeats.amended.bind
    rintro amendments rfl
    have nowhere : ∀ container, ({} : Amendments).opening schema path none = .ok container →
        container.Trusted registry known := by
      intro container opened place standing
      rw [Container.place_of_ofSchema opened] at standing
      cases standing
    apply (Repeats.raise nowhere).bind
    exact tells

private def tellBound (copy : Property) (nested : Except Container.Fault (Option Container)) : Action Answer := do
  let summary ← raise .ofBreakdown (PropertySummary.of {} copy)
  let nested ← raise .container nested
  return .bound summary (← nested.mapM fun container => raise .ofBreakdown (ContainerSummary.of {} true container))

private theorem tellBound_repeats (copy : Property) (nested : Except Container.Fault (Option Container)) :
    (tellBound copy nested).Repeats registry known fun _ => True := by
  apply Repeats.raise_any.bind
  intro summary _
  apply Repeats.raise_any.bind
  intro nested _
  have tells : (nested.mapM fun container => raise .ofBreakdown (ContainerSummary.of {} true container)).Repeats
      registry known fun _ => True :=
    .mapOption fun container _ => .raise_any
  apply tells.bind
  intro told _
  exact .pure trivial

private theorem bind_repeats (label name : String) (path : Option String) :
    (run (.bind label name path)).Repeats registry known fun _ => True := by
  apply (labelled_repeats label).bind
  intro cls isKnown
  apply (offering_repeats .rootContainer isKnown).bind
  intro schema schemaKnown
  apply (rootContainer_repeats schemaKnown).bind
  intro container _
  apply Repeats.settle_any.bind
  intro property _
  apply Repeats.amended.bind
  rintro amendments rfl
  apply Repeats.amended.bind
  rintro amendments rfl
  apply Repeats.get
  rintro session sound rfl
  let copy := (({} : Amendments).copyOf property container path).1
  have loose := Context.loose_forgotten sound.memory (show copy.place = some { ground := .loose } from rfl)
  refine ⟨tellBound copy (({ registry := session.context.registry, memory := .forgetful } : Context).nested copy),
    ?_, rfl, tellBound_repeats copy _⟩
  rw [← loose]
  rfl

private theorem got_repeats (pointer : Pointer) :
    (reading pointer fun context => pointer.get context).Repeats registry known fun _ => True := by
  refine Repeats.reading ?_ fun _ _ => trivial
  intro memory record inert
  exact congrArg _ (Route.read_forgotten inert)

private theorem traced_repeats (pointer : Pointer) :
    (reading pointer fun context => pointer.trace context).Repeats registry known fun _ => True := by
  refine Repeats.reading ?_ fun _ _ => trivial
  intro memory record inert
  simp only [Pointer.trace, Route.trace_forgotten inert]

/-- A step that only looks at what there is does the same whatever was opened before. -/
theorem access_repeats (access : step.isAccess = true) : (run step).Repeats registry known fun _ => True := by
  cases step with
  | parse type pointer dashAllowed byClass keep =>
    rw [run_parse]
    apply (parsing_repeats type pointer dashAllowed byClass).bind
    intro pointer _
    exact unkept_repeats access pointer
  | child parent token dashAllowed keep => exact child_repeats access parent token dashAllowed
  | divide parent token keep =>
    apply (pointer_repeats parent).bind
    intro above trusted
    apply (dividing_repeats trusted token).bind
    intro child _
    exact unkept_repeats access child
  | chain pointer =>
    apply (pointer_repeats pointer).bind
    intro pointer _
    exact .pure trivial
  | compare first second =>
    apply (pointer_repeats first).bind
    intro first _
    apply (pointer_repeats second).bind
    intro second _
    exact .pure trivial
  | location pointer resolved =>
    apply (pointer_repeats pointer).bind
    intro pointer _
    apply Repeats.raise_any.bind
    intro location _
    apply Repeats.get
    intro session _ _
    exact ⟨_, rfl, rfl, .pure trivial⟩
  | get pointer =>
    apply (pointer_repeats pointer).bind
    intro pointer _
    apply (got_repeats pointer).bind
    intro outcome _
    apply Repeats.raise_any.bind
    intro value _
    exact .pure trivial
  | trace pointer =>
    apply (pointer_repeats pointer).bind
    intro pointer _
    apply (traced_repeats pointer).bind
    intro trace _
    apply (got_repeats pointer).bind
    intro outcome _
    exact .pure trivial
  | add | replace | remove | setRecord | define | register => cases access
  | describe label => exact describe_repeats label
  | field label key =>
    apply (labelled_repeats label).bind
    intro cls isKnown
    apply (offering_repeats .field isKnown).bind
    intro schema _
    apply Repeats.settle_any.bind
    intro summary _
    exact .pure trivial
  | container label path way asked => exact container_repeats label path way asked
  | bind label property path => exact bind_repeats label property path
  | registered choice key =>
    apply (target_repeats key).bind
    intro target _
    apply (choice_repeats choice).bind
    intro chosen knows
    apply (schemaIn_repeats knows target).bind
    intro schema _
    apply (labelOf_repeats schema).bind
    intro label _
    exact .pure trivial
  | registeredContainer choice key =>
    apply (target_repeats key).bind
    intro target _
    apply (choice_repeats choice).bind
    intro chosen knows
    apply (schemaIn_repeats knows target).bind
    intro schema isKnown
    apply (rootContainer_repeats isKnown).bind
    intro container _
    apply (summarized_repeats container).bind
    intro summary _
    exact .pure trivial
  | parseRegistered choice key pointer dashAllowed keep =>
    rw [run_parseRegistered]
    apply (parsingRegistered_repeats choice key pointer dashAllowed).bind
    intro pointer _
    exact unkept_repeats access pointer
  | recordTypes choice asked =>
    apply (choice_repeats choice).bind
    intro chosen _
    exact .pure trivial
  | report kind source =>
    apply (acceptSource_repeats source).bind
    intro accepted _
    apply Repeats.raise_any.bind
    intro report _
    exact .pure trivial
  | encode value layout =>
    apply (accept_repeats value).bind
    intro accepted _
    apply Repeats.raise_any.bind
    intro text _
    exact .pure trivial

end RecordAddress.Session
