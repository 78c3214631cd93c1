import RecordAddress.Proofs.Mirroring

/-! Containers that are opened when they are first asked for and then kept open. As long as no record type changes
hands, a whole session comes to the same as one that opens every container anew, and what is looked at in between
makes no difference to it. -/

namespace RecordAddress.Session

/-- A session as it can be by now, for some classes. -/
def Consistent (session : Session) : Prop :=
  ∃ known, session.Sound known

/-- Sessions that only differ in what was opened and reported. -/
def Agrees (session other : Session) : Prop :=
  session.quiet.forgetting = other.quiet.forgetting

variable {session other : Session} {next access : Step}

theorem consistent_start (rootLabel : String) : ({ rootLabel } : Session).Consistent := by
  refine ⟨(· = Schema.base), ?_⟩
  exact
    { unamended := rfl
      distinct := by
        rintro first second rfl rfl _
        rfl
      fresh := by
        rintro schema rfl
        exact Nat.lt_succ_self _
      memory := Memory.genuine_of_empty
      labels := by
        intro entry within
        obtain rfl := List.mem_singleton.mp within
        rfl
      registry := nofun
      spare := nofun
      pointers := nofun
      record := rfl }

/-! Single steps. -/

theorem step_eq (next : Step) (session : Session) :
    step next session =
      (⟨((run next).run session.quiet).1, ((run next).run session.quiet).2.events⟩, ((run next).run session.quiet).2) :=
  rfl

theorem step_forgetting (consistent : session.Consistent) (plain : next.isPlain = true) :
    step next session.forgetting = ((step next session).1, (step next session).2.forgetting) := by
  obtain ⟨known, sound⟩ := consistent
  have quiet : session.quiet.Sound known := { sound with }
  obtain ⟨_, mirrors⟩ := run_mirrors quiet plain
  have apart : session.forgetting.quiet = session.quiet.forgetting := rfl
  rw [step_eq, step_eq, apart, mirrors.same]
  rfl

theorem step_consistent (consistent : session.Consistent) (plain : next.isPlain = true)
    (keeps : session.context.registry.KeepsHolders (step next session).2.context.registry) :
    (step next session).2.Consistent := by
  obtain ⟨known, sound⟩ := consistent
  have quiet : session.quiet.Sound known := { sound with }
  obtain ⟨larger, mirrors⟩ := run_mirrors quiet plain
  exact ⟨larger, mirrors.sound keeps⟩

/-- Looking at something only leaves the containers that were opened for it. -/
theorem step_access (consistent : session.Consistent) (looks : access.isAccess = true) :
    (step access session).2.Consistent ∧ (step access session).2.Agrees session := by
  obtain ⟨known, sound⟩ := consistent
  have quiet : session.quiet.Sound known := { sound with }
  obtain ⟨result, opened, events, trusted, here, -, -⟩ := access_repeats looks session.quiet quiet rfl
  rw [step_eq, here]
  -- What is met is forgotten, and what is reported is silenced.
  exact ⟨⟨known, quiet.meeting trusted events⟩, rfl⟩

/-- Sessions that agree go on agreeing. -/
theorem step_agrees (consistent : session.Consistent) (otherConsistent : other.Consistent)
    (agrees : other.Agrees session) (plain : next.isPlain = true) :
    (step next other).1 = (step next session).1 ∧ (step next other).2.forgetting = (step next session).2.forgetting := by
  have silent (from_ : Session) : step next from_.forgetting = step next from_.quiet.forgetting := rfl
  have same : step next other.forgetting = step next session.forgetting := by
    rw [silent other, silent session, agrees]
  rw [step_forgetting otherConsistent plain, step_forgetting consistent plain] at same
  exact Prod.mk.inj same

/-! Whole sessions. -/

/-- What comes of steps that are taken one after another, each with the record that it leaves. -/
def transcript : List Step → Session → List (Outcome × Value)
  | [], _ => []
  | next :: rest, session =>
    let (outcome, after) := step next session
    (outcome, after.record) :: transcript rest after

/-- The session after steps that nobody asks the answers of. -/
def visiting (session : Session) (accesses : List Step) : Session :=
  accesses.foldl (fun session access => (step access session).2) session

/-- What comes of steps, each of which has others before it that are not told of. -/
def transcriptAmid : List (List Step × Step) → Session → List (Outcome × Value)
  | [], _ => []
  | (accesses, next) :: rest, session =>
    let (outcome, after) := step next (session.visiting accesses)
    (outcome, after.record) :: transcriptAmid rest after

/-- No step gives a record type to another class than the one that holds it. -/
def Steady : List Step → Session → Prop
  | [], _ => True
  | next :: rest, session =>
    session.context.registry.KeepsHolders (step next session).2.context.registry ∧ Steady rest (step next session).2

theorem visiting_agrees {accesses : List Step} (looks : ∀ access ∈ accesses, access.isAccess = true)
    (consistent : session.Consistent) :
    (session.visiting accesses).Consistent ∧ (session.visiting accesses).Agrees session := by
  induction accesses generalizing session with
  | nil => exact ⟨consistent, rfl⟩
  | cons access rest ih =>
    obtain ⟨later, agrees⟩ := step_access consistent (looks access List.mem_cons_self)
    obtain ⟨last, lastAgrees⟩ := ih (fun other within => looks other (List.mem_cons_of_mem _ within)) later
    exact ⟨last, lastAgrees.trans agrees⟩

theorem transcript_forgetting {steps : List Step} (consistent : session.Consistent)
    (plain : ∀ next ∈ steps, next.isPlain = true) (steady : Steady steps session) :
    transcript steps session.forgetting = transcript steps session := by
  induction steps generalizing session with
  | nil => rfl
  | cons next rest ih =>
    obtain ⟨keeps, steady⟩ := steady
    have first := plain next List.mem_cons_self
    have later := ih (step_consistent consistent first keeps)
      (fun other within => plain other (List.mem_cons_of_mem _ within)) steady
    simp only [transcript, step_forgetting consistent first, later]
    rfl

theorem transcriptAmid_eq {steps : List (List Step × Step)} (consistent : session.Consistent)
    (otherConsistent : other.Consistent) (agrees : other.Agrees session)
    (plain : ∀ visit ∈ steps, visit.2.isPlain = true)
    (looks : ∀ visit ∈ steps, ∀ access ∈ visit.1, access.isAccess = true)
    (steady : Steady (steps.map Prod.snd) session) :
    transcriptAmid steps other = transcript (steps.map Prod.snd) session := by
  induction steps generalizing session other with
  | nil => rfl
  | cons visit rest ih =>
    obtain ⟨accesses, next⟩ := visit
    obtain ⟨keeps, steady⟩ := steady
    have first : next.isPlain = true := plain _ List.mem_cons_self
    obtain ⟨visited, visitedAgrees⟩ := visiting_agrees (looks _ List.mem_cons_self) otherConsistent
    obtain ⟨outcomes, afterwards⟩ := step_agrees consistent visited (visitedAgrees.trans agrees) first
    have records : (step next (other.visiting accesses)).2.record = (step next session).2.record :=
      congrArg (·.record) afterwards
    have registries : (step next (other.visiting accesses)).2.context.registry = (step next session).2.context.registry :=
      congrArg (·.context.registry) afterwards
    have before : (other.visiting accesses).context.registry = session.context.registry :=
      congrArg (·.context.registry) (visitedAgrees.trans agrees)
    have later := step_consistent consistent first keeps
    have otherLater : (step next (other.visiting accesses)).2.Consistent := by
      apply step_consistent visited first
      rw [before, registries]
      exact keeps
    have agreeLater : (step next (other.visiting accesses)).2.Agrees (step next session).2 :=
      congrArg quiet afterwards
    have rests := ih later otherLater agreeLater (fun other within => plain other (List.mem_cons_of_mem _ within))
      (fun other within => looks other (List.mem_cons_of_mem _ within)) steady
    simp only [transcriptAmid, transcript, List.map_cons, outcomes, records, rests]

/-! Whether a session is steady can be computed as long as all record types are texts. -/

def keepsListed (before after : Registry) : Bool :=
  before.entries.all fun entry =>
    entry.1.text?.isSome && decide ((after.find? entry.1).map Schema.id = some entry.2.id)

def isSteady : List Step → Session → Bool
  | [], _ => true
  | next :: rest, session =>
    keepsListed session.context.registry (step next session).2.context.registry && isSteady rest (step next session).2

theorem keepsHolders_of_listed {before after : Registry} (listed : keepsListed before after = true) :
    before.KeepsHolders after := by
  intro recordType holder held
  obtain ⟨entry, found, rfl⟩ := Option.map_eq_some_iff.mp held
  have same := List.find?_some found
  have kept := List.all_eq_true.mp listed entry (List.mem_of_find?_eq_some found)
  simp only [Bool.and_eq_true, decide_eq_true_eq, Option.isSome_iff_exists] at kept
  obtain ⟨⟨text, isText⟩, kept⟩ := kept
  obtain ⟨given, _⟩ := entry
  cases given <;> cases isText
  obtain rfl : text = recordType := by simpa [Value.isSame] using same
  exact kept

theorem steady_of_isSteady {steps : List Step} (computed : isSteady steps session = true) : Steady steps session := by
  induction steps generalizing session with
  | nil => trivial
  | cons next rest ih =>
    simp only [isSteady, Bool.and_eq_true] at computed
    exact ⟨keepsHolders_of_listed computed.1, ih computed.2⟩

/-- When and how often containers are opened is not seen in any answer or record. As long as no record type changes
hands and no pointers are in the record, a session comes to the same as one that remembers no containers, and it
does so with whatever is parsed, opened or looked at between its steps. -/
theorem containers_open_unnoticed {rootLabel : String} {steps : List (List Step × Step)}
    (plain : ∀ visit ∈ steps, visit.2.isPlain = true)
    (looks : ∀ visit ∈ steps, ∀ access ∈ visit.1, access.isAccess = true)
    (steady : Steady (steps.map Prod.snd) { rootLabel }) :
    transcript (steps.map Prod.snd) { rootLabel } =
      transcript (steps.map Prod.snd) { rootLabel, context := { memory := .forgetful } } ∧
    transcriptAmid steps { rootLabel } = transcript (steps.map Prod.snd) { rootLabel } := by
  have consistent := consistent_start rootLabel
  have allPlain : ∀ next ∈ steps.map Prod.snd, next.isPlain = true := by
    intro next within
    obtain ⟨visit, inside, rfl⟩ := List.mem_map.mp within
    exact plain visit inside
  refine ⟨?_, transcriptAmid_eq consistent consistent rfl plain looks steady⟩
  exact (transcript_forgetting consistent allPlain steady).symm

/-- Defines a class of the given fields under its name. -/
def declaring (name : String) (fields : List (String × FieldSource)) : Step :=
  .define { name, label := name, bases := [Schema.base.name], isMixin := false, fields, options := none }

def parsed (type : TypeSource) (text : String) : Step :=
  .parse type (.plain (.text text)) true false none

/-- The record type of an item is asked for before and after there is one. -/
def lateItem : List (List Step × Step) := [
  ([], declaring "Order" [("item", .nested (.recordType "Item") "" "")]),
  ([parsed .root "/item/name", .describe "Order"], declaring "Item" [("name", .scalar "string" "" "")]),
  ([parsed (.label "Item") "", parsed .root "/item/name"], .setRecord (.dict [("item", .dict [("name", .plain (.text "pen"))])])),
  ([parsed .root "/item"], .get (.text "/item/name"))]

theorem late_item_opens_unnoticed :
    Steady (lateItem.map Prod.snd) { rootLabel := "Order" } ∧
    transcript (lateItem.map Prod.snd) { rootLabel := "Order" } =
      transcript (lateItem.map Prod.snd) { rootLabel := "Order", context := { memory := .forgetful } } ∧
    transcriptAmid lateItem { rootLabel := "Order" } = transcript (lateItem.map Prod.snd) { rootLabel := "Order" } := by
  have steady : Steady (lateItem.map Prod.snd) { rootLabel := "Order" } := steady_of_isSteady (by decide +kernel)
  exact ⟨steady, containers_open_unnoticed (by decide) (by decide) steady⟩

/-- The record holds one of its own pointers, and a way leads on to the root container of a class. -/
def heldPointer : List (List Step × Step) := [
  ([], declaring "Opened" [("path", .scalar "string" "" "nested_path")]),
  ([], declaring "Class" [("opened", .nested (.label "Opened") "" "_root_container")]),
  ([], declaring "Container" [("schema", .nested (.label "Class") "" "")]),
  ([], declaring "Pointer" [("children", .nested (.label "Container") "" "children_container")]),
  ([], declaring "Event" [("on", .scalar "string" "" "")]),
  ([], declaring "Order" [("first", .nested (.label "Event") "" ""), ("held", .nested (.label "Pointer") "" "")]),
  ([], .setRecord (.dict [("held", .pointer "/first")])),
  ([parsed (.label "Event") ""], .get (.text "/held/children/schema/opened/path"))]

/-- Below a pointer that a record holds it is seen whether the root container of a class was opened before. -/
theorem held_pointer_shows_openings :
    Steady (heldPointer.map Prod.snd) { rootLabel := "Order" } ∧
    (∀ visit ∈ heldPointer, ∀ access ∈ visit.1, access.isAccess = true) ∧
    transcriptAmid heldPointer { rootLabel := "Order" } ≠ transcript (heldPointer.map Prod.snd) { rootLabel := "Order" } := by
  refine ⟨steady_of_isSteady (by decide +kernel), by decide, fun same => ?_⟩
  have succeeded := congrArg (List.map fun entry => entry.1.answer.toBool) same
  revert succeeded
  decide +kernel

end RecordAddress.Session
