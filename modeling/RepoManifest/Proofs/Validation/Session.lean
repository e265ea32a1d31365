import RepoManifest.Proofs.Validation.ByField
import RepoManifest.Proofs.Validation.Writable
import RepoManifest.Validation.Session

/-!
# Validators over whole runs

Every operation writes only to the validator's own list or to a list that it has just made, and no
error refers to the validator's own list. So whatever happens afterwards, an error that was handed
out keeps its violations, and the validator holds exactly what was recorded. An operation fails only
if it has to write an integer of too many digits, in the path of what it records or in a line of the
error that it tells of; then nothing changes.
-/

namespace RepoManifest.Validator

/-- What an operation is to record. -/
def Operation.finding? : Operation → Option Finding
  | .append e value path => e.map (Finding.mk path value)
  | .required path => some ⟨path, .null, .empty⟩
  | .invalid value path => some ⟨path, value, .ofKind .invalid⟩
  | .readAndClear | .byField | .error | .check => none

/-- Whether an operation asks for the error. -/
def Operation.asks : Operation → Bool
  | .error | .check => true
  | .append .. | .required _ | .invalid .. | .readAndClear | .byField => false

/-- Whether an operation tells of the error, to hand it out or to read from it. -/
def Operation.tells (operation : Operation) : Bool :=
  operation.asks || operation matches .byField

/-- What operations record, in order: what they are to record, where its path can be written. -/
def recorded (operations : List Operation) : List Finding :=
  (operations.filterMap Operation.finding?).filter (·.path.isWritable)

/-- The invalid object of a name with some findings. -/
def objectOf (name : String) (findings : List Finding) : InvalidObject :=
  ⟨name, findings.map Finding.violation⟩

/-- Whether the lines of findings can be written. -/
def legible (findings : List Finding) : Bool := findings.all (·.violation.isWritable)

/-- Whether an operation has all its texts, after some findings. -/
def Operation.isWritable (operation : Operation) (findings : List Finding) : Bool :=
  operation.finding?.all (·.path.isWritable) && (!operation.tells || legible findings)

/-- The message of an invalid object is written exactly if the lines of its findings can be. -/
theorem message_objectOf (name : String) (findings : List Finding) :
    (objectOf name findings).message =
      if legible findings then .ok (objectOf name findings).text else .error .tooManyDigits := by
  have hwritable : (objectOf name findings).isWritable = legible findings := by
    simp only [InvalidObject.isWritable, objectOf, legible, List.all_map, Function.comp_def]
  rw [InvalidObject.message_eq, hwritable]

namespace Session

variable {name : String} {findings : List Finding} {s t u : Session}

/-! ## Lists at addresses -/

/-- A list is what was written to its address. -/
theorem list_write_self {address : Nat} (h : address < s.lists.length)
    (contents : List Violation) : (s.write address contents).list address = contents := by
  simp [list, write, h]

/-- Writing changes no other list. -/
theorem list_write_of_ne (s : Session) {address other : Nat} (h : address ≠ other)
    (contents : List Violation) : (s.write address contents).list other = s.list other := by
  simp [list, write, h]

/-- A copy changes no list that exists. -/
theorem list_copyOwn_of_lt {address : Nat} (h : address < s.lists.length) :
    s.copyOwn.list address = s.list address := by
  simp [list, copyOwn, List.getElem?_append_left h]

/-- A validator with its findings: its own list holds them and is the list of no error, and the
lists of all errors exist. -/
structure Holds (name : String) (findings : List Finding) (s : Session) : Prop where
  name_eq : s.name = name
  own_lt : s.own < s.lists.length
  own_eq : s.list s.own = findings.map Finding.violation
  handed_lt : ∀ e ∈ s.handed, e.violations < s.lists.length
  handed_ne : ∀ e ∈ s.handed, e.violations ≠ s.own

/-- Errors that were handed out are still there and hold what they held. -/
structure Keeps (s t : Session) : Prop where
  mem_handed : ∀ e ∈ s.handed, e ∈ t.handed
  object_eq : ∀ e ∈ s.handed, t.object e = s.object e

/-- Nothing changes in no time. -/
theorem Keeps.refl (s : Session) : Keeps s s := ⟨fun _ h ↦ h, fun _ _ ↦ rfl⟩

/-- What is kept twice is kept over both. -/
theorem Keeps.trans (hst : Keeps s t) (htu : Keeps t u) : Keeps s u where
  mem_handed e h := htu.mem_handed e (hst.mem_handed e h)
  object_eq e h := (htu.object_eq e (hst.mem_handed e h)).trans (hst.object_eq e h)

/-- Seen as a validator, a session has the violations of its findings. -/
theorem Holds.validator_eq (h : Holds name findings s) :
    s.validator = ⟨name, findings.map Finding.violation⟩ := by
  rw [validator, h.name_eq, h.own_eq]

/-- There is an error to hand out exactly if there are findings. -/
theorem Holds.error?_eq (h : Holds name findings s) :
    s.validator.error? = if findings = [] then none else some (objectOf name findings) := by
  rw [h.validator_eq, error?, objectOf]
  cases findings <;> rfl

/-- The error is there exactly if there are findings, and told of if their lines can be written. -/
theorem Holds.error_eq (h : Holds name findings s) :
    s.error = if findings = [] then .ok none
      else if legible findings then .ok (some (objectOf name findings))
      else .error .tooManyDigits := by
  rw [error, h.error?_eq]
  by_cases hnil : findings = []
  · simp only [if_pos hnil]
  · simp only [if_neg hnil, message_objectOf]
    cases legible findings <;> rfl

/-- Findings are raised, if there are any and their lines can be written. -/
theorem Holds.check_eq (h : Holds name findings s) :
    s.check = if findings = [] then .ok ()
      else if legible findings then .error (.invalid (objectOf name findings))
      else .error (.misuse .tooManyDigits) := by
  rw [check, h.error_eq]
  by_cases hnil : findings = []
  · simp only [if_pos hnil]
  · simp only [if_neg hnil]
    cases legible findings <;> rfl

/-- There is no error exactly if there are no findings. -/
theorem Holds.error_eq_none_iff (h : Holds name findings s) :
    s.error = .ok none ↔ findings = [] := by
  rw [h.error_eq]
  by_cases hnil : findings = []
  · simp [hnil]
  · cases hlegible : legible findings <;> simp [hnil]

/-- Nothing is raised exactly if there are no findings. -/
theorem Holds.check_eq_ok_iff (h : Holds name findings s) :
    s.check = .ok () ↔ findings = [] := by
  rw [h.check_eq]
  by_cases hnil : findings = []
  · simp [hnil]
  · cases hlegible : legible findings <;> simp [hnil]

/-- The table of error texts is the table of the findings, if their lines can be written. -/
theorem Holds.byField_eq (h : Holds name findings s) :
    s.byField = if legible findings then .ok (textTable findings) else .error .tooManyDigits := by
  rw [byField, h.error_eq]
  by_cases hnil : findings = []
  · subst hnil
    rfl
  · rw [if_neg hnil]
    cases legible findings with
    | false => rfl
    | true => exact InvalidObject.byField_eq name findings

/-! ## Operations that record -/

/-- More findings in the validator's own list. -/
theorem Holds.write_own (h : Holds name findings s) (more : List Finding) :
    Holds name (findings ++ more) (s.write s.own ((findings ++ more).map Finding.violation)) where
  name_eq := h.name_eq
  own_lt := by simpa [write] using h.own_lt
  own_eq := list_write_self h.own_lt _
  handed_lt e he := by simpa [write] using h.handed_lt e he
  handed_ne := h.handed_ne

/-- Writing the validator's own list changes no error. -/
theorem Holds.keeps_write_own (h : Holds name findings s) (contents : List Violation) :
    Keeps s (s.write s.own contents) where
  mem_handed _ he := he
  object_eq e he := by
    rw [object, object, list_write_of_ne s (h.handed_ne e he).symm]

/-- To record something is to write one more finding to the validator's own list, if its path can be
written. -/
theorem Holds.recordAt_append (h : Holds name findings s) (error : FieldError) (value : Value)
    (path : FieldPath) :
    s.recordAt path (fun v path ↦ v.append (some error) value path) =
      if path.isWritable then
        .ok (s.write s.own
          ((findings ++ [(⟨path, value, error⟩ : Finding)]).map Finding.violation))
      else .error .tooManyDigits := by
  have happend := append_toValue s.validator error value path
  have hmore : (s.validator.record error value path).violations =
      (findings ++ [(⟨path, value, error⟩ : Finding)]).map Finding.violation := by
    rw [violations_record, h.validator_eq, List.map_append]
    rfl
  rw [recordAt, FieldPath.written]
  split
  · rw [happend, ← hmore]
    rfl
  · rfl

/-! ## Operations that copy -/

/-- A session with the same errors, in which every list is as it was, holds what it held. -/
theorem Holds.of_lists (h : Holds name findings s) (hname : t.name = s.name) (hown : t.own = s.own)
    (hhanded : t.handed = s.handed) (hlength : s.lists.length ≤ t.lists.length)
    (hlist : ∀ address < s.lists.length, t.list address = s.list address) :
    Holds name findings t ∧ Keeps s t := by
  have hholds : Holds name findings t :=
    { name_eq := hname.trans h.name_eq
      own_lt := hown ▸ Nat.lt_of_lt_of_le h.own_lt hlength
      own_eq := by rw [hown, hlist _ h.own_lt, h.own_eq]
      handed_lt := fun e he ↦ Nat.lt_of_lt_of_le (h.handed_lt e (hhanded ▸ he)) hlength
      handed_ne := fun e he ↦ hown ▸ h.handed_ne e (hhanded ▸ he) }
  refine ⟨hholds, fun e he ↦ hhanded ▸ he, fun e he ↦ ?_⟩
  rw [object, object, hlist _ (h.handed_lt e he)]

/-- Copying changes nothing else. -/
theorem Holds.copyOwn (h : Holds name findings s) :
    Holds name findings s.copyOwn ∧ Keeps s s.copyOwn := by
  refine h.of_lists rfl rfl rfl ?_ fun address ha ↦ list_copyOwn_of_lt ha
  simp [Session.copyOwn]

/-- Clearing a copy changes nothing else. -/
theorem Holds.clearCopy (h : Holds name findings s) :
    Holds name findings (s.copyOwn.write s.lists.length []) ∧
      Keeps s (s.copyOwn.write s.lists.length []) := by
  refine h.of_lists rfl rfl rfl ?_ fun address ha ↦ ?_
  · simp [Session.copyOwn, write]
  · rw [list_write_of_ne _ (Nat.ne_of_gt ha), list_copyOwn_of_lt ha]

/-- Without findings there is nothing to hand out. -/
theorem Holds.handOut_of_nil (h : Holds name [] s) : s.handOut = .ok s := by
  rw [handOut, h.error?_eq]
  rfl

/-- The error that is handed out when there are findings. -/
def nextError (name : String) (findings : List Finding) (s : Session) : HandedError :=
  ⟨name, s.lists.length, (objectOf name findings).text⟩

/-- The session after an error was handed out. -/
def afterHanding (name : String) (findings : List Finding) (s : Session) : Session :=
  { s.copyOwn with handed := s.handed ++ [nextError name findings s] }

/-- With findings, the error is handed out with a copy, if their lines can be written. -/
theorem Holds.handOut_of_ne_nil (h : Holds name findings s) (hne : findings ≠ []) :
    s.handOut = if legible findings then .ok (afterHanding name findings s)
      else .error .tooManyDigits := by
  rw [handOut, h.error?_eq, if_neg hne]
  dsimp only
  rw [message_objectOf]
  cases legible findings <;> rfl

/-- An error with a list of its own may be handed out. -/
theorem Holds.hand (h : Holds name findings s) {e : HandedError}
    (hlt : e.violations < s.lists.length) (hne : e.violations ≠ s.own) :
    Holds name findings { s with handed := s.handed ++ [e] } ∧
      Keeps s { s with handed := s.handed ++ [e] } := by
  refine ⟨⟨h.name_eq, h.own_lt, h.own_eq, fun d hd ↦ ?_, fun d hd ↦ ?_⟩,
    fun d hd ↦ List.mem_append_left _ hd, fun d _ ↦ rfl⟩
  · obtain hd | rfl := List.mem_append.mp hd |>.imp_right List.mem_singleton.mp
    · exact h.handed_lt d hd
    · exact hlt
  · obtain hd | rfl := List.mem_append.mp hd |>.imp_right List.mem_singleton.mp
    · exact h.handed_ne d hd
    · exact hne

/-- Handing out changes nothing else. -/
theorem Holds.afterHanding (h : Holds name findings s) :
    Holds name findings (afterHanding name findings s) ∧
      Keeps s (Session.afterHanding name findings s) := by
  obtain ⟨hcopy, hkeeps⟩ := h.copyOwn
  have hlt : (nextError name findings s).violations < s.copyOwn.lists.length := by
    simp [nextError, Session.copyOwn]
  have hown : (nextError name findings s).violations ≠ s.copyOwn.own := Nat.ne_of_gt h.own_lt
  obtain ⟨hhand, hkept⟩ := hcopy.hand hlt hown
  exact ⟨hhand, hkeeps.trans hkept⟩

/-- The error is handed out, if there is one, exactly if the lines of the findings can be written;
nothing else changes. -/
theorem Holds.handOut (h : Holds name findings s) :
    (legible findings = true → ∃ t, s.handOut = .ok t ∧ Holds name findings t ∧ Keeps s t) ∧
    (legible findings = false → s.handOut = .error .tooManyDigits) := by
  by_cases hnil : findings = []
  · subst hnil
    exact ⟨fun _ ↦ ⟨s, h.handOut_of_nil, h, Keeps.refl s⟩, fun hno ↦ by cases hno⟩
  · rw [h.handOut_of_ne_nil hnil]
    exact ⟨fun hlegible ↦ ⟨_, if_pos hlegible, h.afterHanding⟩,
      fun hlegible ↦ if_neg (by simp [hlegible])⟩

/-! ## Steps and runs -/

/-- What a step gives: more findings, and the errors handed out before, or a failure. -/
structure StepsTo (name : String) (findings : List Finding) (s : Session) (operation : Operation) :
    Prop where
  succeeds : operation.isWritable findings = true → ∃ t, s.step operation = .ok t ∧
    Holds name (findings ++ operation.finding?.toList) t ∧ Keeps s t
  fails : operation.isWritable findings = false → s.step operation = .error .tooManyDigits

/-- A step that records something does so if the path can be written. -/
theorem Holds.stepsTo_record (h : Holds name findings s) {operation : Operation}
    {error : FieldError} {value : Value} {path : FieldPath}
    (hfinding : operation.finding? = some ⟨path, value, error⟩) (htells : operation.tells = false)
    (hstep : s.step operation = s.recordAt path fun v path ↦ v.append (some error) value path) :
    StepsTo name findings s operation := by
  have hwritable : operation.isWritable findings = path.isWritable := by
    simp [Operation.isWritable, hfinding, htells]
  constructor
  · intro hpath
    rw [hwritable] at hpath
    rw [hstep, h.recordAt_append, if_pos hpath, hfinding]
    exact ⟨_, rfl, h.write_own _, h.keeps_write_own _⟩
  · intro hpath
    rw [hwritable] at hpath
    rw [hstep, h.recordAt_append, hpath]
    rfl

/-- A step that asks for the error has it handed out. -/
theorem Holds.stepsTo_ask (h : Holds name findings s) {operation : Operation}
    (hfinding : operation.finding? = none) (htells : operation.tells = true)
    (hstep : s.step operation = s.handOut) : StepsTo name findings s operation := by
  have hwritable : operation.isWritable findings = legible findings := by
    simp [Operation.isWritable, hfinding, htells]
  refine ⟨fun hlegible ↦ ?_, fun hlegible ↦ ?_⟩
  · rw [hfinding, hstep, Option.toList_none, List.append_nil]
    exact h.handOut.1 (hwritable ▸ hlegible)
  · rw [hstep]
    exact h.handOut.2 (hwritable ▸ hlegible)

/-- A step that reads the error texts changes nothing. -/
theorem Holds.stepsTo_byField (h : Holds name findings s) : StepsTo name findings s .byField := by
  have hwritable : Operation.byField.isWritable findings = legible findings := rfl
  constructor
  · intro hlegible
    rw [hwritable] at hlegible
    rw [Operation.finding?, Option.toList_none, List.append_nil]
    have htable := h.byField_eq.trans (if_pos hlegible)
    by_cases hnil : findings = []
    · subst hnil
      refine ⟨s, ?_, h, Keeps.refl s⟩
      rw [step, h.handOut_of_nil, htable]
      rfl
    · refine ⟨s.copyOwn, ?_, h.copyOwn⟩
      rw [step, h.handOut_of_ne_nil hnil, if_pos hlegible, htable]
      rfl
  · intro hno
    rw [step, h.handOut.2 (hwritable ▸ hno)]
    rfl

/-- A step that neither records nor tells of anything succeeds. -/
theorem stepsTo_of_silent {operation : Operation} (hfinding : operation.finding? = none)
    (htells : operation.tells = false) (hstep : s.step operation = .ok t)
    (ht : Holds name findings t ∧ Keeps s t) : StepsTo name findings s operation := by
  have hwritable : operation.isWritable findings = true := by
    simp [Operation.isWritable, hfinding, htells]
  constructor
  · intro _
    rw [hfinding, Option.toList_none, List.append_nil]
    exact ⟨t, hstep, ht⟩
  · intro hno
    rw [hwritable] at hno
    cases hno

/-- Every step gives more findings or fails. -/
theorem Holds.stepsTo (h : Holds name findings s) (operation : Operation) :
    StepsTo name findings s operation := by
  cases operation with
  | append e value path =>
    cases e with
    | none => exact stepsTo_of_silent rfl rfl rfl ⟨h, Keeps.refl s⟩
    | some e => exact h.stepsTo_record rfl rfl rfl
  | required path => exact h.stepsTo_record rfl rfl rfl
  | invalid value path => exact h.stepsTo_record rfl rfl rfl
  | readAndClear => exact stepsTo_of_silent rfl rfl rfl h.clearCopy
  | byField => exact h.stepsTo_byField
  | error => exact h.stepsTo_ask rfl rfl rfl
  | check => exact h.stepsTo_ask rfl rfl rfl

/-- An operation that has all its texts records what it is to record. -/
theorem recorded_of_isWritable {operation : Operation}
    (h : operation.isWritable findings = true) :
    recorded [operation] = operation.finding?.toList := by
  obtain ⟨hpath, -⟩ := Bool.and_eq_true_iff.mp h
  cases hfinding : operation.finding? with
  | none => simp [recorded, hfinding]
  | some f =>
    rw [hfinding, Option.all_some] at hpath
    simp [recorded, hfinding, hpath]

/-- An operation that lacks one of its texts records nothing. -/
theorem recorded_of_not_isWritable {operation : Operation}
    (h : operation.isWritable findings = false) : recorded [operation] = [] := by
  cases operation with
  | append e value path =>
    cases e with
    | none => rfl
    | some e => simpa [recorded, Operation.isWritable, Operation.finding?, Operation.tells,
        Operation.asks] using h
  | required path | invalid value path =>
    simpa [recorded, Operation.isWritable, Operation.finding?, Operation.tells,
      Operation.asks] using h
  | readAndClear | byField | error | check => rfl

/-- After an operation there is also what it recorded, and the errors handed out before. -/
theorem Holds.after (h : Holds name findings s) (operation : Operation) :
    Holds name (findings ++ recorded [operation]) (s.after operation) ∧
      Keeps s (s.after operation) := by
  obtain ⟨hsucceeds, hfails⟩ := h.stepsTo operation
  cases hwritable : operation.isWritable findings with
  | true =>
    obtain ⟨t, hstep, ht⟩ := hsucceeds hwritable
    rw [Session.after, hstep, recorded_of_isWritable hwritable]
    exact ht
  | false =>
    rw [Session.after, hfails hwritable, recorded_of_not_isWritable hwritable, List.append_nil]
    exact ⟨h, Keeps.refl s⟩

/-- A validator tells of some findings: as an error, if there are any, when it is checked, and by
field. -/
structure Tells (name : String) (findings : List Finding) (s : Session) : Prop where
  error_eq : s.error = .ok (if findings = [] then none else some (objectOf name findings))
  check_eq : s.check =
    if findings = [] then .ok () else .error (.invalid (objectOf name findings))
  hasKind_iff : ∀ kind, (∃ e, s.error = .ok (some e) ∧ e.hasKind kind = true) ↔
    ∃ f ∈ findings, f.error.isKind kind = true
  byField_eq : s.byField = .ok (textTable findings)

/-- A validator fails to tell of anything, because a line cannot be written. -/
structure FailsToTell (s : Session) : Prop where
  error_eq : s.error = .error .tooManyDigits
  check_eq : s.check = .error (.misuse .tooManyDigits)
  byField_eq : s.byField = .error .tooManyDigits

/-- Findings whose lines can be written are told of. -/
theorem Holds.tells (h : Holds name findings s) (hlegible : legible findings = true) :
    Tells name findings s := by
  have herror : s.error =
      .ok (if findings = [] then none else some (objectOf name findings)) := by
    rw [h.error_eq, if_pos hlegible]
    split <;> rfl
  refine ⟨herror, ?_, fun kind ↦ ?_, h.byField_eq.trans (if_pos hlegible)⟩
  · rw [h.check_eq, if_pos hlegible]
  · rw [herror]
    by_cases hnil : findings = []
    · simp [hnil]
    · simp [if_neg hnil, objectOf, InvalidObject.hasKind, Finding.violation]

/-- Findings of which a line cannot be written are not. -/
theorem Holds.failsToTell (h : Holds name findings s) (hlegible : legible findings = false) :
    FailsToTell s := by
  have hne : findings ≠ [] := by
    rintro rfl
    cases hlegible
  have hno : ¬ legible findings = true := by simp [hlegible]
  exact ⟨by rw [h.error_eq, if_neg hne, if_neg hno], by rw [h.check_eq, if_neg hne, if_neg hno],
    by rw [h.byField_eq, if_neg hno]⟩

/-- What a run of operations on a fresh validator amounts to: the validator has the violations that
were recorded, in order, all it tells is about these, and an error that was handed out on the way
still has the violations recorded before it was asked for, and their message. Integers of too many
digits are what makes an operation fail, and nothing else does. -/
structure Accounts (name : String) (operations : List Operation) (s : Session) : Prop where
  violations_eq : s.validator.violations = (recorded operations).map Finding.violation
  size_eq : s.validator.size = (recorded operations).length
  error_eq_none_iff : s.error = .ok none ↔ recorded operations = []
  check_eq_ok_iff : s.check = .ok () ↔ recorded operations = []
  tells : legible (recorded operations) = true → Tells name (recorded operations) s
  failsToTell : legible (recorded operations) = false → FailsToTell s
  exists_step_iff : ∀ operation, (∃ t, s.step operation = .ok t) ↔
    (∀ f, operation.finding? = some f → f.path.isWritable = true) ∧
      (operation.tells = true → legible (recorded operations) = true)
  kept : ∀ earlier operation later, operations = earlier ++ operation :: later →
    operation.asks = true → recorded earlier ≠ [] → legible (recorded earlier) = true →
    ∃ e, (run name (earlier ++ [operation])).handed = (run name earlier).handed ++ [e] ∧
      e ∈ s.handed ∧ s.object e = objectOf name (recorded earlier) ∧
      (objectOf name (recorded earlier)).message = .ok e.message

end Session
end RepoManifest.Validator
