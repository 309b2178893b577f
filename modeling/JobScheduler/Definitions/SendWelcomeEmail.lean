import JobScheduler.Dispatching.JobDispatcher

/-! The job type of the program: its payload, its definition and its handler. They read and
write payloads through the serializer of the platform, of which they rely on one thing: a
payload that was written reads back as it was.
-/

namespace JobScheduler

def JobTypes.sendWelcomeEmail : String := "send-welcome-email"

/-- `SendWelcomeEmailJobPayload`; `Deserialize` leaves a text that is missing null. -/
structure SendWelcomeEmailJobPayload where
  userId : Option String
  email : Option String
  shouldFail : Bool
  deriving DecidableEq, Repr

/-- `JsonException`, of which nothing is used. -/
structure JsonException where
  deriving DecidableEq, Repr

/-- `System.Text.Json`: whether the kind of an element is `Undefined` or `Null`, `Deserialize`,
which gives null for the element `null`, and `SerializeToElement`.
-/
structure JsonSerializer where
  isUndefinedOrNull : JsonElement → Bool
  deserialize : JsonElement → Except JsonException (Option SendWelcomeEmailJobPayload)
  serializeToElement : SendWelcomeEmailJobPayload → JsonElement
  readsBack : ∀ payload, deserialize (serializeToElement payload) = .ok (some payload)

namespace JobPayloadValidationResult

def valid (payload : JsonElement) : JobPayloadValidationResult := ⟨true, payload, none⟩

/-- The payload is `default`, an undefined element without text. -/
def invalid (errorMessage : String) : JobPayloadValidationResult :=
  ⟨false, ⟨""⟩, some errorMessage⟩

end JobPayloadValidationResult

section WelcomeEmail

variable (serializer : JsonSerializer)

namespace SendWelcomeEmailJobDefinition

def validatePayload (payload : JsonElement) : JobPayloadValidationResult :=
  if serializer.isUndefinedOrNull payload then
    .invalid "Job payload is required."
  else
    match serializer.deserialize payload with
    | .error _ => .invalid "Job payload is invalid."
    | .ok none => .invalid "Job payload is invalid."
    | .ok (some typedPayload) =>
        if typedPayload.userId.all isNullOrWhiteSpace then
          .invalid "User ID is required."
        else if typedPayload.email.all isNullOrWhiteSpace then
          .invalid "Email is required."
        else
          .valid (serializer.serializeToElement typedPayload)

end SendWelcomeEmailJobDefinition

def sendWelcomeEmailJobDefinition : IJobDefinition where
  type := JobTypes.sendWelcomeEmail
  retryPolicy := ⟨3, .fromSeconds 10, by decide, by decide⟩
  maxScheduleDelaySeconds := 3600
  validatePayload := SendWelcomeEmailJobDefinition.validatePayload serializer

/-- The policy is the one that `JobRetryPolicy.Create` makes. -/
example
    : JobRetryPolicy.create 3 (.fromSeconds 10)
      = .ok (sendWelcomeEmailJobDefinition serializer).retryPolicy :=
  rfl

def sendWelcomeEmailJobHandler : IJobHandler where
  type := JobTypes.sendWelcomeEmail
  executeAsync job :=
    match serializer.deserialize job.payload with
    | .error _ => .returned (.failure "Stored job payload is invalid.")
    | .ok none => .returned (.failure "Stored job payload is invalid.")
    | .ok (some payload) =>
        if payload.shouldFail then
          .returned (.failure "Simulated welcome email failure.")
        else
          .returned .success

-----------------------------------------------------------------------------------------
-- What is stored and what becomes of it
-----------------------------------------------------------------------------------------

variable {serializer : JsonSerializer}

/-- A valid payload names a user and an email, and is stored as the serializer writes it. -/
theorem SendWelcomeEmailJobDefinition.validatePayload_valid {payload : JsonElement}
    (valid : (validatePayload serializer payload).isValid = true)
    : ∃ typedPayload : SendWelcomeEmailJobPayload,
        (validatePayload serializer payload).payload
          = serializer.serializeToElement typedPayload
        ∧ typedPayload.userId.all isNullOrWhiteSpace = false
        ∧ typedPayload.email.all isNullOrWhiteSpace = false := by
  unfold validatePayload at valid ⊢
  split at valid
  · cases valid
  · rename_i present
    rw [if_neg present]
    split at valid
    · cases valid
    · cases valid
    · rename_i typedPayload read
      split at valid
      · cases valid
      · rename_i named
        split at valid
        · cases valid
        · rename_i addressed
          simp only [if_neg named, if_neg addressed]
          exact ⟨typedPayload, rfl, by simpa using named, by simpa using addressed⟩

/-- The result that a payload asks for. -/
def SendWelcomeEmailJobPayload.asked (payload : SendWelcomeEmailJobPayload)
    : JobExecutionResult :=
  if payload.shouldFail then .failure "Simulated welcome email failure." else .success

/-- The handler does what the stored payload asks for. -/
theorem sendWelcomeEmailJobHandler_executeAsync {job : JobRecord}
    {payload : SendWelcomeEmailJobPayload}
    (stored : job.payload = serializer.serializeToElement payload)
    : (sendWelcomeEmailJobHandler serializer).executeAsync job
      = .returned payload.asked := by
  unfold SendWelcomeEmailJobPayload.asked
  simp only [sendWelcomeEmailJobHandler, stored, serializer.readsBack]
  split <;> rfl

end WelcomeEmail

-----------------------------------------------------------------------------------------
-- A serializer
-----------------------------------------------------------------------------------------

namespace CompactJson

def escape (c : Char) : List Char := if c = '"' ∨ c = '\\' then ['\\', c] else [c]

/-- The text behind an opening quote, up to the closing one, and what follows; the first
character may be one that a backslash has escaped.
-/
def readText : Bool → List Char → Option (List Char × List Char)
  | _, [] => none
  | true, c :: rest => (readText false rest).map (Prod.map (c :: ·) id)
  | false, c :: rest =>
      if c = '"' then
        some ([], rest)
      else if c = '\\' then
        readText true rest
      else
        (readText false rest).map (Prod.map (c :: ·) id)

/-- Escaped text reads back, by induction on the text. -/
theorem readText_escape (text rest : List Char)
    : readText false (text.flatMap escape ++ '"' :: rest) = some (text, rest) := by
  induction text with
  | nil => rfl
  | cons c later ih =>
      rw [List.flatMap_cons, List.append_assoc]
      by_cases special : c = '"' ∨ c = '\\'
      · rw [escape, if_pos special]
        simp [readText, ih]
      · rw [escape, if_neg special]
        rw [not_or] at special
        simp [readText, special.1, special.2, ih]

def writeValue : Option String → List Char
  | none => ['n', 'u', 'l', 'l']
  | some text => '"' :: (text.toList.flatMap escape ++ ['"'])

def readValue : List Char → Option (Option String × List Char)
  | 'n' :: 'u' :: 'l' :: 'l' :: rest => some (none, rest)
  | '"' :: rest =>
      (readText false rest).map (Prod.map (fun text => some (String.ofList text)) id)
  | _ => none

theorem readValue_writeValue (value : Option String) (rest : List Char)
    : readValue (writeValue value ++ rest) = some (value, rest) := by
  cases value with
  | none => rfl
  | some text =>
      have behind : writeValue (some text) ++ rest
          = '"' :: (text.toList.flatMap escape ++ '"' :: rest) := by
        simp [writeValue]
      rw [behind]
      simp [readValue, readText_escape]

/-- What follows a literal. -/
def readLiteral (literal : String) (text : List Char) : Option (List Char) :=
  if literal.toList <+: text then some (text.drop literal.toList.length) else none

theorem readLiteral_append (literal : String) (rest : List Char)
    : readLiteral literal (literal.toList ++ rest) = some rest := by
  rw [readLiteral, if_pos (List.prefix_append _ _), List.drop_left]

def writePayload (payload : SendWelcomeEmailJobPayload) : List Char :=
  "\x7b\"userId\":".toList ++ (writeValue payload.userId
    ++ (",\"email\":".toList ++ (writeValue payload.email
      ++ (",\"shouldFail\":".toList
        ++ (if payload.shouldFail then "true\x7d" else "false\x7d").toList))))

def readPayload (text : List Char) : Option SendWelcomeEmailJobPayload := do
  let (userId, text) ← readValue (← readLiteral "\x7b\"userId\":" text)
  let (email, text) ← readValue (← readLiteral ",\"email\":" text)
  let shouldFail ← readLiteral ",\"shouldFail\":" text
  return ⟨userId, email, decide (shouldFail = "true\x7d".toList)⟩

theorem readPayload_writePayload (payload : SendWelcomeEmailJobPayload)
    : readPayload (writePayload payload) = some payload := by
  obtain ⟨userId, email, shouldFail⟩ := payload
  unfold readPayload writePayload
  simp only [readLiteral_append, readValue_writeValue, Option.bind_eq_bind, Option.bind_some]
  cases shouldFail <;> simp

/-- Payloads as the platform writes them, without spaces and with all properties in order. Other
texts, which it reads too, are refused.
-/
def serializer : JsonSerializer where
  isUndefinedOrNull element := element.rawText = "" || element.rawText = "null"
  deserialize element :=
    match readPayload element.rawText.toList with
    | none => .error ⟨⟩
    | some payload => .ok (some payload)
  serializeToElement payload := ⟨String.ofList (writePayload payload)⟩
  readsBack payload := by
    simp only [String.toList_ofList, readPayload_writePayload]

end CompactJson

/-- The definitions of the program, over this serializer. -/
def welcomeDefinitions : IJobDefinitionRegistry := fun type =>
  [sendWelcomeEmailJobDefinition CompactJson.serializer].find?
    (fun definition => definition.type = type)

end JobScheduler
