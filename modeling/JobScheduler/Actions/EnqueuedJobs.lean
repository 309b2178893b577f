import JobScheduler.Tenancy.OwnJobs

/-! What an enqueue request comes to. It is rejected or throws without a trace, or its record,
built from what the definition of its type made of the request, goes to the store.
-/

namespace JobScheduler

namespace EnqueueJobAction

/-- A valid request is of a registered type, its payload passed the definition's validation,
and its delay is within the definition's bounds.
-/
theorem validate_valid {definitions : IJobDefinitionRegistry}
    {request : EnqueueJobActionRequest} {payload : JsonElement} {retryPolicy : JobRetryPolicy}
    {delaySeconds : Int}
    (valid : validate definitions request = .valid payload retryPolicy delaySeconds)
    : ∃ definition,
        definitions request.type = some definition
        ∧ (definition.validatePayload request.payload).isValid = true
        ∧ payload = (definition.validatePayload request.payload).payload
        ∧ retryPolicy = definition.retryPolicy
        ∧ 0 ≤ delaySeconds
        ∧ delaySeconds ≤ definition.maxScheduleDelaySeconds := by
  unfold validate at valid
  split at valid
  · cases valid
  · split at valid
    · cases valid
    · rename_i definition found
      simp only at valid
      split at valid
      · cases valid
      · rename_i passes
        split at valid
        · cases valid
        · rename_i notNegative
          split at valid
          · cases valid
          · rename_i within
            cases valid
            exact ⟨definition, found, by simpa using passes, rfl, rfl, not_lt.mp notNegative,
              not_lt.mp within⟩

/-- The record shows what the request asked for. -/
theorem jobFor_asks {ambient : Ambient} {type : String} {payload : JsonElement}
    {retryPolicy : JobRetryPolicy} {delaySeconds : Int} {actor : JobActor} {job : JobRecord}
    (built : jobFor ambient type payload retryPolicy delaySeconds actor = .ok job)
    : job.type = type
      ∧ job.payload = payload
      ∧ job.maxAttempts = retryPolicy.maxAttempts
      ∧ job.failureReason = none := by
  rcases jobFor_cases built with ⟨scheduledAt, -, -, made⟩ | made
  · obtain ⟨-, rfl⟩ := JobRecord.schedule_ok made
    exact ⟨rfl, rfl, rfl, rfl⟩
  · obtain ⟨-, rfl⟩ := JobRecord.enqueue_ok made
    exact ⟨rfl, rfl, rfl, rfl⟩

/-- The outcome adds no job: an exception or a rejection. -/
inductive AddsNothing : Except SchedulerException JobEnqueueResult → Prop
  | threw (exception : SchedulerException) : AddsNothing (.error exception)
  | rejected (errorMessage : String) : AddsNothing (.ok (.rejected errorMessage))

variable {provided actor : JobActor} {scopes : DataAccessScopes}

/-- An enqueue request leaves the state, or adds the record built from it in the scope of the
actor's tenant.
-/
theorem execute_cases (definitions : IJobDefinitionRegistry)
    (acting : DataAccessScopeProvider.currentActor provided scopes = actor)
    (ambient : Ambient) (request : EnqueueJobActionRequest) (factory : DbContextFactory)
    : (∃ outcome,
        AddsNothing outcome
        ∧ (enqueueJobAction definitions).execute DbContextFactory.store provided scopes ambient
            request factory
          = (outcome, factory))
      ∨ ∃ payload retryPolicy delaySeconds job,
          validate definitions request = .valid payload retryPolicy delaySeconds
          ∧ jobFor ambient request.type payload retryPolicy delaySeconds actor = .ok job
          ∧ (enqueueJobAction definitions).execute DbContextFactory.store provided scopes
              ambient request factory
            = StoreMethod.map (fun _ => JobEnqueueResult.success job)
                ((DbContextFactory.store (actor.tenantContext .mutate)).add ambient job)
                factory := by
  cases granted : actor.hasPermission JobPermissions.emailEnqueue with
  | false =>
      refine Or.inl ⟨_, .rejected "Actor is not authorized to enqueue jobs.", ?_⟩
      exact JobAuthorizedAction.execute_denied (fun _ => rfl) acting granted ambient request
        factory
  | true =>
      rw [JobAuthorizedAction.execute_oneTenant (fun _ => rfl) acting granted actor.tenant_eq
        rfl]
      simp only [enqueueJobAction]
      split
      · exact Or.inl ⟨_, .rejected _, rfl⟩
      · rename_i payload retryPolicy delaySeconds valid
        split
        · exact Or.inl ⟨_, .threw _, rfl⟩
        · rename_i job built
          exact Or.inr ⟨payload, retryPolicy, delaySeconds, job, valid, built, rfl⟩

end EnqueueJobAction

/-- Emails that are sent once, whatever their payload is. -/
def emailDefinition : IJobDefinition where
  type := "email"
  retryPolicy := ⟨1, ⟨0⟩, by omega, by decide⟩
  maxScheduleDelaySeconds := 60
  validatePayload payload := ⟨true, payload, none⟩

/-- The record of the first request of such a type. -/
def emailJob (tenantId : String) : JobRecord :=
  .construct ⟨1000⟩ tenantId "erin" "email" ⟨"{}"⟩ .queued ⟨1001⟩ (some (.ofTicks 0)) none none
    none none none 1 none [.queued ⟨1001⟩ (.ofTicks 0) "Job accepted."]

/-- The tenant that the runs of later modules are about has a name. -/
theorem tenantA_present : isNullOrWhiteSpace "tenant-a" = false := by decide

end JobScheduler
