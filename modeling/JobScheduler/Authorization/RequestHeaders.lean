import JobScheduler.Authorization.DevelopmentHeaderJobActorProvider

/-! Which actors request headers can name. An actor is written into headers and read back as
itself, and nothing else can be read: texts that are trimmed, and permissions that contain no
comma unless the configuration has them.
-/

namespace JobScheduler

/-- No part of a split list contains the separator, by induction on the list. -/
theorem not_mem_of_mem_splitOn {α : Type} [DecidableEq α] {separator : α} {items part : List α}
    (member : part ∈ items.splitOn separator)
    : separator ∉ part := by
  induction items generalizing part with
  | nil =>
      rw [List.splitOn_nil, List.mem_singleton] at member
      rw [member]
      exact List.not_mem_nil
  | cons first rest ih =>
      rw [List.splitOn_cons_eq_if_modifyHead] at member
      split at member
      · rcases List.mem_cons.mp member with rfl | later
        · exact List.not_mem_nil
        · exact ih later
      · rename_i other
        obtain ⟨head, parts, parted⟩ := List.exists_cons_of_ne_nil
          (List.splitOn_ne_nil separator rest)
        rw [parted, List.modifyHead_cons] at member
        rcases List.mem_cons.mp member with rfl | later
        · intro inside
          rcases List.mem_cons.mp inside with same | inside
          · exact other (beq_iff_eq.mpr same.symm)
          · exact ih (parted ▸ List.mem_cons_self) inside
        · exact ih (parted ▸ List.mem_cons_of_mem _ later)

/-- Trimming only takes characters away. -/
theorem toList_trim_sublist (text : String) : (trim text).toList.Sublist text.toList := by
  rw [trim, String.toList_ofList]
  have start := List.dropWhile_sublist (l := text.toList) isWhiteSpace
  have finish := (List.dropWhile_sublist (l := (text.toList.dropWhile isWhiteSpace).reverse)
    isWhiteSpace).reverse
  rw [List.reverse_reverse] at finish
  exact finish.trans start

/-- Nothing is left of a blank text. -/
theorem trim_of_blank {text : String} (blank : isNullOrWhiteSpace text = true)
    : trim text = "" := by
  have nothing : text.toList.dropWhile isWhiteSpace = [] :=
    List.dropWhile_eq_nil_iff.mpr (List.all_eq_true.mp blank)
  rw [trim, nothing]
  rfl

namespace DevelopmentHeaderJobActorProvider

/-- A permission that a header can list. -/
def Listable (permission : String) : Prop := Trimmed permission ∧ ',' ∉ permission.toList

/-- The header that lists the permissions. A list of none is written as a comma: an empty
header would ask for the configured permissions.
-/
def listPermissions (permissions : List String) : String :=
  if permissions.isEmpty then
    ","
  else
    String.ofList ([','].intercalate (permissions.map String.toList))

/-- The headers that name an actor, its permissions as the given text. -/
def headersOf (id tenantId permissions : String) : HttpRequest where
  headers name :=
    if name = actorIdHeaderName then id
    else if name = tenantIdHeaderName then tenantId
    else if name = permissionsHeaderName then permissions
    else ""

/-- What a header lists is listable. -/
theorem splitPermissions_listable {text permission : String}
    (listed : permission ∈ splitPermissions text)
    : Listable permission := by
  obtain ⟨trimmed, something⟩ := List.mem_filter.mp listed
  rw [List.map_map] at trimmed
  obtain ⟨part, member, rfl⟩ := List.mem_map.mp trimmed
  have visible : isNullOrWhiteSpace (String.ofList part) = false := by
    by_contra blank
    rw [Function.comp_apply, trim_of_blank (Bool.not_eq_false _ ▸ blank)] at something
    exact absurd something (by decide)
  refine ⟨⟨isNullOrWhiteSpace_trim visible, trim_trim _⟩, fun comma => ?_⟩
  have inside := (toList_trim_sublist (String.ofList part)).subset comma
  rw [String.toList_ofList] at inside
  exact not_mem_of_mem_splitOn member inside

/-- A list of permissions is read as it was written. -/
theorem splitPermissions_listPermissions {permissions : List String}
    (listable : ∀ permission ∈ permissions, Listable permission)
    : splitPermissions (listPermissions permissions) = permissions := by
  unfold listPermissions
  split
  · rename_i none
    rw [List.isEmpty_iff.mp none]
    decide +kernel
  · rename_i some
    have apart : ∀ text ∈ permissions.map String.toList, ',' ∉ text := by
      intro text member
      obtain ⟨permission, listed, rfl⟩ := List.mem_map.mp member
      exact (listable permission listed).2
    have present : permissions.map String.toList ≠ [] := by
      simpa using some
    have written : (permissions.map String.toList).map String.ofList = permissions := by
      rw [List.map_map, String.ofList_comp_toList, List.map_id]
    have same : permissions.map trim = permissions := by
      refine (List.map_congr_left ?_).trans (List.map_id permissions)
      exact fun permission listed => (listable permission listed).1.2
    rw [splitPermissions, String.toList_ofList, List.splitOn_intercalate ',' apart present,
      written, same, List.filter_eq_self]
    intro permission listed
    have visible := (listable permission listed).1.1
    cases empty : permission.isEmpty with
    | false => rfl
    | true =>
        rw [String.isEmpty_iff.mp empty] at visible
        cases visible

/-- A written list is never blank: its first entry is not, or it is a comma. -/
theorem listPermissions_visible {permissions : List String}
    (listable : ∀ permission ∈ permissions, Listable permission)
    : isNullOrWhiteSpace (listPermissions permissions) = false := by
  cases permissions with
  | nil => decide
  | cons first rest =>
      have visible := (listable first List.mem_cons_self).1.1
      rw [isNullOrWhiteSpace, List.all_eq_false] at visible ⊢
      obtain ⟨character, inside, shown⟩ := visible
      refine ⟨character, ?_, shown⟩
      change character ∈ (String.ofList ([','].intercalate
        (first.toList :: rest.map String.toList))).toList
      rw [String.toList_ofList]
      cases rest.map String.toList with
      | nil => exact List.intercalate_singleton ▸ inside
      | cons second others =>
          rw [List.intercalate_cons_cons, List.append_assoc]
          exact List.mem_append_left _ inside

/-- What the constructor makes of permissions that are trimmed already. -/
theorem kept_of_trimmed {permissions : List String}
    (trimmed : ∀ permission ∈ permissions, Trimmed permission)
    : (permissions.filter (fun permission => !isNullOrWhiteSpace permission)).map trim
      = permissions := by
  have visible : permissions.filter (fun permission => !isNullOrWhiteSpace permission)
      = permissions :=
    List.filter_eq_self.mpr (fun permission listed => by rw [(trimmed permission listed).1]; rfl)
  rw [visible]
  exact (List.map_congr_left (fun permission listed => (trimmed permission listed).2)).trans
    (List.map_id permissions)

/-- The constructor keeps trimmed texts as they are. -/
theorem create_of_trimmed {id tenantId : String} {permissions : List String}
    (idTrimmed : Trimmed id) (tenantTrimmed : Trimmed tenantId)
    (trimmed : ∀ permission ∈ permissions, Trimmed permission)
    : JobActor.create id tenantId permissions
      = .ok ⟨id, tenantId, permissions, idTrimmed.1, tenantTrimmed.1⟩ := by
  unfold JobActor.create
  rw [dif_neg (by simp [idTrimmed.1]), dif_neg (by simp [tenantTrimmed.1])]
  simp only [kept_of_trimmed trimmed]

/-- An actor that was created has trimmed permissions. -/
theorem create_permissions {id tenantId : String} {permissions : List String} {actor : JobActor}
    (created : JobActor.create id tenantId permissions = .ok actor)
    : actor.id = id
      ∧ actor.tenantId = tenantId
      ∧ actor.permissions
        = (permissions.filter (fun permission => !isNullOrWhiteSpace permission)).map trim
      ∧ ∀ permission ∈ actor.permissions, Trimmed permission := by
  unfold JobActor.create at created
  split at created
  · cases created
  · split at created
    · cases created
    · cases created
      refine ⟨rfl, rfl, rfl, ?_⟩
      intro permission listed
      obtain ⟨text, kept, rfl⟩ := List.mem_map.mp listed
      obtain ⟨-, visible⟩ := List.mem_filter.mp kept
      exact ⟨isNullOrWhiteSpace_trim (Bool.not_eq_true' _ ▸ visible), trim_trim text⟩

/-- A trimmed text is read as it is, whatever the default. -/
theorem trimmedOrDefault_of_trimmed {value : String} (trimmed : Trimmed value)
    (defaultValue : String)
    : trimmedOrDefault value defaultValue = value := by
  rw [trimmedOrDefault, trimmed.1]
  exact trimmed.2

/-- The configuration names an actor, with trimmed texts and trimmed permissions. -/
theorem configuredActor_trimmed (options : DevelopmentActorOptions)
    : ∃ configured,
        configuredActor options = .ok configured
        ∧ Trimmed configured.id
        ∧ Trimmed configured.tenantId
        ∧ ∀ permission ∈ configured.permissions, Trimmed permission := by
  obtain ⟨configured, given, idTrimmed, tenantTrimmed⟩ := getCurrentActor_trimmed options none
  have known : configuredActor options = .ok configured := by
    cases named : configuredActor options with
    | error exception =>
        rw [getCurrentActor, named] at given
        cases given
    | ok actor =>
        simp only [getCurrentActor, named, ite_self] at given
        exact given
  exact ⟨configured, known, idTrimmed, tenantTrimmed, (create_permissions known).2.2.2⟩

section Requests

variable {options : DevelopmentActorOptions} {configured actor : JobActor}

/-- What the headers of a request make of the configured actor. -/
theorem getCurrentActor_eq (allowed : options.allowRequestHeaders = true)
    (known : configuredActor options = .ok configured) (request : HttpRequest)
    : getCurrentActor options (some request)
      = JobActor.create (readHeaderOrDefault request actorIdHeaderName configured.id)
          (readHeaderOrDefault request tenantIdHeaderName configured.tenantId)
          (readPermissionsOrDefault request configured.permissions) := by
  simp only [getCurrentActor, known, allowed]
  rfl

/-- Headers with trimmed texts name an actor of these texts, and the permissions that are read. -/
theorem getCurrentActor_headersOf (allowed : options.allowRequestHeaders = true)
    (known : configuredActor options = .ok configured) (idTrimmed : Trimmed actor.id)
    (tenantTrimmed : Trimmed actor.tenantId) {permissions : String}
    (read
      : readPermissionsOrDefault (headersOf actor.id actor.tenantId permissions)
            configured.permissions
        = actor.permissions)
    (trimmed : ∀ permission ∈ actor.permissions, Trimmed permission)
    : getCurrentActor options (some (headersOf actor.id actor.tenantId permissions))
      = .ok actor := by
  have id : readHeaderOrDefault (headersOf actor.id actor.tenantId permissions)
      actorIdHeaderName configured.id = actor.id :=
    trimmedOrDefault_of_trimmed idTrimmed _
  have tenant : readHeaderOrDefault (headersOf actor.id actor.tenantId permissions)
      tenantIdHeaderName configured.tenantId = actor.tenantId :=
    trimmedOrDefault_of_trimmed tenantTrimmed _
  rw [getCurrentActor_eq allowed known, id, tenant, read,
    create_of_trimmed idTrimmed tenantTrimmed trimmed]

end Requests

/-- If the headers of requests are read, they name exactly the actors whose texts are trimmed and
whose permissions are those of the configuration, or some that a header can list; and the headers
written for an actor of the latter kind name this actor.
-/
theorem headers_name_actors (options : DevelopmentActorOptions)
    (allowed : options.allowRequestHeaders = true)
    : ∃ configured,
        configuredActor options = .ok configured
        ∧ (∀ actor : JobActor,
            Trimmed actor.id
            → Trimmed actor.tenantId
            → (∀ permission ∈ actor.permissions, Listable permission)
            → getCurrentActor options
                  (some (headersOf actor.id actor.tenantId (listPermissions actor.permissions)))
                = .ok actor)
        ∧ ∀ actor : JobActor,
            (∃ request, getCurrentActor options (some request) = .ok actor)
            ↔ Trimmed actor.id
              ∧ Trimmed actor.tenantId
              ∧ (actor.permissions = configured.permissions
                ∨ ∀ permission ∈ actor.permissions, Listable permission) := by
  obtain ⟨configured, known, -, -, configuredTrimmed⟩ := configuredActor_trimmed options
  have written (actor : JobActor) (idTrimmed : Trimmed actor.id)
      (tenantTrimmed : Trimmed actor.tenantId)
      (listable : ∀ permission ∈ actor.permissions, Listable permission)
      : getCurrentActor options
            (some (headersOf actor.id actor.tenantId (listPermissions actor.permissions)))
          = .ok actor := by
    refine getCurrentActor_headersOf allowed known idTrimmed tenantTrimmed ?_
      (fun permission listed => (listable permission listed).1)
    change (if isNullOrWhiteSpace (listPermissions actor.permissions) then _
      else splitPermissions (listPermissions actor.permissions)) = _
    rw [listPermissions_visible listable, splitPermissions_listPermissions listable]
    rfl
  refine ⟨configured, known, written, fun actor => ⟨?_, ?_⟩⟩
  · rintro ⟨request, given⟩
    obtain ⟨named, same, idTrimmed, tenantTrimmed⟩ := getCurrentActor_trimmed options (some request)
    cases same.symm.trans given
    refine ⟨idTrimmed, tenantTrimmed, ?_⟩
    rw [getCurrentActor_eq allowed known] at given
    obtain ⟨-, -, permissions, -⟩ := create_permissions given
    rw [readPermissionsOrDefault] at permissions
    split at permissions
    · exact Or.inl (permissions.trans (kept_of_trimmed configuredTrimmed))
    · have listable (permission : String) := @splitPermissions_listable
        (request.headers permissionsHeaderName) permission
      rw [kept_of_trimmed (fun permission listed => (listable permission listed).1)] at permissions
      exact Or.inr (permissions ▸ listable)
  · rintro ⟨idTrimmed, tenantTrimmed, same | listable⟩
    · exact ⟨_, @getCurrentActor_headersOf _ _ _ allowed known idTrimmed tenantTrimmed ""
        same.symm (same ▸ configuredTrimmed)⟩
    · exact ⟨_, written actor idTrimmed tenantTrimmed listable⟩

/-- An actor that reads and enqueues, named by its headers under the default options. -/
theorem headers_name_actors_reader
    : listPermissions [JobPermissions.emailRead, JobPermissions.emailEnqueue]
        = "jobs.email.read,jobs.email.enqueue"
      ∧ getCurrentActor .unset
            (some (headersOf "user-1" "tenant-a" "jobs.email.read,jobs.email.enqueue"))
          = .ok ⟨"user-1", "tenant-a", [JobPermissions.emailRead, JobPermissions.emailEnqueue],
              by decide, by decide⟩ := by
  have list : listPermissions [JobPermissions.emailRead, JobPermissions.emailEnqueue]
      = "jobs.email.read,jobs.email.enqueue" := by
    decide +kernel
  obtain ⟨configured, -, named, -⟩ := headers_name_actors .unset rfl
  have given := named
    ⟨"user-1", "tenant-a", [JobPermissions.emailRead, JobPermissions.emailEnqueue],
      by decide, by decide⟩
    ⟨by decide, by decide +kernel⟩ ⟨by decide, by decide +kernel⟩
    (by
      intro permission listed
      rcases List.mem_pair.mp listed with rfl | rfl
      · exact ⟨⟨by decide, by decide +kernel⟩, by decide⟩
      · exact ⟨⟨by decide, by decide +kernel⟩, by decide⟩)
  rw [list] at given
  exact ⟨list, given⟩

end DevelopmentHeaderJobActorProvider

end JobScheduler
