import AgentColab.Events.Postgres
import AgentColab.Transaction.Invariant

/-!
# What a call of `append` knows

The monitor of `append`: what a call has learned from its statements, what it must have learned
before it inserts, and how it may end. The knowledge is small: the row found under the request's
key, whether the key was ever looked up in vain, the Event named as cause, the head of the
aggregate, the two clock readings, and the row inserted.
-/

namespace AgentColab

open Transaction Option
open Prog (conforms_do bindPost_ok)

/-! ## Identities of a request -/

/-- The idempotency key a request names, if its UUIDs can be parsed. -/
def AppendRequest.idemKey? (r : AppendRequest) : Option IdemKey :=
  (parseUuid r.workspaceId).bind fun ws ↦ (parseUuid r.actorAccountId).map fun actor ↦
    ⟨ws, actor, r.idempotencyScope, r.idempotencyKey⟩

def AppendRequest.aggregate? (r : AppendRequest) : Option Aggregate :=
  (parseUuid r.workspaceId).map fun ws ↦ ⟨ws, r.aggregateType, r.aggregateId⟩

/-- A request that PostgreSQL gives back as it was: floats below `10 ^ 21` and a channel named by
its canonical text. -/
structure AppendRequest.Clean (r : AppendRequest) : Prop where
  payload : r.payload.json.isSmall = true
  channel : ∀ c, r.channelId = some c → isUuidText c = true

/-! ## The monitor -/

structure AppendKnown where
  request : AppendRequest
  /-- The row found by the latest lookup of the key. -/
  found : Option EventRow := none
  /-- Whether some lookup of the key found nothing. -/
  absent : Bool := false
  /-- The Event named as cause, with its workspace. -/
  cause : Option (String × Uuid) := none
  head : Option (Option (ℕ × String)) := none
  hashedAt : Option Time := none
  storedAt : Option Time := none
  encrypted : Bool := false
  inserted : Option EventRow := none

/-- **What holds of a row that a call inserts**, by what the call knows. -/
structure Drafted (cfg : EventConfig) (m : AppendKnown) (row : EventRow) : Prop where
  key : m.request.idemKey? = some row.idemKey
  aggregate : m.request.aggregate? = some row.aggregate
  body : m.request.requestBodyHash cfg.sha256 = .ok row.requestBodyHash
  type : row.type = m.request.type
  payload : row.payload = m.request.payload.json.stored
  expected : ∀ k, m.request.expectedSeq = some k → k = (row.aggregateSeq : ℤ)
  causedBy : row.causedBy = m.request.causedBy
  cause : ∀ e, m.request.causedBy = some e → m.cause = some (e, row.workspaceId)
  head : ∃ last, m.head = some last ∧ row.aggregateSeq = nextSeq last ∧
    row.previousHash = last.map Prod.snd
  hash : ∃ t₀ t₁, m.hashedAt = some t₀ ∧ m.storedAt = some t₁ ∧
    (t₀.millisecond = t₁.millisecond → m.request.Clean → (rowToEvent row).Hashed cfg.sha256)

namespace AppendKnown

def next (m : AppendKnown) : (o : EventStmt) → EventRes o → AppendKnown
  | .findIdempotent _, none => { m with found := none, absent := true }
  | .findIdempotent _, some row => { m with found := some row }
  | .eventWorkspace e, some ws => { m with cause := some (e, ws) }
  | .head _, last => { m with head := some last }
  | .now .hashed, t => { m with hashedAt := some t }
  | .now .stored, t => { m with storedAt := some t }
  | .encrypt _, _ => { m with encrypted := true }
  | .insert row, .inserted n => { m with inserted := some (row n) }
  | _, _ => m

/-- When a statement may be issued: the key and the aggregate are the request's, and the one
insert is of a row that the knowledge justifies. -/
def may (cfg : EventConfig) (m : AppendKnown) : EventStmt → Prop
  | .findIdempotent key => m.request.idemKey? = some key
  | .head a => m.request.aggregate? = some a
  | .encrypt _ => m.request.sensitive ≠ none
  | .now .hashed => m.storedAt = none
  | .insert row => m.inserted = none ∧ m.absent = true ∧
      ∀ n, (row n).recordedSeq = n ∧ Drafted cfg m (row n)
  | _ => True

end AppendKnown

/-- The monitor of `append`. Every result is possible. -/
def appendMonitor (cfg : EventConfig) : Monitor EventRes AppendKnown where
  may := AppendKnown.may cfg
  ok _ _ _ := True
  next := AppendKnown.next

/-- What a request gets whose key is found: the original, or a conflict. -/
def replayOutcome (row : EventRow) (bodyHash : String) : Except AppendError AppendResult :=
  if row.requestBodyHash ≠ bodyHash then
    .error (.store ⟨.idempotencyConflict, "same idempotency key with a different body"⟩)
  else .ok ⟨row.eventId, row.aggregateSeq, row.contentHash, row.recordedSeq, true⟩

/-- What a request gets that has inserted a row. -/
def appendedResult (row : EventRow) : AppendResult :=
  ⟨row.eventId, row.aggregateSeq, row.contentHash, row.recordedSeq, false⟩

/-- **How a call may end**: before it could look up its key; with a row of one of its lookups; with
the row it inserted; or with an error. -/
inductive AppendKnown.Ends (cfg : EventConfig) (m : AppendKnown) :
    Except AppendError AppendResult → Prop
  | refused {e : AppendError}
      (h : m.request.idemKey? = none ∨ ∃ c, m.request.requestBodyHash cfg.sha256 = .error c)
      (hi : m.inserted = none) (he : m.encrypted = false) : m.Ends cfg (.error e)
  | replayed {row : EventRow} {bodyHash : String} (hf : m.found = some row)
      (hi : m.inserted = none) (he : m.encrypted = false)
      (hb : m.request.requestBodyHash cfg.sha256 = .ok bodyHash) :
      m.Ends cfg (replayOutcome row bodyHash)
  | appended {row : EventRow} {m₀ : AppendKnown} {res : AppendResult} (ha : m.absent = true)
      (hi : m.inserted = some row) (hd : Drafted cfg m₀ row) (hr : m₀.request = m.request)
      (hc : m₀.cause = m.cause) (hres : res = appendedResult row) : m.Ends cfg (.ok res)
  | collided {row : EventRow} {bodyHash : String} (ha : m.absent = true) (hf : m.found = some row)
      (hi : m.inserted = none) (hb : m.request.requestBodyHash cfg.sha256 = .ok bodyHash) :
      m.Ends cfg (replayOutcome row bodyHash)
  | failed {e : AppendError} (ha : m.absent = true) (hi : m.inserted = none) :
      m.Ends cfg (.error e)

section Conformance

variable {cfg : EventConfig} {α : Type} {m : AppendKnown}

/-- Conformance to the monitor of `append`. -/
abbrev EventProg.Conforms (cfg : EventConfig) (p : EventProg α)
    (Q : Except AppendError α → AppendKnown → Prop) (m : AppendKnown) : Prop :=
  Prog.Conforms (appendMonitor cfg) Q p m

variable {Q : Except AppendError α → AppendKnown → Prop}

theorem query_conforms {o : EventStmt} {Q : Except AppendError (EventRes o) → AppendKnown → Prop}
    (hmay : m.may cfg o) (h : ∀ res, Q (.ok res) (m.next o res)) :
    EventProg.Conforms cfg (query o) Q m := .issue hmay fun res _ ↦ h res

theorem lock_conforms {ws aggType aggId : String}
    {Q : Except AppendError Unit → AppendKnown → Prop} (h : Q (.ok ()) m) :
    EventProg.Conforms cfg (lock ws aggType aggId) Q m :=
  query_conforms trivial fun _ ↦ h

theorem canonicalized_conforms {x : Except CanonicalizationError α}
    (herr : ∀ e, x = .error e → Q (.error (.canonicalization e)) m)
    (hok : ∀ a, x = .ok a → Q (.ok a) m) : EventProg.Conforms cfg (canonicalized x) Q m := by
  cases x with
  | error e => exact .raise (herr e rfl)
  | ok a => exact .ret (hok a rfl)

theorem checked_conforms {x : Except CodedError α}
    (herr : ∀ e, x = .error e → Q (.error (.store e)) m)
    (hok : ∀ a, x = .ok a → Q (.ok a) m) : EventProg.Conforms cfg (checked x) Q m := by
  cases x with
  | error e => exact .raise (herr e rfl)
  | ok a => exact .ret (hok a rfl)

theorem uuidArg_conforms {text : String} {Q : Except AppendError Uuid → AppendKnown → Prop}
    (herr : parseUuid text = none → Q (.error .valueError) m)
    (hok : ∀ u, parseUuid text = some u → Q (.ok u) m) :
    EventProg.Conforms cfg (uuidArg text) Q m := by
  rw [uuidArg]
  cases h : parseUuid text with
  | none => exact .raise (herr h)
  | some u => exact .ret (hok u h)

variable {actor eventId ws : Uuid} {channel : Option Uuid} {last : Option (ℕ × String)}
    {sealed : Option (List UInt8) × Option String} {t₀ t₁ : Time} {bodyHash contentHash : String}
    {n : ℕ}

theorem sameWorkspace_conforms {w : Uuid} {detail : String}
    {Q : Except AppendError Unit → AppendKnown → Prop} (herr : ∀ e, Q (.error e) m)
    (hok : w = ws → Q (.ok ()) m) : EventProg.Conforms cfg (sameWorkspace ws w detail) Q m := by
  rw [sameWorkspace]
  split
  · exact .raise (herr _)
  · rename_i h
    exact .ret (hok (not_not.1 h))

/-! ## The checks before the head is read

They leave the knowledge as it is, but for the Event named as cause. -/

section Checks

variable {Q : Except AppendError Unit → AppendKnown → Prop}

variable {ws : Uuid}

theorem checkActor_conforms {text : String} (herr : ∀ e, Q (.error e) m) (hok : Q (.ok ()) m) :
    EventProg.Conforms cfg (checkActor ws actor text) Q m := by
  refine conforms_do (query_conforms trivial ?_)
  rintro (_ | w)
  · exact .raise (herr _)
  · exact sameWorkspace_conforms herr fun _ ↦ hok

theorem checkChannel_conforms {channel : Option String} (herr : ∀ e, Q (.error e) m)
    (hok : Q (.ok ()) m) : EventProg.Conforms cfg (checkChannel ws channel) Q m := by
  cases channel with
  | none => exact .ret hok
  | some =>
    refine conforms_do (uuidArg_conforms (fun _ ↦ herr _) fun u _ ↦ ?_)
    refine conforms_do (query_conforms trivial ?_)
    rintro (_ | w)
    · exact .raise (herr _)
    · exact sameWorkspace_conforms herr fun _ ↦ hok

theorem checkTask_conforms {task : Option String} (herr : ∀ e, Q (.error e) m)
    (hok : Q (.ok ()) m) : EventProg.Conforms cfg (checkTask ws task) Q m := by
  cases task with
  | none => exact .ret hok
  | some =>
    refine conforms_do (query_conforms trivial ?_)
    rintro (_ | w)
    · exact .ret hok
    · exact sameWorkspace_conforms herr fun _ ↦ hok

theorem checkCause_conforms {causedBy : Option String}
    (herr : ∀ e c, Q (.error e) { m with cause := c })
    (hok : ∀ c, (∀ e, causedBy = some e → c = some (e, ws)) → Q (.ok ()) { m with cause := c }) :
    EventProg.Conforms cfg (checkCause ws causedBy) Q m := by
  cases causedBy with
  | none => exact .ret (hok m.cause (by simp))
  | some e =>
    refine conforms_do (query_conforms trivial ?_)
    rintro (_ | w)
    · exact .raise (herr _ m.cause)
    · refine sameWorkspace_conforms (fun err ↦ herr err (some (e, w))) fun hw ↦ ?_
      refine hok (some (e, w)) fun e' he' ↦ ?_
      rw [← some.inj he', hw]

theorem checkWorkspace_conforms {r : AppendRequest}
    (herr : ∀ e c, Q (.error e) { m with cause := c })
    (hok : ∀ ws c, parseUuid r.workspaceId = some ws →
      (∀ e, r.causedBy = some e → c = some (e, ws)) → Q (.ok ()) { m with cause := c }) :
    EventProg.Conforms cfg (checkWorkspace r) Q m := by
  have herr' : ∀ e, Q (.error e) m := fun e ↦ herr e m.cause
  refine conforms_do (uuidArg_conforms (fun _ ↦ herr' _) fun ws hws ↦ ?_)
  refine conforms_do (uuidArg_conforms (fun _ ↦ herr' _) fun actor _ ↦ ?_)
  refine conforms_do (checkActor_conforms herr' ?_)
  refine conforms_do (checkChannel_conforms herr' ?_)
  refine conforms_do (checkTask_conforms herr' ?_)
  exact checkCause_conforms herr fun c hc ↦ hok ws c hws hc

end Checks

/-! ## The insert -/

theorem encryptSensitive_conforms {r : AppendRequest}
    {Q : Except AppendError (Option (List UInt8) × Option String) → AppendKnown → Prop}
    (herr : ∀ e b, Q (.error e) { m with encrypted := b })
    (hok : ∀ sealed b, (sealed.1.isSome = sealed.2.isSome) →
      Q (.ok sealed) { m with encrypted := b }) (hr : m.request = r) :
    EventProg.Conforms cfg (encryptSensitive cfg r) Q m := by
  rw [encryptSensitive]
  split
  · exact .ret (hok (none, none) m.encrypted rfl)
  · rename_i hs
    split
    · exact .raise (herr _ m.encrypted)
    · have hmay : m.request.sensitive ≠ none := by
        rw [hr, hs]
        exact some_ne_none _
      refine conforms_do (query_conforms hmay fun x ↦ ?_)
      exact conforms_do (checked_conforms (fun e _ ↦ herr _ true)
        fun c _ ↦ .ret (hok (some c, some _) true rfl))

theorem channelArg_conforms {channel : Option String}
    {Q : Except AppendError (Option Uuid) → AppendKnown → Prop} (herr : ∀ e, Q (.error e) m)
    (hok : ∀ u, (∀ c, channel = some c → u = parseUuid c) → (channel = none → u = none) →
      Q (.ok u) m) : EventProg.Conforms cfg (channelArg channel) Q m := by
  cases channel with
  | none => exact .ret (hok none (by simp) fun _ ↦ rfl)
  | some =>
    refine Prog.conforms_bind.2 (uuidArg_conforms (fun _ ↦ herr _) fun u hu ↦ ?_)
    exact .ret (hok (some u) (fun c' hc' ↦ by rw [← some.inj hc', hu]) (by simp))

/-- **The stored hash covers the stored row** of a valid draft, when both readings are in one
millisecond. -/
theorem hashed_rowOf {r : AppendRequest} {id : Uuid} (hsealed : sealed.1.isSome = sealed.2.isSome)
    (hhash : computeContentHash cfg.sha256 (draftEvent r eventId last sealed t₀) = .ok contentHash)
    (hvalid : cfg.registry.validateContract ((draftEvent r eventId last sealed t₀).withHash
    contentHash) = .ok ()) (hws : parseUuid r.workspaceId = some ws)
    (hactor : parseUuid r.actorAccountId = some actor)
    (hsome : ∀ c, r.channelId = some c → channel = parseUuid c)
    (hnone : r.channelId = none → channel = none) (ht : t₀.millisecond = t₁.millisecond)
    (hr : r.Clean) : (rowToEvent (rowOf ((draftEvent r eventId last sealed t₀).withHash contentHash)
      id ws actor channel sealed.1 bodyHash t₁ n)).Hashed cfg.sha256 := by
  obtain ⟨hwst, hactort⟩ := cfg.registry.isUuidText_of_validateContract hvalid
  have hws' : ws.text = r.workspaceId := by
    have h := parseUuid_of_isUuidText (s := r.workspaceId) hwst
    rw [hws, some.injEq] at h
    rw [h]
  have hactor' : actor.text = r.actorAccountId := by
    have h := parseUuid_of_isUuidText (s := r.actorAccountId) hactort
    rw [hactor, some.injEq] at h
    rw [h]
  have hchannel : channel.map Uuid.text = r.channelId := by
    cases hc : r.channelId with
    | none => rw [hnone hc, map_none]
    | some c => rw [hsome c hc, parseUuid_of_isUuidText (hr.channel c hc), map_some]
  -- An empty ciphertext would be hashed as `null`, but the contract refuses it.
  have hcipher : sealed.1.map Base64.mk = ciphertextField sealed.1 := by
    have hsome : (ciphertextField sealed.1).isSome = sealed.2.isSome :=
      cfg.registry.isSome_of_validateContract hvalid
    rw [← hsealed] at hsome
    cases hc : sealed.1 with
    | none => rfl
    | some bs =>
      cases bs with
      | nil => simp [hc, ciphertextField] at hsome
      | cons => rfl
  have hread : rowToEvent (rowOf ((draftEvent r eventId last sealed t₀).withHash contentHash)
        id ws actor channel sealed.1 bodyHash t₁ n) =
      { (draftEvent r eventId last sealed t₀).withHash contentHash with
        payload := r.payload.json.stored } := by
    simp only [rowToEvent, rowOf, Event.withHash, draftEvent, hws', hactor', hchannel, hcipher,
      isoformatUtc_congr ht]
  rw [hread]
  exact computeContentHash_stored cfg.sha256 hr.payload r.payload.nodup hhash

theorem findIdempotent_conforms {Q : Except AppendError (Option EventRow) → AppendKnown → Prop}
    (herr : m.request.idemKey? = none → Q (.error .valueError) m)
    (hnone : Q (.ok none) { m with found := none, absent := true })
    (hsome : ∀ row, Q (.ok (some row)) { m with found := some row }) :
    EventProg.Conforms cfg (findIdempotent m.request) Q m := by
  refine conforms_do (uuidArg_conforms (fun h ↦ herr ?_) fun ws hws ↦ ?_)
  · rw [AppendRequest.idemKey?, h, bind_none]
  refine conforms_do (uuidArg_conforms (fun h ↦ herr ?_) fun actor hactor ↦ ?_)
  · rw [AppendRequest.idemKey?, hws, h, bind_some, map_none]
  rw [bindPost_ok]
  refine query_conforms (o := .findIdempotent _) ?_ ?_
  · change m.request.idemKey? = some _
    rw [AppendRequest.idemKey?, hws, hactor, bind_some, map_some]
  · rintro (_ | row)
    · exact hnone
    · exact hsome row

theorem replay_conforms {prior : EventRow}
    {Q : Except AppendError AppendResult → AppendKnown → Prop}
    (h : Q (replayOutcome prior bodyHash) m) :
    EventProg.Conforms cfg (replay prior bodyHash) Q m := by
  rw [replayOutcome] at h
  rw [replay]
  split at h
  · rename_i hne
    rw [if_pos hne]
    exact .raise h
  · rename_i hne
    rw [if_neg hne]
    exact .ret h

theorem recoverInsert_conforms {c : UniqueConstraint}
    (hb : m.request.requestBodyHash cfg.sha256 = .ok bodyHash) (ha : m.absent = true)
    (hi : m.inserted = none) :
    EventProg.Conforms cfg (recoverInsert m.request bodyHash c) (fun x m' ↦ m'.Ends cfg x) m := by
  have hraise : ∀ m' : AppendKnown, m'.absent = true → m'.inserted = none →
      EventProg.Conforms cfg (if nameContains "aggregate_seq" c then
        storeError .sequenceConflict "concurrent append on the aggregate"
        else storeError .eventInsertFailed c.name) (fun x m' ↦ m'.Ends cfg x) m' := by
    intro m' ha' hi'
    split
    · exact .raise (.failed ha' hi')
    · exact .raise (.failed ha' hi')
  rw [recoverInsert]
  split
  · refine conforms_do (findIdempotent_conforms (fun _ ↦ .failed ha hi) ?_ fun row ↦ ?_)
    · exact hraise _ rfl hi
    · exact replay_conforms (.collided ha rfl hi hb)
  · exact hraise m ha hi

/-- What a call knows when it has drafted its Event. -/
structure Drafting (cfg : EventConfig) (m : AppendKnown) (bodyHash : String)
    (last : Option (ℕ × String)) (t₀ : Time) : Prop where
  body : m.request.requestBodyHash cfg.sha256 = .ok bodyHash
  absent : m.absent = true
  inserted : m.inserted = none
  head : m.head = some last
  hashedAt : m.hashedAt = some t₀
  expected : ∀ k, m.request.expectedSeq = some k → k = (nextSeq last : ℤ)
  cause : ∀ ws e, parseUuid m.request.workspaceId = some ws → m.request.causedBy = some e →
    m.cause = some (e, ws)

theorem Drafting.drafted (h : Drafting cfg m bodyHash last t₀) {id : Uuid}
    (hsealed : sealed.1.isSome = sealed.2.isSome) (hhash : computeContentHash cfg.sha256 (draftEvent
    m.request eventId last sealed t₀) = .ok contentHash) (hvalid : cfg.registry.validateContract
    ((draftEvent m.request eventId last sealed t₀).withHash contentHash) = .ok ())
    (hws : parseUuid m.request.workspaceId = some ws)
    (hactor : parseUuid m.request.actorAccountId = some actor)
    (hsome : ∀ c, m.request.channelId = some c → channel = parseUuid c)
    (hnone : m.request.channelId = none → channel = none) (hstored : m.storedAt = some t₁) :
    Drafted cfg m (rowOf ((draftEvent m.request eventId last sealed t₀).withHash contentHash)
      id ws actor channel sealed.1 bodyHash t₁ n) where
  key := by
    rw [AppendRequest.idemKey?, hws, hactor]
    rfl
  aggregate := by
    rw [AppendRequest.aggregate?, hws]
    rfl
  body := h.body
  type := rfl
  payload := rfl
  expected := h.expected
  causedBy := rfl
  cause e he := h.cause ws e hws he
  head := ⟨last, h.head, rfl, rfl⟩
  hash := ⟨t₀, t₁, h.hashedAt, hstored, fun ht hr ↦
    hashed_rowOf hsealed hhash hvalid hws hactor hsome hnone ht hr⟩

theorem insertEvent_conforms (h : Drafting cfg m bodyHash last t₀)
    (hsealed : sealed.1.isSome = sealed.2.isSome) :
    EventProg.Conforms cfg (insertEvent cfg m.request bodyHash sealed.1
      (draftEvent m.request eventId last sealed t₀)) (fun x m' ↦ m'.Ends cfg x) m := by
  have hfail : ∀ e, m.Ends cfg (.error e) := fun e ↦ .failed h.absent h.inserted
  rw [insertEvent]
  refine conforms_do (canonicalized_conforms (fun _ _ ↦ hfail _) fun contentHash hhash ↦ ?_)
  refine conforms_do (checked_conforms (fun _ _ ↦ hfail _) fun _ hvalid ↦ ?_)
  refine conforms_do (query_conforms trivial fun id ↦ ?_)
  refine conforms_do (uuidArg_conforms (fun _ ↦ hfail _) fun ws hws ↦ ?_)
  refine conforms_do (channelArg_conforms (fun _ ↦ hfail _) fun channel hsome hnone ↦ ?_)
  refine conforms_do (uuidArg_conforms (fun _ ↦ hfail _) fun actor hactor ↦ ?_)
  refine conforms_do (query_conforms trivial fun t₁ ↦ ?_)
  have h' : Drafting cfg { m with storedAt := some t₁ } bodyHash last t₀ :=
    ⟨h.body, h.absent, h.inserted, h.head, h.hashedAt, h.expected, h.cause⟩
  refine conforms_do (query_conforms ⟨h.inserted, h.absent, fun n ↦ ⟨rfl, ?_⟩⟩ ?_)
  · exact h'.drafted hsealed hhash hvalid hws hactor hsome hnone rfl
  · rintro (recordedSeq | c | _)
    · exact .ret (.appended h.absent rfl
        (h'.drafted hsealed hhash hvalid hws hactor hsome hnone rfl) rfl rfl rfl)
    · exact recoverInsert_conforms (m := { m with storedAt := some t₁ }) h.body h.absent h.inserted
    · exact .raise (.failed h.absent h.inserted)

theorem appendNew_conforms (hb : m.request.requestBodyHash cfg.sha256 = .ok bodyHash)
    (ha : m.absent = true) (hi : m.inserted = none) (hs : m.storedAt = none) :
    EventProg.Conforms cfg (appendNew cfg m.request bodyHash) (fun x m' ↦ m'.Ends cfg x) m := by
  rw [appendNew]
  refine conforms_do (checkWorkspace_conforms (fun _ _ ↦ .failed ha hi) fun ws c hws hc ↦ ?_)
  refine conforms_do (uuidArg_conforms (fun _ ↦ .failed ha hi) fun ws' hws' ↦ ?_)
  refine conforms_do (query_conforms ?_ fun last ↦ ?_)
  · change m.request.aggregate? = some _
    rw [AppendRequest.aggregate?, hws', map_some]
  by_cases hexp : (m.request.expectedSeq.any fun expected : ℤ ↦ expected ≠ (nextSeq last : ℤ)) = true
  · rw [bindPost_ok, if_pos hexp]
    exact .raise (.failed ha hi)
  rw [bindPost_ok, if_neg hexp]
  refine conforms_do (encryptSensitive_conforms (fun _ _ ↦ .failed ha hi)
    (fun sealed b hsealed ↦ ?_) rfl)
  refine conforms_do (query_conforms trivial fun eventId ↦ ?_)
  refine conforms_do (query_conforms hs fun t₀ ↦ ?_)
  let m' : AppendKnown := { m with
    cause := c
    head := some last
    encrypted := b
    hashedAt := some t₀ }
  have h : Drafting cfg m' bodyHash last t₀ :=
    ⟨hb, ha, hi, rfl, rfl, fun k hk ↦ ?_, fun w e hw he ↦ ?_⟩
  · exact insertEvent_conforms h hsealed
  · change m.request.expectedSeq = some k at hk
    rw [hk] at hexp
    simpa using hexp
  · rw [hws] at hw
    rw [← some.inj hw]
    exact hc e he

theorem append_conforms (cfg : EventConfig) (r : AppendRequest) :
    EventProg.Conforms cfg (append cfg r) (fun x m ↦ m.Ends cfg x) { request := r } := by
  rw [append]
  refine conforms_do (canonicalized_conforms (fun e he ↦ .refused (.inr ⟨e, he⟩) rfl rfl)
    fun bodyHash hb ↦ ?_)
  refine conforms_do (lock_conforms ?_)
  refine conforms_do (findIdempotent_conforms (m := { request := r })
    (fun h ↦ .refused (.inl h) rfl rfl) ?_ fun row ↦ ?_)
  · rw [bindPost_ok]
    exact appendNew_conforms (m := { request := r, absent := true }) hb rfl rfl rfl
  · rw [bindPost_ok]
    exact replay_conforms (.replayed rfl rfl rfl hb)

end Conformance

/-- **The protocol of `append`.** -/
def appendProtocol (cfg : EventConfig) : System.Protocol (eventSystem cfg) AppendKnown where
  monitor := appendMonitor cfg
  start r := { request := r }
  finish _ x m := m.Ends cfg x
  conforms r := append_conforms cfg r

end AgentColab
