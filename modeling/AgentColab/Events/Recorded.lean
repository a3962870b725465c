import AgentColab.Digest.Sha256
import AgentColab.Events.Linear

/-!
# What appends record

Under any interleaving of clients, the events of every aggregate are a chain, keys are unique and
every call obeys its law; and the recorded streams verify, as long as the two clock readings of each
append fall in one millisecond.
-/

namespace AgentColab

open Transaction List Option

/-! ## Linearizability -/

/-- A call that names the key of an appended event gets the original event if its body is the same,
a conflict if not, and adds nothing. -/
structure RetryLaw (cfg : EventConfig) (f₀ f : (eventSystem cfg).Finished) (res : AppendResult) :
    Prop where
  same : canonicalJson f.entry.body = canonicalJson f₀.entry.body →
    f.outcome = .ok { res with replayed := true } ∧ f.log₁ = f.log₀
  other : ∀ b b₀, canonicalJson f.entry.body = .ok b → canonicalJson f₀.entry.body = .ok b₀ →
    b ≠ b₀ → (cfg.sha256 b = cfg.sha256 b₀ → b = b₀) → f.outcome = .error
      (.store ⟨.idempotencyConflict, "same idempotency key with a different body"⟩) ∧
    f.log₁ = f.log₀

variable {cfg : EventConfig}

theorem retryLaw {f₀ f : (eventSystem cfg).Finished} (h₀ : AppendLaw cfg f₀) (h : AppendLaw cfg f)
    {res : AppendResult} (hres : f₀.outcome = .ok res) (hfresh : res.replayed = false)
    {row : EventRow} (hrow : rowsOf f₀.log₁ = rowsOf f₀.log₀ ++ [row])
    (hvisible : row ∈ f.view₀.events) (hkey : f.entry.idemKey? = f₀.entry.idemKey?) :
    RetryLaw cfg f₀ f res := by
  obtain ⟨row', hrow', hyields, hres'⟩ := h₀.appended res hres hfresh
  obtain rfl : row' = row := by simpa using hrow'.symm.trans hrow
  have hkey' := hkey.trans hyields.key
  have hbody₀ := hyields.body
  rw [AppendRequest.requestBodyHash] at hbody₀
  refine ⟨fun hbody ↦ ?_, fun b b₀ hb hb₀ hne hcol ↦ ?_⟩
  · have hhash : f.entry.requestBodyHash cfg.sha256 = .ok row'.requestBodyHash := by
      rw [AppendRequest.requestBodyHash, hbody, hbody₀]
    obtain ⟨hout, hlog⟩ := h.repeated row' hvisible _ hkey' hhash
    rw [replayOutcome, if_neg (not_not.2 rfl)] at hout
    rw [hres']
    exact ⟨hout, hlog⟩
  · have hhash : f.entry.requestBodyHash cfg.sha256 = .ok (cfg.sha256 b) := by
      rw [AppendRequest.requestBodyHash, hb]
      rfl
    rw [hb₀] at hbody₀
    have hne' : row'.requestBodyHash ≠ cfg.sha256 b := by
      rw [← Except.ok.inj hbody₀]
      exact fun heq ↦ hne (hcol heq.symm)
    obtain ⟨hout, hlog⟩ := h.repeated row' hvisible _ hkey' hhash
    rw [replayOutcome, if_pos hne'] at hout
    exact ⟨hout, hlog⟩

theorem Linked.continues {previous previous' : Option String} {es es' : List Event}
    (h : Linked n previous es) (h' : Linked n previous' es') (hsub : es ⊆ es') : es <+: es' := by
  induction es generalizing n previous previous' es' with
  | nil => exact nil_prefix
  | cons e es ih =>
    have hlater : ∀ {p : Option String} {l : List Event}, Linked (n + 1) p l → ∀ x ∈ l,
        n < x.aggregateSeq := by
      intro p l hl x hx
      have hmem := List.mem_map_of_mem (f := (·.aggregateSeq)) hx
      rw [hl.aggregateSeq] at hmem
      exact (mem_range'_1.1 hmem).1
    cases es' with
    | nil => exact absurd (hsub mem_cons_self) not_mem_nil
    | cons e' es' =>
      obtain rfl | he := mem_cons.1 (hsub mem_cons_self)
      · refine (prefix_cons_inj e).2 (ih h.2.2 h'.2.2 fun x hx ↦ ?_)
        obtain rfl | hx' := mem_cons.1 (hsub (mem_cons_of_mem e hx))
        · exact absurd h.1 (hlater h.2.2 x hx).ne'
        · exact hx'
      · exact absurd h.1 (hlater h'.2.2 e he).ne'

/-- **Reads of a stream are consistent**: in every interleaving of clients, a later read of a stream
begins with everything that an earlier read has returned. -/
theorem stream_continues {w w' : (eventSystem cfg).World}
    (hw : System.Run (fun _ _ ↦ True) (eventWorld cfg db) w)
    (hw' : System.Run (fun _ _ ↦ True) w w') (a : Aggregate) :
    w.store.stream a <+: w'.store.stream a := by
  have hstays : ∀ r ∈ w.store.events, r ∈ w'.store.events := by
    let keeps := fun s : EventTables ↦ ∀ r ∈ w.store.events, r ∈ s.events
    refine (hw'.stable (Φ := keeps) ?_ fun _ hr ↦ hr).1
    rintro s (row | ref) hs r hr
    · exact mem_append_left _ (hs r hr)
    · exact hs r hr
  have hmem : ∀ (t : EventTables) r, r ∈ t.streamRows a ↔ r ∈ t.events ∧ r.aggregate = a := by
    intro t r
    rw [EventTables.streamRows, (perm_insertionSort _ _).mem_iff, EventTables.ofAggregate,
      mem_filter, decide_eq_true_iff]
  refine ((append_run hw).1.linked a).continues ((append_run (hw.trans hw')).1.linked a) ?_
  refine map_subset _ fun r hr ↦ ?_
  obtain ⟨hr, ha⟩ := (hmem _ r).1 hr
  exact (hmem _ r).2 ⟨hstays r hr, ha⟩

/-! ## Recorded streams verify -/

/-- A run in which every request is clean and the second clock reading of every append falls in
the millisecond of the first. -/
def InOneMillisecond (cfg : EventConfig) (w : (eventSystem cfg).World) :
    (eventSystem cfg).Label → Prop
  | .call _ r => r.Clean
  | .exec i inp => ∀ s c k t₀, w.sessions i = some s → s.call = some c →
    c.rest = .call (.now .stored) k → (⟨.now .hashed, t₀⟩ : (eventSystem cfg).Stmt) ∈ c.trace →
    t₀.millisecond = inp.now.millisecond
  | _ => True

theorem mem_trace_of_hashedAt {r : AppendRequest} {trace : List (eventSystem cfg).Stmt} {t : Time}
    (h : ((appendProtocol cfg).after { request := r } trace).hashedAt = some t) :
    (⟨.now .hashed, t⟩ : (eventSystem cfg).Stmt) ∈ trace := by
  induction trace using List.reverseRecOn with
  | nil => cases h
  | append_singleton trace x ih =>
    obtain ⟨o, res⟩ := x
    rw [System.Protocol.after, foldl_append] at h
    have hkeep : ((appendProtocol cfg).after { request := r } trace).hashedAt = some t →
        (⟨.now .hashed, t⟩ : (eventSystem cfg).Stmt) ∈
          trace ++ [(⟨o, res⟩ : (eventSystem cfg).Stmt)] :=
      fun h' ↦ mem_append_left _ (ih h')
    cases o with
    | findIdempotent | eventWorkspace | insert => cases res <;> exact hkeep h
    | now reading =>
      cases reading with
      | hashed =>
        rw [← some.inj h]
        exact mem_append_right _ (mem_singleton_self _)
      | stored => exact hkeep h
    | _ => exact hkeep h

/-- The readings of a call fall in one millisecond. -/
def AppendKnown.OneMillisecond (m : AppendKnown) : Prop :=
  ∀ t₀ t₁, m.hashedAt = some t₀ → m.storedAt = some t₁ → t₀.millisecond = t₁.millisecond

/-- Every row carries the hash of what is read back from it. -/
def verifiedShape (cfg : EventConfig) : System.Shape (eventSystem cfg) where
  G db := ∀ row ∈ db.events, (rowToEvent row).Hashed cfg.sha256
  L _ _ s := (∀ row ∈ rowsOf s.log, (rowToEvent row).Hashed cfg.sha256) ∧
    ∀ c, s.call = some c → c.entry.Clean ∧ ((appendProtocol cfg).known c).request = c.entry ∧
      ((appendProtocol cfg).known c).OneMillisecond
  R _ := True

theorem AppendKnown.OneMillisecond.next {m : AppendKnown} (h : m.OneMillisecond) {o : EventStmt}
    (hmay : m.may cfg o) (res : EventRes o) (hstored : ∀ t, o = .now .stored → ∀ t₀, m.hashedAt =
    some t₀ → res ≍ t → t₀.millisecond = Time.millisecond t) : (m.next o res).OneMillisecond := by
  cases o with
  | findIdempotent | eventWorkspace | insert => cases res <;> exact h
  | now reading =>
    cases reading with
    | hashed =>
      intro t₀ t₁ _ ht₁
      change m.storedAt = some t₁ at ht₁
      rw [show m.storedAt = none from hmay] at ht₁
      cases ht₁
    | stored =>
      intro t₀ t₁ ht₀ ht₁
      exact hstored t₁ rfl t₀ ht₀ (heq_of_eq (some.inj ht₁))
  | _ => exact h

theorem verified_local (cfg : EventConfig) :
    (appendProtocol cfg).Local (InOneMillisecond cfg) (verifiedShape cfg) where
  ok _ _ _ _ _ _ _ _ _ _ _ _ _ _ := trivial
  exec w i inp s c o k hI hC hs hc hrest hmay _ _ := by
    obtain ⟨hlog, hcall⟩ := hI.session i s hs
    obtain ⟨hclean, hreq, hms⟩ := hcall c hc
    refine ⟨fun row hrow ↦ ?_, fun c' hc' ↦ ?_⟩
    · obtain hrow | hrow := mem_append.1 ((rowsOf_append s.log (w.effect i s inp o).writes) ▸ hrow)
      · exact hlog row hrow
      · obtain ⟨draft, rfl, -, heq⟩ | ⟨hnil, -⟩ :=
          exec_cases ((appendProtocol cfg).known c) (w.view s) inp w.nonce o
        · obtain ⟨-, -, hdraft⟩ := hmay
          obtain ⟨t₀, t₁, ht₀, ht₁, hhash⟩ := (hdraft w.nonce).2.hash
          change row ∈ rowsOf (execInsert w.nonce (w.view s) draft).writes at hrow
          rw [heq] at hrow
          rw [mem_singleton.1 hrow]
          exact hhash (hms t₀ t₁ ht₀ ht₁) (hreq ▸ hclean)
        · change row ∈ rowsOf (execEventStmt inp w.nonce (w.view s) o).writes at hrow
          rw [hnil] at hrow
          cases hrow
    · rw [← some.inj hc', (appendProtocol cfg).known_advance]
      refine ⟨hclean, (AppendKnown.next_request _ _ _).trans hreq,
        hms.next hmay _ fun t ho t₀ ht₀ hres ↦ ?_⟩
      subst ho
      rw [← eq_of_heq hres]
      exact hC s c k t₀ hs hc hrest (mem_trace_of_hashedAt (r := c.entry) ht₀)
  opened _ _ := ⟨(fun _ h ↦ nomatch h), fun _ h ↦ nomatch h⟩
  call w i e s hC _ _ hL _ := by
    refine ⟨hL.1, fun c hc ↦ ?_⟩
    rw [← some.inj hc]
    exact ⟨hC, rfl, fun _ _ h ↦ nomatch h⟩
  finish w i s c x hI hs hc _ := ⟨⟨(hI.session i s hs).1, fun _ h ↦ nomatch h⟩, trivial⟩
  commit st _ s hG hL _ _ row hrow := by
    rw [view_events] at hrow
    rcases mem_append.1 hrow with hrow | hrow
    · exact hG row hrow
    · exact hL.1 row hrow
  others _ _ _ _ _ _ hL _ _ _ _ := hL

/-- Whether a step is one of a run in which readings fall in one millisecond. -/
def checkMillisecond (cfg : EventConfig) (w : (eventSystem cfg).World) :
    (eventSystem cfg).Label → Bool
  | .call _ r => r.payload.json.isSmall && r.channelId.all isUuidText
  | .exec i inp =>
    match w.sessions i with
    | none => true
    | some s =>
      match s.call with
      | none => true
      | some c => c.trace.all fun
        | ⟨.now .hashed, t₀⟩ => decide (Time.millisecond t₀ = inp.now.millisecond)
        | _ => true
  | _ => true

theorem inOneMillisecond_of_check {w : (eventSystem cfg).World} {l : (eventSystem cfg).Label}
    (h : checkMillisecond cfg w l = true) : InOneMillisecond cfg w l := by
  cases l with
  | call =>
    obtain ⟨hsmall, hchannel⟩ := Bool.and_eq_true_iff.1 h
    refine ⟨hsmall, fun c hc ↦ ?_⟩
    rw [hc] at hchannel
    exact hchannel
  | exec =>
    intro s c k t₀ hs hc _ hmem
    simp only [checkMillisecond, hs, hc] at h
    exact of_decide_eq_true (List.all_eq_true.1 h _ hmem)
  | finish | commit | rollback => trivial

/-- **Recorded streams verify** in every run whose appends read the clock twice within one
millisecond and whose values come back as they were. -/
theorem verifyChain_stream {cfg : EventConfig} {db : EventTables} {w : (eventSystem cfg).World}
    (hw : System.Run (InOneMillisecond cfg) (eventWorld cfg db) w) (a : Aggregate) :
    verifyChain cfg.sha256 (w.store.stream a) = .ok [] := by
  obtain ⟨hsound, -⟩ := append_run (hw.mono fun _ _ _ ↦ trivial)
  have hinit : (verifiedShape cfg).Holds (eventWorld cfg db) :=
    ⟨(fun _ h ↦ nomatch h), (fun i s hs ↦ nomatch hs), fun f hf ↦ nomatch hf⟩
  obtain ⟨-, -, hverified⟩ := (verified_local cfg).keeps.run (fun _ ↦ rfl) (fun _ ↦ rfl) hinit hw
  refine (verifyChain_eq_nil cfg.sha256).2 ⟨hsound.linked a, fun ev hev ↦ ?_⟩
  obtain ⟨row, hrow, rfl⟩ := List.mem_map.1 hev
  have hmem : row ∈ w.store.ofAggregate a := (perm_insertionSort _ _).mem_iff.1 hrow
  exact hverified.store row (mem_filter.1 hmem).1

/-! ## Runs on a sample

One registered Event type, one workspace and one account. -/

namespace Sample

def workspace : Uuid := ⟨"00000000-0000-4000-8000-000000000001", by decide⟩

def actor : Uuid := ⟨"00000000-0000-4000-8000-000000000002", by decide⟩

/-- The payload schema of the type requires a non-empty `task_id`. -/
def registry : SchemaRegistry where
  types := [⟨"TASK_STARTED", "task", 1⟩]
  aggregates := [("task", "task-")]
  payloadError _ payload := match payload with
    | .obj ms => match ms.lookup "task_id" with
      | some (.str s) => if s = "" then some "task_id: '' should be non-empty" else none
      | some _ => some "task_id: not of type 'string'"
      | none => some "<root>: 'task_id' is a required property"
    | _ => some "<root>: not of type 'object'"
  envelopeMessage path _ := path

def config : EventConfig := ⟨Sha256.hexDigest, registry, false⟩

def tables : EventTables := { accounts := [(actor, workspace)] }

def request : AppendRequest where
  workspaceId := workspace.text
  aggregateType := "task"
  aggregateId := "task-1"
  type := "TASK_STARTED"
  actorAccountId := actor.text
  correlationId := "cor-1"
  idempotencyScope := "task:start"
  idempotencyKey := "key-1"
  payload := ⟨[("task_id", .str "task-1")], by decide⟩

def aggregate : Aggregate := ⟨workspace, "task", "task-1"⟩

/-- Nine statements of session `i`, whose second clock reading is `late` microseconds after the
first. -/
def statements (i : ℕ) (late : Time) : List (eventSystem config).Label :=
  [0, 0, 0, 0, 0, 0, late, late, late].map fun t ↦
    .exec i { now := 1790000000000000 + t, uuid := workspace }

def oneAppend (late : Time) : List (eventSystem config).Label :=
  .call 0 request :: statements 0 late ++ [.finish 0, .commit 0]

/-- Two clients append the same request; the second waits for the first. -/
def twoAppends : List (eventSystem config).Label :=
  [.call 0 request, .call 1 request] ++ statements 0 0 ++ [.finish 0, .commit 0] ++
    (statements 1 0).take 2 ++ [.finish 1, .commit 1]

/-! The same runs under any function that hashes. -/

variable (sha : List UInt8 → String)

def configOf : EventConfig := ⟨sha, registry, false⟩

def statementsOf (i : ℕ) (late : Time) : List (eventSystem (configOf sha)).Label :=
  [0, 0, 0, 0, 0, 0, late, late, late].map fun t ↦
    .exec i { now := 1790000000000000 + t, uuid := workspace }

def oneAppendOf (late : Time) : List (eventSystem (configOf sha)).Label :=
  .call 0 request :: statementsOf sha 0 late ++ [.finish 0, .commit 0]

def twoAppendsOf : List (eventSystem (configOf sha)).Label :=
  [.call 0 request, .call 1 request] ++ statementsOf sha 0 0 ++ [.finish 0, .commit 0] ++
    (statementsOf sha 1 0).take 2 ++ [.finish 1, .commit 1]

end Sample

open Sample

set_option maxRecDepth 20000 in
/-- One append, committed; the stream has the event and verifies. -/
theorem verifyChain_stream_oneAppend :
    ∃ w, (eventWorld config tables).runLabels (checkMillisecond config) (oneAppend 0) = some w ∧
      w.store.events.length = 1 ∧
      verifyChain config.sha256 (w.store.stream aggregate) = .ok [] := by
  have hof : ∀ sha, sha = Sha256.Strict.hexDigest → ((eventWorld (configOf sha) tables).runLabels
        (checkMillisecond (configOf sha)) (oneAppendOf sha 0)).map
          (fun w ↦ w.store.events.length) = some 1 := by
    rintro _ rfl
    decide +kernel
  have hlen : ((eventWorld config tables).runLabels (checkMillisecond config)
      (oneAppend 0)).map (fun w ↦ w.store.events.length) = some 1 :=
    hof _ Sha256.hexDigest_eq_strict
  obtain ⟨w, hw, hlen⟩ := map_eq_some_iff.1 hlen
  have hrun := System.Run.of_runLabels (fun _ _ ↦ inOneMillisecond_of_check) .refl hw
  exact ⟨w, hw, hlen, verifyChain_stream hrun aggregate⟩

set_option maxRecDepth 20000 in
/-- **Two readings, two milliseconds.** One append whose second clock reading comes a millisecond
after the first is recorded with a hash that does not verify. -/
theorem verifyChain_stream_late : ∃ w, (eventWorld config tables).runLabels (fun _ _ ↦ true)
        (oneAppend 1000) = some w ∧ verifyChain config.sha256 (w.store.stream aggregate) =
        .ok ["evt-00000000000040008000000000000001: content_hash mismatch"] := by
  have hof : ∀ sha, sha = Sha256.Strict.hexDigest →
      ((eventWorld (configOf sha) tables).runLabels (fun _ _ ↦ true)
        (oneAppendOf sha 1000)).map (fun w ↦
          verifyChain (configOf sha).sha256 (w.store.stream aggregate)) =
        some (.ok ["evt-00000000000040008000000000000001: content_hash mismatch"]) := by
    rintro _ rfl
    decide +kernel
  have h : ((eventWorld config tables).runLabels (fun _ _ ↦ true) (oneAppend 1000)).map (fun w ↦
        verifyChain config.sha256 (w.store.stream aggregate)) =
      some (.ok ["evt-00000000000040008000000000000001: content_hash mismatch"]) :=
    hof _ Sha256.hexDigest_eq_strict
  exact map_eq_some_iff.1 h

set_option maxRecDepth 20000 in
/-- The stream is read after the first of two appends and after both. -/
theorem stream_continues_twoAppends : ∃ w w' : (eventSystem config).World, w.calls.length = 1 ∧
    w'.calls.length = 2 ∧ w.store.stream aggregate <+: w'.store.stream aggregate := by
  have hof : ∀ sha, sha = Sha256.Strict.hexDigest →
      (((eventWorld (configOf sha) tables).runLabels (fun _ _ ↦ true)
        ((twoAppendsOf sha).take 13)).bind fun w ↦
          (w.runLabels (fun _ _ ↦ true) ((twoAppendsOf sha).drop 13)).map
            fun w' ↦ (w.calls.length, w'.calls.length)) = some (1, 2) := by
    rintro _ rfl
    decide +kernel
  have hlen : (((eventWorld config tables).runLabels (fun _ _ ↦ true) (twoAppends.take 13)).bind
      fun w ↦ (w.runLabels (fun _ _ ↦ true) (twoAppends.drop 13)).map
        fun w' ↦ (w.calls.length, w'.calls.length)) = some (1, 2) :=
    hof _ Sha256.hexDigest_eq_strict
  obtain ⟨w, hw, hlen⟩ := bind_eq_some_iff.1 hlen
  obtain ⟨w', hw', hlen⟩ := map_eq_some_iff.1 hlen
  refine ⟨w, w', (Prod.mk.inj hlen).1, (Prod.mk.inj hlen).2, stream_continues
    (.of_runLabels (fun _ _ _ ↦ trivial) .refl hw)
    (.of_runLabels (fun _ _ _ ↦ trivial) .refl hw') _⟩

end AgentColab
