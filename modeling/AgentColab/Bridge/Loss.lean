import AgentColab.Bridge.Loop

/-!
# What is lost

A message that passes the checks is relayed, unless it is a reply whose root has no completed
mapping. A root that the bridge relays has one once its delivery has been recorded; a reply that is
observed before is refused.
-/

namespace AgentColab.Bridge

open List Option
open World (start)

/-! ## What is refused -/

theorem ok_of_isOk {ε : Type} {x : Except ε Unit} (h : x.isOk = true) : x = .ok () := by
  rcases x with e | u
  · cases h
  · rfl

variable {existing : List Mapping} {config : BridgeConfig} {event : InboundEvent}

theorem routePost_ok (hchannel : event.mmChannelId = some config.mmChannelId)
    (hroot : ∀ rootId ∈ event.mmRootId, ∃ m ∈ existing, m.mmPostId = rootId) :
    ∃ target, routePost existing config event = .ok target := by
  unfold routePost
  rw [if_neg (not_not.2 hchannel)]
  cases hrootId : event.mmRootId with
  | none => cases config.tgThreadMode <;> exact ⟨_, rfl⟩
  | some rootId =>
    obtain ⟨m, hm, hpost⟩ := hroot rootId hrootId
    dsimp only
    cases hfind : findByMmPost existing rootId with
    | none =>
      have := List.find?_eq_none.1 hfind m hm
      simp [hpost] at this
    | some => exact ⟨_, rfl⟩

theorem routeMessage_ok (hchat : event.tgChatId = some config.tgChatId) :
    ∃ target, routeMessage existing config event = .ok target := by
  unfold routeMessage
  rw [if_neg (not_not.2 hchat)]
  exact ⟨_, rfl⟩

theorem relay_error {redact : String → Redaction} {bridge : BridgeRow} {existing : List Mapping}
    {mapped : Bool} {event : InboundEvent} {body kind code : String}
    {attachments : List AttachmentMeta} (henabled : bridge.enabled = true)
    (hloop : (checkLoop event).isOk = true)
    (hdirection : (checkDirection bridge.config event).isOk = true)
    (hcontent : contentAllowed bridge.contentPolicy kind = true)
    (hroute : ∃ target, (match event.source with
      | .post _ => routePost existing bridge.config event
      | .message _ => routeMessage existing bridge.config event) = .ok target)
    (h : relay redact bridge existing mapped event body kind attachments = .error code) :
    (∃ m ∈ existing, m.dedupeKey = mappingKey bridge.bridgeId event.source) ∨ mapped = true := by
  by_contra hnew
  obtain ⟨target, htarget⟩ := hroute
  have hduplicate : checkDuplicate existing bridge.config event = .ok () :=
    if_neg fun hex ↦ hnew (.inl hex)
  have hresolve : resolveTarget existing bridge.config event = .ok target := by
    unfold resolveTarget
    rw [ok_of_isOk hloop, ok_of_isOk hdirection, hduplicate]
    exact htarget
  unfold relay at h
  dsimp only at h
  rw [if_neg (by simp [henabled]), ok_of_isOk hloop, ok_of_isOk hdirection] at h
  dsimp only at h
  rw [if_neg hnew, if_neg (by simp [hcontent]), hresolve] at h
  cases h

/-! ## The condition -/

/-- The key of the message is not that of another one that is mapped. -/
def KeyFree (s : Setting) (w : World) (source : Source) : Prop :=
  ∀ q ∈ w.mappings, q.dedupeKey = mappingKey s.row.bridgeId source → q.source = source

instance (s : Setting) (w : World) (source : Source) : Decidable (KeyFree s w source) := by
  unfold KeyFree
  infer_instance

/-- The delivery of the root is recorded when a reply in its thread is observed, and no two
messages have one key. -/
def Settled (s : Setting) (w : World) : Label → Prop
  | .observePost _ postId _ _ =>
    KeyFree s w (.post postId) ∧
      ∀ p ∈ w.posts, p.postId = postId → ∀ rootId ∈ p.rootId, w.Bridged rootId →
        ∃ m ∈ completedMappings w.mappings, m.mmPostId = rootId
  | .observeMessage _ messageId _ => KeyFree s w (.message messageId)
  | .commit i => ∀ r ∈ w.relays.lookup i, KeyFree s w r.mapping.source
  | _ => True

instance (s : Setting) (w : World) : (l : Label) → Decidable (Settled s w l)
  | .observePost .. => inferInstanceAs (Decidable (_ ∧ _))
  | .observeMessage .. => inferInstanceAs (Decidable (KeyFree ..))
  | .commit _ => inferInstanceAs (Decidable (∀ r ∈ _, _))
  | .post _ | .message _ | .edit .. | .stop _ | .createTopic .. | .sendMessage .. | .createPost ..
  | .complete _ | .record _ | .exhaust _ | .replay _ | .restart => .isTrue trivial

/-! ## What is mapped -/

/-- What the tables hold of a message: one mapping, with its row of the outbox. -/
def MappedOnce (s : Setting) (w : World) (source : Source) : Prop :=
  w.mappings.countP (·.source = source) = 1 ∧
    w.outbox.countP (·.dedupeKey = mappingKey s.row.bridgeId source) = 1

/-- No message whose observation has ended is lost. -/
structure Lossless (s : Setting) (w : World) : Prop where
  loopless : Loopless s w
  outboxed : ∀ r ∈ w.mappings, ∃ o ∈ w.outbox, o.dedupeKey = r.dedupeKey
  due : ∀ source ∈ w.due, ∃ r ∈ w.mappings, r.source = source

section

variable {s : Setting} {w w' : World}

variable {source : Source} {m : Mapping} {existing : List Mapping} {i : ℕ} {kind : String}

theorem Lossless.mappedOnce (h : Lossless s w) (hdue : source ∈ w.due) : MappedOnce s w source := by
  obtain ⟨r, hr, hsource⟩ := h.due source hdue
  obtain ⟨o, ho, hkey⟩ := h.outboxed r hr
  have hno := h.loopless.noLoop
  constructor
  · refine Nat.le_antisymm (hno.mapping source) ?_
    exact countP_pos_iff.2 ⟨r, hr, by simpa using hsource⟩
  · refine Nat.le_antisymm (hno.outbox source) ?_
    refine countP_pos_iff.2 ⟨o, ho, ?_⟩
    rw [← hsource, hkey, (h.loopless.relayed.mappings r hr).2]
    exact decide_eq_true rfl

theorem Lossless.keep (h : Lossless s w) (hloopless : Loopless s w')
    (hmappings : w'.mappings.map MappingRow.source = w.mappings.map MappingRow.source ∧
      w'.mappings.map MappingRow.dedupeKey = w.mappings.map MappingRow.dedupeKey)
    (houtbox : w'.outbox.map OutboxRow.dedupeKey = w.outbox.map OutboxRow.dedupeKey)
    (hdue : w'.due = w.due) : Lossless s w' where
  loopless := hloopless
  outboxed := by
    intro r hr
    have hmem : r.dedupeKey ∈ w.mappings.map MappingRow.dedupeKey :=
      hmappings.2 ▸ List.mem_map_of_mem hr
    obtain ⟨q, hq, hkey⟩ := List.mem_map.1 hmem
    obtain ⟨o, ho, hkey'⟩ := h.outboxed q hq
    have hmem' : r.dedupeKey ∈ w'.outbox.map OutboxRow.dedupeKey := by
      rw [houtbox, ← hkey, ← hkey']
      exact List.mem_map_of_mem ho
    exact List.mem_map.1 hmem'
  due := by
    intro source hsource
    rw [hdue] at hsource
    obtain ⟨r, hr, rfl⟩ := h.due source hsource
    have hmem : r.source ∈ w'.mappings.map MappingRow.source := hmappings.1 ▸ List.mem_map_of_mem hr
    exact List.mem_map.1 hmem

theorem Lossless.addDue (h : Lossless s w) (hloopless : Loopless s w')
    (hmapped : ∃ r ∈ w.mappings, r.source = source) (hmappings : w'.mappings = w.mappings)
    (houtbox : w'.outbox = w.outbox) (hdue : ∀ q ∈ w'.due, q ∈ w.due ∨ q = source) :
    Lossless s w' where
  loopless := hloopless
  outboxed := fun r hr ↦ houtbox ▸ h.outboxed r (hmappings ▸ hr)
  due := by
    intro q hq
    rw [hmappings]
    rcases hdue q hq with hq | rfl
    · exact h.due q hq
    · exact hmapped

theorem mapping_eq {r : MappingRow} (h : r.mapping = some m) :
    r.deliveryStatus = .sent ∧ r.mmPostId = some m.mmPostId ∧
      r.tgMessageId = some m.tgMessageId ∧ r.mmRootPostId = m.mmRootId ∧
        r.tgThreadId = m.tgThreadId ∧ r.dedupeKey = m.dedupeKey := by
  unfold MappingRow.mapping at h
  split at h
  · rename_i hsent hpost hmessage
    obtain rfl := some.inj h
    exact ⟨hsent, hpost, hmessage, rfl, rfl, rfl⟩
  · cases h

theorem mem_completed {rows : List MappingRow} (h : existing.Perm (completedMappings rows))
    (hm : m ∈ existing) : ∃ r ∈ rows, r.mapping = some m :=
  mem_filterMap.1 (h.mem_iff.1 hm)

theorem mapped_of_duplicate (hfree : KeyFree s w source)
    (hperm : existing.Perm (completedMappings w.mappings)) (h : (∃ m ∈ existing, m.dedupeKey =
    mappingKey s.row.bridgeId source) ∨ w.mapped source = true) :
    ∃ r ∈ w.mappings, r.source = source := by
  rcases h with ⟨m, hm, hkey⟩ | hmapped
  · obtain ⟨r, hr, hrow⟩ := mem_completed hperm hm
    obtain ⟨-, -, -, -, -, hdedupe⟩ := mapping_eq hrow
    exact ⟨r, hr, hfree r hr (hdedupe.trans hkey)⟩
  · simpa [World.mapped] using hmapped

theorem Lossless.decided (h : Lossless s w) {owed : Bool} {outcome : Option (Except String Relay)}
    (hloopless : Loopless s (w.decided i source owed outcome)) (hmapped : owed = true → ∀ code,
    outcome = some (.error code) → ∃ r ∈ w.mappings, r.source = source) :
    Lossless s (w.decided i source owed outcome) := by
  rcases outcome with _ | code | r
  · exact h
  · cases howed : owed with
    | false => exact h.keep (howed ▸ hloopless) ⟨rfl, rfl⟩ rfl rfl
    | true =>
      refine h.addDue (howed ▸ hloopless) (hmapped howed code rfl) rfl rfl fun q hq ↦ ?_
      rcases mem_append.1 hq with hq | hq
      · exact .inl hq
      · exact .inr (mem_singleton.1 hq)
  · exact h.keep hloopless ⟨rfl, rfl⟩ rfl rfl

theorem postEvent_view {p : Post} (h : postEvent s.toService (p.view s kind) = some event) :
    event.mmChannelId = some s.row.channelExtId ∧ event.mmRootId = p.rootId := by
  obtain ⟨parsed, -, rfl⟩ := map_eq_some_iff.1 h
  exact ⟨rfl, rfl⟩

theorem Lossless.observePost (h : Lossless s w) {postId : String}
    (hsettled : Settled s w (.observePost i postId kind existing))
    (hstep : w.step s (.observePost i postId kind existing) = some w') : Lossless s w' := by
  have hloopless := h.loopless.step hstep
  obtain ⟨hfree, hroots⟩ := hsettled
  rw [World.step] at hstep
  split at hstep
  · rename_i p _ hfind
    split_ifs at hstep with hperm
    obtain rfl := some.inj hstep
    have hmem := mem_of_find?_eq_some hfind
    have hid : p.postId = postId := by simpa using List.find?_some hfind
    refine h.decided hloopless fun howed code hcode ↦ ?_
    unfold onMattermostPost at hcode
    split_ifs at hcode
    obtain ⟨event, hevent, hrelay⟩ := map_eq_some_iff.1 hcode
    rw [hevent] at howed
    obtain ⟨henabled, hloop, hdirection, hcontent, hbridged⟩ := of_decide_eq_true howed
    have hsource : event.source = .post postId := by
      rw [postEvent_source hevent]
      exact congrArg _ hid
    obtain ⟨hchannel, hroot⟩ := postEvent_view hevent
    have hroute : ∃ target, routePost existing s.row.config event = .ok target := by
      refine routePost_ok hchannel fun rootId hrootId ↦ ?_
      -- the delivery of the root is recorded
      obtain ⟨m, hm, hpost⟩ := hroots p hmem hid rootId (hroot ▸ hrootId) (hbridged rootId hrootId)
      exact ⟨m, hperm.mem_iff.2 hm, hpost⟩
    have hduplicate := relay_error henabled hloop hdirection hcontent (by rwa [hsource]) hrelay
    rw [hsource] at hduplicate
    exact mapped_of_duplicate hfree hperm hduplicate
  · cases hstep

theorem Lossless.observeMessage (h : Lossless s w) {messageId : ℕ}
    (hsettled : Settled s w (.observeMessage i messageId existing))
    (hstep : w.step s (.observeMessage i messageId existing) = some w') : Lossless s w' := by
  have hloopless := h.loopless.step hstep
  rw [World.step] at hstep
  split at hstep
  · rename_i m _ hfind
    split_ifs at hstep with hperm
    obtain rfl := some.inj hstep
    have hid : m.messageId = messageId := by simpa using List.find?_some hfind
    refine h.decided hloopless fun howed code hcode ↦ ?_
    unfold onTelegramMessage at hcode
    split_ifs at hcode
    have hrelay := some.inj hcode
    obtain ⟨henabled, hloop, hdirection, hcontent, -⟩ := of_decide_eq_true howed
    have hsource : (messageEvent s.toService (m.inbound s)).source = .message messageId :=
      congrArg _ hid
    have hduplicate := relay_error henabled hloop hdirection hcontent
      (by rw [hsource]; exact routeMessage_ok rfl) hrelay
    rw [hsource] at hduplicate
    exact mapped_of_duplicate hsettled hperm hduplicate
  · cases hstep

theorem Lossless.commit (h : Lossless s w) (hsettled : Settled s w (.commit i))
    (hstep : w.step s (.commit i) = some w') : Lossless s w' := by
  have hloopless := h.loopless.step hstep
  rw [World.step] at hstep
  split at hstep
  · cases hstep
  · rename_i r hr
    have hfree := hsettled r hr
    have hkeys := h.loopless.relayed.relays _ (mem_of_lookup hr)
    have hdue : ∀ q ∈ w.due ++ [r.mapping.source], q ∈ w.due ∨ q = r.mapping.source := by
      intro q hq
      rcases mem_append.1 hq with hq | hq
      · exact .inl hq
      · exact .inr (mem_singleton.1 hq)
    split_ifs at hstep with hconflict
    · obtain rfl := some.inj hstep
      refine h.addDue hloopless ?_ rfl rfl hdue
      obtain ⟨q, hq, hsource | hkey⟩ := hconflict
      · exact ⟨q, hq, hsource⟩
      · exact ⟨q, hq, hfree q hq (hkey.trans hkeys.2.2)⟩
    · obtain rfl := some.inj hstep
      have hinserted : Lossless s (w.insert r) := by
        refine ⟨⟨h.loopless.marked.same rfl rfl,
          h.loopless.relayed.insert hkeys.1 hkeys.2.1 hkeys.2.2 hconflict⟩, ?_, ?_⟩
        · intro q hq
          have hsub : ∀ o ∈ w.outbox, o ∈ (w.insert r).outbox := by
            intro o ho
            unfold World.insert
            dsimp only
            split_ifs
            · exact ho
            · exact mem_append_left _ ho
          rcases mem_append.1 hq with hq | hq
          · obtain ⟨o, ho, hkey⟩ := h.outboxed q hq
            exact ⟨o, hsub o ho, hkey⟩
          · rw [mem_singleton.1 hq]
            by_cases hex : ∃ o ∈ w.outbox, o.dedupeKey = r.outbox.dedupeKey
            · obtain ⟨o, ho, hkey⟩ := hex
              exact ⟨o, hsub o ho, hkey.trans hkeys.2.1⟩
            · refine ⟨r.outbox, ?_, hkeys.2.1⟩
              have houtbox : (w.insert r).outbox = w.outbox ++ [r.outbox] := if_neg hex
              rw [houtbox]
              exact mem_append_right _ (mem_singleton_self _)
        · intro source hsource
          obtain ⟨q, hq, rfl⟩ := h.due source hsource
          exact ⟨q, mem_append_left _ hq, rfl⟩
      refine hinserted.addDue hloopless ?_ rfl rfl hdue
      exact ⟨r.mapping, mem_append_right _ (mem_singleton_self _), rfl⟩

theorem Lossless.step {label : Label} (h : Lossless s w) (hsettled : Settled s w label)
    (hstep : w.step s label = some w') : Lossless s w' := by
  have hloopless := h.loopless.step hstep
  cases label with
  | observePost => exact h.observePost hsettled hstep
  | observeMessage => exact h.observeMessage hsettled hstep
  | commit => exact h.commit hsettled hstep
  | post | message =>
    rw [World.step] at hstep
    split_ifs at hstep
    obtain rfl := some.inj hstep
    exact h.keep hloopless ⟨rfl, rfl⟩ rfl rfl
  | edit | stop | restart =>
    obtain rfl := some.inj hstep
    exact h.keep hloopless ⟨rfl, rfl⟩ rfl rfl
  | createTopic | createPost =>
    rw [World.step] at hstep
    split at hstep
    · split_ifs at hstep
      obtain rfl := some.inj hstep
      exact h.keep hloopless ⟨rfl, rfl⟩ rfl rfl
    · cases hstep
  | sendMessage =>
    rw [World.step] at hstep
    split at hstep
    · split at hstep
      · cases hstep
      · split_ifs at hstep
        obtain rfl := some.inj hstep
        exact h.keep hloopless ⟨rfl, rfl⟩ rfl rfl
    · cases hstep
  | complete key =>
    rw [World.step] at hstep
    split at hstep
    · rename_i o d _ _
      obtain rfl := some.inj hstep
      exact h.keep hloopless ⟨map_updateMapping fun r ↦ (source_complete d r).1,
        map_updateMapping fun r ↦ (source_complete d r).2⟩ (keys_setOutbox _ _ _) rfl
    · cases hstep
  | record key =>
    rw [World.step] at hstep
    split at hstep
    · rename_i d _
      obtain rfl := some.inj hstep
      exact h.keep hloopless ⟨map_updateMapping fun r ↦ (source_complete d r).1,
        map_updateMapping fun r ↦ (source_complete d r).2⟩ rfl rfl
    · cases hstep
  | exhaust =>
    rw [World.step] at hstep
    split at hstep
    · obtain rfl := some.inj hstep
      exact h.keep hloopless ⟨map_updateMapping fun _ ↦ rfl, map_updateMapping fun _ ↦ rfl⟩
        (keys_setOutbox _ _ _) rfl
    · cases hstep
  | replay =>
    rw [World.step] at hstep
    split_ifs at hstep
    obtain rfl := some.inj hstep
    exact h.keep hloopless ⟨map_updateMapping fun _ ↦ rfl, map_updateMapping fun _ ↦ rfl⟩
      (keys_setOutbox _ _ _) rfl

theorem Lossless.start (s : Setting) : Lossless s start where
  loopless := .start s
  outboxed := forall_mem_nil _
  due := forall_mem_nil _

/-- Where every reply is observed after the delivery of its root has been recorded, every message to
be relayed has one mapping, with its row of the outbox. -/
theorem no_loss {ls : List Label} (hrun : Run s (Settled s) start ls w) :
    ∀ source ∈ w.due, MappedOnce s w source :=
  fun _ hdue ↦
    (hrun.invariant (fun _ _ _ h hC hstep ↦ Lossless.step h hC hstep) (.start s)).mappedOnce hdue

end

namespace Sample

def replyLate : List Label :=
  relayRoot ++ [.complete (key (.post "post-1")), .post (post "post-2" (some "post-1")),
    .observePost 1 "post-2" "text" [rootMapping], .commit 1]

/-- A reply that is observed while the delivery of its root is under way; then everything is
delivered. -/
def replyEarly : List Label :=
  relayRoot ++ [.post (post "post-2" (some "post-1")), .observePost 1 "post-2" "text" [],
    .complete (key (.post "post-1"))]

end Sample

open Sample

theorem no_loss_reply_late : ∃ w, Run setting (Settled setting) start replyLate w ∧
      w.due = [.post "post-1", .post "post-2"] ∧ ∀ source ∈ w.due, MappedOnce setting w source := by
  have hrun : ((start.runLabels setting (Settled setting)
      replyLate).any fun w ↦ w.due = [.post "post-1", .post "post-2"]) = true := by
    decide +kernel
  obtain ⟨w, hw, hfacts⟩ := (Option.any_eq_true _ _).1 hrun
  have h := World.run_of_runLabels hw
  exact ⟨w, h, of_decide_eq_true hfacts, no_loss h⟩

/-- No transaction is open and every row of the outbox is sent, but the reply has no mapping. -/
theorem reply_early_lost : ∃ w, Run setting (fun _ _ ↦ True) start replyEarly w ∧
      w.relays.length = 0 ∧ (∀ o ∈ w.outbox, o.status = .sent) ∧
        .post "post-2" ∈ w.due ∧ ¬MappedOnce setting w (.post "post-2") := by
  have hrun : ((start.runLabels setting (fun _ _ ↦ True) replyEarly).any
      fun w ↦ w.relays.length = 0 ∧ (∀ o ∈ w.outbox, o.status = .sent) ∧
        Source.post "post-2" ∈ w.due ∧
          w.mappings.countP (·.source = .post "post-2") = 0) = true := by decide +kernel
  obtain ⟨w, hw, hfacts⟩ := (Option.any_eq_true _ _).1 hrun
  obtain ⟨hrelays, houtbox, hdue, hcount⟩ := of_decide_eq_true hfacts
  refine ⟨w, World.run_of_runLabels hw, hrelays, houtbox, hdue, fun h ↦ ?_⟩
  rw [h.1] at hcount
  cases hcount

end AgentColab.Bridge
