import AgentColab.Bridge.Sends

/-!
# What is recorded

The record of a delivery completes the row of its key. A reply then joins what the row joins that it
was routed by. A root of Mattermost joins its topic, and a message that starts a thread joins its
topic and the new post: nothing was joined to either end before.
-/

namespace AgentColab.Bridge

open Option

section

variable {s : Setting} {w w' : World}

/-! ## Transactions that end, and deliveries that are given up -/

variable {source : Source} {rows : List MappingRow} {key : String} {f : MappingRow → MappingRow}
    {q r : MappingRow} {status : DeliveryStatus} {d : Delivered} {t : ℕ}

theorem mapped_iff : w.mapped source = true ↔ source ∈ w.mappings.map MappingRow.source := by
  simp [World.mapped]

theorem Threaded.shrink (h : Threaded s w) (hloopless : Loopless s w')
    (hrelays : ∀ e ∈ w'.relays, e ∈ w.relays) (hposts : w'.posts = w.posts)
    (hmessages : w'.messages = w.messages) (hmappings : w'.mappings = w.mappings)
    (houtbox : w'.outbox = w.outbox) (htopics : w'.topics = w.topics)
    (hdelivered : w'.delivered = w.delivered) : Threaded s w' := by
  obtain ⟨posts, messages, mappings, outbox, relays, topics, delivered, due⟩ := w'
  obtain rfl : posts = _ := hposts
  obtain rfl : messages = _ := hmessages
  obtain rfl : mappings = _ := hmappings
  obtain rfl : outbox = _ := houtbox
  obtain rfl : topics = _ := htopics
  obtain rfl : delivered = _ := hdelivered
  have hquiet : ∀ {source t}, Quiet w source t →
      Quiet ⟨w.posts, w.messages, w.mappings, w.outbox, relays, w.topics, w.delivered, due⟩
        source t :=
    fun hq ↦ ⟨hq.1, fun e he ↦ hq.2.1 e (hrelays e he), hq.2.2⟩
  refine ⟨hloopless, h.platforms.same rfl rfl, ?_, h.memory.grow (.of_eq rfl rfl) rfl rfl
    fun o ho ↦ ⟨o, ho, rfl⟩, ?_⟩
  · exact ⟨h.rows.keys, h.rows.sourced, fun e he ↦ h.rows.relays e (hrelays e he),
      h.rows.carries, h.rows.landed, h.rows.dead, h.rows.delivered⟩
  · refine ⟨h.paired.oneToOne, h.paired.rootRow, h.paired.partner,
      fun e he ↦ h.paired.relayPartner e (hrelays e he), fun r hr hsent t ht ↦ ?_,
      fun e he t ht ↦ ?_, h.paired.newTopic, h.paired.newPost⟩
    · obtain ⟨hjoined, hq⟩ := h.paired.alone r hr hsent t ht
      exact ⟨hjoined, hquiet hq⟩
    · rcases h.paired.relayAlone e (hrelays e he) t ht with hmapped | ⟨hjoined, hq⟩
      · exact .inl hmapped
      · exact .inr ⟨hjoined, hquiet hq⟩

theorem update_row (hr : r ∈ updateMapping rows key f) :
    ∃ q ∈ rows, (r = q ∧ q.dedupeKey ≠ key) ∨ (r = f q ∧ q.dedupeKey = key) := by
  obtain ⟨q, hq, rfl⟩ := List.mem_map.1 hr
  refine ⟨q, hq, ?_⟩
  by_cases hkey : q.dedupeKey = key
  · rw [if_pos hkey]
    exact .inr ⟨rfl, hkey⟩
  · rw [if_neg hkey]
    exact .inl ⟨rfl, hkey⟩

theorem mem_update_of_ne (hr : r ∈ rows) (hkey : r.dedupeKey ≠ key) :
    r ∈ updateMapping rows key f :=
  List.mem_map.2 ⟨r, hr, if_neg hkey⟩

theorem setOutbox_row {rows : List OutboxRow} {o : OutboxRow} (ho : o ∈ setOutbox rows key status) :
    ∃ q ∈ rows, o.dedupeKey = q.dedupeKey ∧ o.payload = q.payload ∧
      (o.status = q.status ∧ q.dedupeKey ≠ key ∨ o.status = status ∧ q.dedupeKey = key) := by
  obtain ⟨q, hq, rfl⟩ := List.mem_map.1 ho
  refine ⟨q, hq, ?_⟩
  by_cases hkey : q.dedupeKey = key
  · rw [if_pos hkey]
    exact ⟨rfl, rfl, .inr ⟨rfl, hkey⟩⟩
  · rw [if_neg hkey]
    exact ⟨rfl, rfl, .inl ⟨rfl, hkey⟩⟩

theorem mem_setOutbox {rows : List OutboxRow} {q : OutboxRow} (hq : q ∈ rows) :
    ∃ o ∈ setOutbox rows key status, o.dedupeKey = q.dedupeKey ∧ o.payload = q.payload := by
  refine ⟨_, List.mem_map_of_mem hq, ?_⟩
  split_ifs <;> exact ⟨rfl, rfl⟩

theorem Threaded.setStatus (h : Threaded s w) {key : String} {status : DeliveryStatus}
    (hloopless : Loopless s w') (hstatus : status ≠ .sent)
    (hopen : ∀ r ∈ w.mappings, r.dedupeKey = key → r.deliveryStatus ≠ .sent)
    (hforgotten : status = .dead → w.delivered key = none)
    (hw : w' = { w with
      outbox := setOutbox w.outbox key status
      mappings := updateMapping w.mappings key (MappingRow.setStatus status) }) :
    Threaded s w' := by
  subst hw
  set w₁ : World := { w with
      outbox := setOutbox w.outbox key status
      mappings := updateMapping w.mappings key (MappingRow.setStatus status) } with hw₁
  have hgrows : Grows w w₁ := .of_eq rfl rfl
  -- a row is as it was, or was not recorded and is not
  have hrow : ∀ r ∈ w₁.mappings, ∃ q ∈ w.mappings,
      r = q ∨ (r = q.setStatus status ∧ q.deliveryStatus ≠ .sent) := by
    intro r hr
    obtain ⟨q, hq, ⟨rfl, -⟩ | ⟨rfl, hkey⟩⟩ := update_row hr
    · exact ⟨r, hq, .inl rfl⟩
    · exact ⟨q, hq, .inr ⟨rfl, hopen q hq hkey⟩⟩
  have hsentRow : ∀ r ∈ w₁.mappings, r.deliveryStatus = .sent → r ∈ w.mappings := by
    intro r hr hsent
    obtain ⟨q, hq, rfl | ⟨rfl, -⟩⟩ := hrow r hr
    · exact hq
    · exact absurd hsent hstatus
  have hkept : ∀ r ∈ w.mappings, r.deliveryStatus = .sent → r ∈ w₁.mappings :=
    fun r hr hsent ↦ mem_update_of_ne hr fun hkey ↦ hopen r hr hkey hsent
  have hjoined : ∀ {x root}, Joined w₁ x root ↔ Joined w x root := by
    intro x root
    constructor
    · rintro ⟨r, hr, hsent, hrest⟩
      exact ⟨r, hsentRow r hr hsent, hsent, hrest⟩
    · rintro ⟨r, hr, hsent, hrest⟩
      exact ⟨r, hkept r hr hsent, hsent, hrest⟩
  have hsources : w₁.mappings.map MappingRow.source = w.mappings.map MappingRow.source :=
    map_updateMapping fun _ ↦ rfl
  have hmapped : ∀ {source}, w₁.mapped source = true ↔ w.mapped source = true := by
    intro source
    rw [mapped_iff, mapped_iff, hsources]
  -- what is not recorded was not, and has the same data
  have hopenRow : ∀ r ∈ w₁.mappings, r.deliveryStatus ≠ .sent → ∃ q ∈ w.mappings,
      q.deliveryStatus ≠ .sent ∧ (r = q ∨ r = q.setStatus status) := by
    intro r hr hsent
    obtain ⟨q, hq, rfl | ⟨rfl, hq'⟩⟩ := hrow r hr
    · exact ⟨r, hq, hsent, .inl rfl⟩
    · exact ⟨q, hq, hq', .inr rfl⟩
  have hquiet : ∀ {source t}, Quiet w source t → Quiet w₁ source t := by
    rintro source t ⟨hrows, hrelays, htopics⟩
    refine ⟨fun r hr hsent ht ↦ ?_, fun e he ht ↦ ?_, fun r hr hsent ↦ ?_⟩
    · obtain ⟨q, hq, hq', rfl | rfl⟩ := hopenRow r hr hsent
      · exact hrows r hq hq' ht
      · exact hrows q hq hq' ht
    · rcases hrelays e he ht with hm | hsource
      · exact .inl (hmapped.2 hm)
      · exact .inr hsource
    · obtain ⟨q, hq, hq', rfl | rfl⟩ := hopenRow r hr hsent
      · exact htopics r hq hq'
      · exact htopics q hq hq'
  have halone : ∀ {source t}, Alone w source t → Alone w₁ source t :=
    fun ⟨hnot, hq⟩ ↦ ⟨fun root hroot ↦ hnot root (hjoined.1 hroot), hquiet hq⟩
  have hkeysKept : ∀ p ∈ w.outbox, ∃ o ∈ w₁.outbox, o.dedupeKey = p.dedupeKey := by
    intro p hp
    obtain ⟨o, ho, hkey', -⟩ := mem_setOutbox hp
    exact ⟨o, ho, hkey'⟩
  refine ⟨hloopless, h.platforms.same rfl rfl, ?_, h.memory.grow hgrows rfl rfl hkeysKept, ?_⟩
  · constructor
    · have hkeys : w₁.mappings.map MappingRow.dedupeKey = w.mappings.map MappingRow.dedupeKey :=
        map_updateMapping fun _ ↦ rfl
      rw [hkeys]
      exact h.rows.keys
    · intro r hr
      obtain ⟨q, hq, rfl | ⟨rfl, -⟩⟩ := hrow r hr
      · exact h.rows.sourced r hq
      · exact h.rows.sourced q hq
    · exact h.rows.relays
    · intro r hr hsent o ho hkey
      obtain ⟨p, hp, hpkey, hpayload, -⟩ := setOutbox_row ho
      rw [hpayload]
      rw [hpkey] at hkey
      obtain ⟨q, hq, hq', rfl | rfl⟩ := hopenRow r hr hsent
      · exact h.rows.carries r hq hq' p hp hkey
      · exact h.rows.carries q hq hq' p hp hkey
    · exact fun r hr hsent ↦ h.rows.landed r (hsentRow r hr hsent) hsent
    · intro o ho hdead
      obtain ⟨p, hp, hpkey, -, ⟨hpstatus, -⟩ | ⟨hpstatus, hpkey'⟩⟩ := setOutbox_row ho
      · rw [hpkey]
        obtain ⟨hnone, hnot⟩ := h.rows.dead p hp (hpstatus ▸ hdead)
        exact ⟨hnone, fun r hr hkey hsent ↦ hnot r (hsentRow r hr hsent) hkey hsent⟩
      · rw [hpkey, hpkey']
        refine ⟨hforgotten (hpstatus ▸ hdead), fun r hr hkey hsent ↦ ?_⟩
        exact hopen r (hsentRow r hr hsent) hkey hsent
    · intro key' d hd
      obtain ⟨p, hp, hpkey, hrem⟩ := h.rows.delivered key' d hd
      obtain ⟨o, ho, hokey, hpayload⟩ := mem_setOutbox hp
      exact ⟨o, ho, hokey.trans hpkey, hpayload ▸ hgrows.remembers (fun _ ht ↦ ht) hrem⟩
  · constructor
    · exact ⟨fun h₁ h₂ ↦ h.paired.oneToOne.right (hjoined.1 h₁) (hjoined.1 h₂),
        fun h₁ h₂ ↦ h.paired.oneToOne.left (hjoined.1 h₁) (hjoined.1 h₂)⟩
    · intro r hr hsent root hroot
      obtain ⟨c, hc, hcsent, hrest⟩ := h.paired.rootRow r (hsentRow r hr hsent) hsent root hroot
      exact ⟨c, hkept c hc hcsent, hcsent, hrest⟩
    · intro r hr hsent root hroot
      rw [hjoined]
      obtain ⟨q, hq, hq', rfl | rfl⟩ := hopenRow r hr hsent
      · exact h.paired.partner r hq hq' root hroot
      · exact h.paired.partner q hq hq' root hroot
    · exact fun e he root hroot ↦ hjoined.2 (h.paired.relayPartner e he root hroot)
    · intro r hr hsent t ht
      obtain ⟨q, hq, hq', rfl | rfl⟩ := hopenRow r hr hsent
      · exact halone (h.paired.alone r hq hq' t ht)
      · exact halone (h.paired.alone q hq hq' t ht)
    · intro e he t ht
      rcases h.paired.relayAlone e he t ht with hm | ha
      · exact .inl (hmapped.2 hm)
      · exact .inr (halone ha)
    · intro r hr hsent t ht root hroot
      obtain ⟨q, hq, hq', rfl | rfl⟩ := hopenRow r hr hsent
      · exact h.paired.newTopic r hq hq' t ht root (hjoined.1 hroot)
      · exact h.paired.newTopic q hq hq' t ht root (hjoined.1 hroot)
    · intro r hr hsent id hd c hc hcsent
      obtain ⟨q, hq, hq', rfl | rfl⟩ := hopenRow r hr hsent
      · exact h.paired.newPost r hq hq' id hd c (hsentRow c hc hcsent) hcsent
      · exact h.paired.newPost q hq hq' id hd c (hsentRow c hc hcsent) hcsent

/-! ## Deliveries that are recorded -/

/-- What the record of its delivery makes of a row. -/
structure Completes (w : World) (key : String) (d : Delivered) (q r : MappingRow) : Prop where
  source : r.source = q.source
  dedupeKey : r.dedupeKey = q.dedupeKey
  rootPost : r.mmRootPostId = q.mmRootPostId
  sent : r.deliveryStatus = .sent
  landed : Landed w r
  post : ∀ id, q.source = .post id → r.mmPostId = some id
  messageId : q.source.platform = .telegram → r.tgMessageId = q.tgMessageId
  message : q.source.platform = .telegram →
    ∃ id, d = .post id ∧ r.mmPostId = some id ∧ BridgePost w id ∧ r.tgThreadId = q.tgThreadId
  reply : q.mmRootPostId ≠ none → r.tgThreadId = q.tgThreadId
  topic : q.mmRootPostId = none → q.source.platform = .mattermost →
    ∃ t, w.topics key = some t ∧ r.tgThreadId = some t

theorem Completes.sourced (hc : Completes w key d q r) (hq : Sourced w q) : Sourced w r := by
  unfold Sourced at hq ⊢
  rw [hc.source, hc.rootPost]
  cases hsource : q.source with
  | post id =>
    rw [hsource] at hq
    exact ⟨hc.post id hsource, hq.2⟩
  | message =>
    rw [hsource] at hq
    obtain ⟨-, -, -, -, hthread⟩ := hc.message (by rw [hsource]; rfl)
    rw [hthread, hc.messageId (by rw [hsource]; rfl)]
    exact hq

theorem threadFor_eq {threadId : Option ℕ} {topic : Option String} {x : Option ℕ}
    (h : w.threadFor key threadId topic = some x) :
    (x = threadId ∧ (threadId ≠ none ∨ topic = none)) ∨
      ∃ t, threadId = none ∧ w.topics key = some t ∧ x = some t := by
  unfold World.threadFor at h
  split at h
  · exact .inl ⟨(some.inj h).symm, .inl (some_ne_none _)⟩
  · exact .inl ⟨(some.inj h).symm, .inr rfl⟩
  · obtain ⟨t, ht, rfl⟩ := map_eq_some_iff.1 h
    exact .inr ⟨t, rfl, ht, rfl⟩

theorem Rows.completes (h : Rows w) (hd : w.delivered key = some d) (hq : q ∈ w.mappings)
    (hkey : q.dedupeKey = key) (hopen : q.deliveryStatus ≠ .sent) :
    Completes w key d q (q.complete d) := by
  obtain ⟨o, ho, hokey, hrem⟩ := h.delivered key d hd
  have hcarries := h.carries q hq hopen o ho (hokey.trans hkey.symm)
  have hsourced := h.sourced q hq
  cases hpayload : o.payload with
  | telegramSend _ _ _ _ topic =>
    rw [hpayload] at hcarries hrem
    obtain ⟨hplatform, hthread, hroot, hreply⟩ := hcarries
    cases d with
    | post => exact hrem.elim
    | message x messageId =>
      have hcomplete : q.complete (.message x messageId) =
        { q with
          destinationMessageId := some (toString messageId)
          tgMessageId := some messageId
          tgThreadId := x.or q.tgThreadId
          deliveryStatus := .sent } := if_neg hopen
      rw [hcomplete]
      obtain ⟨hmessage, hx⟩ := hrem
      obtain ⟨id, hsource⟩ : ∃ id, q.source = .post id := by
        cases hs : q.source with
        | post id => exact ⟨id, rfl⟩
        | message =>
          rw [hs] at hplatform
          cases hplatform
      have hpost : q.mmPostId = some id ∧ HasPost w id q.mmRootPostId := by
        unfold Sourced at hsourced
        rw [hsource] at hsourced
        exact hsourced
      -- the topic of the row is the topic of the message
      have hxor : x.or q.tgThreadId = x := by
        rcases threadFor_eq hx with ⟨rfl, -⟩ | ⟨t, -, -, rfl⟩
        · rw [hthread]
          cases x <;> rfl
        · rfl
      refine ⟨rfl, rfl, rfl, rfl, ?_, ?_, ?_, ?_, ?_, ?_⟩
      · refine ⟨id, messageId, hpost.1, rfl, hpost.2, ?_, fun htelegram ↦ ?_⟩
        · rw [hxor]
          exact hmessage
        · rw [hplatform] at htelegram
          cases htelegram
      · intro id' hid'
        rw [hsource] at hid'
        rw [← Source.post.inj hid']
        exact hpost.1
      · intro htelegram
        rw [hplatform] at htelegram
        cases htelegram
      · intro htelegram
        rw [hplatform] at htelegram
        cases htelegram
      · intro hsome
        rw [hxor, hthread]
        rcases threadFor_eq hx with ⟨hx, -⟩ | ⟨t, hnone, -, -⟩
        · exact hx
        · rw [hreply hsome, hnone] at hx
          rw [hnone]
          exact (some.inj hx).symm
      · intro hnone _
        obtain ⟨hthreadNone, htopic⟩ := hroot hnone
        rw [hxor]
        rcases threadFor_eq hx with ⟨-, hne | hno⟩ | ⟨t, -, ht, hxt⟩
        · exact absurd hthreadNone hne
        · exact absurd hno htopic
        · exact ⟨t, ht, hxt⟩
  | mattermostPost _ message =>
    rw [hpayload] at hcarries hrem
    obtain ⟨hplatform, hroot⟩ := hcarries
    cases d with
    | message => exact hrem.elim
    | post postId =>
      have hcomplete : q.complete (.post postId) =
        { q with
          destinationMessageId := some postId
          mmPostId := some postId
          deliveryStatus := .sent } := if_neg hopen
      rw [hcomplete]
      obtain ⟨hpost, hbridge⟩ := hrem
      obtain ⟨id, hsource⟩ : ∃ id, q.source = .message id := by
        cases hs : q.source with
        | message id => exact ⟨id, rfl⟩
        | post =>
          rw [hs] at hplatform
          cases hplatform
      have hmessage : q.tgMessageId = some id ∧ HasMessage w id q.tgThreadId := by
        unfold Sourced at hsourced
        rw [hsource] at hsourced
        exact hsourced
      refine ⟨rfl, rfl, rfl, rfl, ?_, ?_, ?_, ?_, ?_, ?_⟩
      · exact ⟨postId, id, rfl, hmessage.1, hroot ▸ hpost, hmessage.2, fun _ ↦ hbridge⟩
      · intro id' hid'
        rw [hsource] at hid'
        cases hid'
      · exact fun _ ↦ rfl
      · exact fun _ ↦ ⟨postId, rfl, rfl, hbridge, rfl⟩
      · exact fun _ ↦ rfl
      · intro _ hmattermost
        rw [hplatform] at hmattermost
        cases hmattermost

theorem not_bridgePost (h : Loopless s w) {id : String} (hwritten : Written w (.post id)) :
    ¬BridgePost w id := by
  rintro ⟨p, hp, hid, hbridge⟩
  obtain ⟨q, hq, hqid, hperson⟩ := hwritten
  rw [List.inj_on_of_nodup_map h.marked.postIds hq hp (hqid.trans hid.symm), hbridge] at hperson
  cases hperson

theorem Remembers.bridgePost {id : String} {payload : Payload}
    (h : Remembers w key payload (.post id)) : BridgePost w id := by
  cases payload with
  | telegramSend => exact h.elim
  | mattermostPost => exact h.2

theorem eq_of_source (h : Loopless s w) (hq : q ∈ w.mappings) (hr : r ∈ w.mappings)
    (hsource : q.source = r.source) : q = r :=
  List.inj_on_of_nodup_map h.relayed.sources hq hr hsource

theorem eq_of_key (h : Rows w) (hq : q ∈ w.mappings) (hr : r ∈ w.mappings)
    (hkey : q.dedupeKey = r.dedupeKey) : q = r :=
  List.inj_on_of_nodup_map h.keys hq hr hkey

theorem Completes.topicOf (hc : Completes w key d q r) (hkey : q.dedupeKey = key)
    (ht : r.tgThreadId = some t) : (∃ root, q.mmRootPostId = some root ∧ q.tgThreadId = some t) ∨
      w.topics q.dedupeKey = some t ∨ q.NewRoot t := by
  cases hroot : q.mmRootPostId with
  | some root =>
    have hreply := hc.reply (by rw [hroot]; exact some_ne_none _)
    exact .inl ⟨root, rfl, hreply.symm.trans ht⟩
  | none =>
    cases hplatform : q.source.platform with
    | mattermost =>
      obtain ⟨t', ht', hthread⟩ := hc.topic hroot hplatform
      rw [ht] at hthread
      rw [hkey, some.inj hthread]
      exact .inr (.inl ht')
    | telegram =>
      obtain ⟨id, -, -, -, hthread⟩ := hc.message hplatform
      exact .inr (.inr ⟨hplatform, hroot, hthread.symm.trans ht⟩)

theorem Threaded.newPair (h : Threaded s w) {root : String} (hc : Completes w key d q r)
    (hd : w.delivered key = some d) (hq : q ∈ w.mappings) (hkey : q.dedupeKey = key)
    (hopen : q.deliveryStatus ≠ .sent) (hroot : r.root = some root) :
    Joined w r.tgThreadId root ∨ (∀ y, ¬Joined w y root) ∧
      ∀ t, r.tgThreadId = some t → ∀ c, ¬Joined w (some t) c := by
  subst hkey
  cases hq' : q.mmRootPostId with
  | some root' =>
    -- a reply belongs to the thread that it was routed by
    have hreply := hc.reply (by rw [hq']; exact some_ne_none _)
    have heq : root' = root := by
      rw [MappingRow.root, hc.rootPost, hq'] at hroot
      exact some.inj hroot
    subst heq
    rw [hreply]
    exact .inl (h.paired.partner q hq hopen root' hq')
  | none =>
    rw [MappingRow.root, hc.rootPost, hq', none_or] at hroot
    right
    constructor
    · rintro y ⟨c₀, hc₀, hsent₀, -, hroot₀⟩
      obtain ⟨c, hmem, hsent, hnone, hpost, -⟩ := h.paired.rootRow c₀ hc₀ hsent₀ root hroot₀
      cases hsource : q.source with
      | post id =>
        have hid := hc.post id hsource
        rw [hroot] at hid
        obtain rfl := some.inj hid
        have hwritten := (h.loopless.relayed.mappings q hq).1
        rw [hsource] at hwritten
        -- the row of the root was written by its author, or by the bridge
        cases hsource' : c.source with
        | post =>
          have hsourced := h.rows.sourced c hmem
          rw [Sourced, hsource'] at hsourced
          have heq := hsourced.1
          rw [hpost] at heq
          have hsame : c.source = q.source := by rw [hsource', hsource, some.inj heq]
          rw [eq_of_source h.loopless hmem hq hsame] at hsent
          exact hopen hsent
        | message =>
          obtain ⟨postId, messageId, hp, -, -, -, hbridge⟩ := h.rows.landed c hmem hsent
          rw [hpost] at hp
          obtain rfl := some.inj hp
          exact not_bridgePost h.loopless hwritten (hbridge (by rw [hsource']; rfl))
      | message =>
        obtain ⟨id', rfl, hid', -, -⟩ := hc.message (by rw [hsource]; rfl)
        rw [hroot] at hid'
        obtain rfl := some.inj hid'
        exact h.paired.newPost q hq hopen root hd c hmem hsent hpost
    · intro t ht root'
      rcases hc.topicOf rfl ht with ⟨root'', hsome, -⟩ | htopic | hnew
      · rw [hq'] at hsome
        cases hsome
      · exact h.paired.newTopic q hq hopen t htopic root'
      · exact (h.paired.alone q hq hopen t hnew).1 root'

theorem Threaded.other_topic (h : Threaded s w) (hc : Completes w key d q r) (hq : q ∈ w.mappings)
    (hkey : q.dedupeKey = key) (hopen : q.deliveryStatus ≠ .sent) (halone : Alone w source t)
    (hne : q.source ≠ source) : r.tgThreadId ≠ some t := by
  intro ht
  obtain ⟨hnot, hrows, -, htopics⟩ := halone
  rcases hc.topicOf hkey ht with ⟨root, hroot, hthread⟩ | htopic | hnew
  · have hjoined := h.paired.partner q hq hopen root hroot
    rw [hthread] at hjoined
    exact hnot root hjoined
  · exact htopics q hq hopen htopic
  · exact hne (hrows q hq hopen hnew)

theorem complete_sent (h : r.deliveryStatus = .sent) : r.complete d = r := if_pos h

theorem Threaded.recorded (h : Threaded s w) {key : String} {d : Delivered} {rows : List OutboxRow}
    (hd : w.delivered key = some d)
    (hloopless : Loopless s w')
    (houtbox : ∀ o ∈ rows, ∃ p ∈ w.outbox, o.dedupeKey = p.dedupeKey ∧ o.payload = p.payload ∧
      (o.status = .dead → p.status = .dead))
    (houtbox' : ∀ p ∈ w.outbox, ∃ o ∈ rows, o.dedupeKey = p.dedupeKey ∧ o.payload = p.payload)
    (hw : w' = { w with
      outbox := rows
      mappings := updateMapping w.mappings key (MappingRow.complete d) }) : Threaded s w' := by
  subst hw
  set w₁ : World := { w with
      outbox := rows
      mappings := updateMapping w.mappings key (MappingRow.complete d) } with hw₁
  have hgrows : Grows w w₁ := .of_eq rfl rfl
  -- a row is as it was, or its delivery is recorded now
  have hrow : ∀ r ∈ w₁.mappings, (r ∈ w.mappings ∧ (r.deliveryStatus = .sent ∨ r.dedupeKey ≠ key)) ∨
        ∃ q ∈ w.mappings, q.dedupeKey = key ∧ q.deliveryStatus ≠ .sent ∧ Completes w key d q r := by
    intro r hr
    obtain ⟨q, hq, ⟨rfl, hkey⟩ | ⟨rfl, hkey⟩⟩ := update_row hr
    · exact .inl ⟨hq, .inr hkey⟩
    · by_cases hsent : q.deliveryStatus = .sent
      · rw [complete_sent hsent]
        exact .inl ⟨hq, .inl hsent⟩
      · exact .inr ⟨q, hq, hkey, hsent, h.rows.completes hd hq hkey hsent⟩
  have hopenRow : ∀ r ∈ w₁.mappings, r.deliveryStatus ≠ .sent →
      r ∈ w.mappings ∧ r.dedupeKey ≠ key := by
    intro r hr hsent
    rcases hrow r hr with ⟨hmem, hr' | hkey⟩ | ⟨q, hq, hkey, hopen, hc⟩
    · exact absurd hr' hsent
    · exact ⟨hmem, hkey⟩
    · exact absurd hc.sent hsent
  have hkept : ∀ r ∈ w.mappings, r.deliveryStatus = .sent → r ∈ w₁.mappings := by
    intro r hr hsent
    by_cases hkey : r.dedupeKey = key
    · exact List.mem_map.2 ⟨r, hr, by rw [if_pos hkey, complete_sent hsent]⟩
    · exact mem_update_of_ne hr hkey
  have hsources : w₁.mappings.map MappingRow.source = w.mappings.map MappingRow.source :=
    map_updateMapping fun r ↦ (source_complete d r).1
  have hmapped : ∀ {source}, w₁.mapped source = true ↔ w.mapped source = true := by
    intro source
    rw [mapped_iff, mapped_iff, hsources]
  have hjoined : ∀ {x root}, Joined w x root → Joined w₁ x root := by
    rintro x root ⟨r, hr, hsent, hrest⟩
    exact ⟨r, hkept r hr hsent, hsent, hrest⟩
  have hjoined' : ∀ {x root}, Joined w₁ x root → Joined w x root ∨
      ∃ q ∈ w.mappings, ∃ r, q.dedupeKey = key ∧ q.deliveryStatus ≠ .sent ∧
        Completes w key d q r ∧ r = q.complete d ∧ x = r.tgThreadId ∧ r.root = some root := by
    rintro x root ⟨r, hr, hsent, rfl, hroot⟩
    obtain ⟨q, hq, ⟨rfl, hkey⟩ | ⟨rfl, hkey⟩⟩ := update_row hr
    · exact .inl ⟨r, hq, hsent, rfl, hroot⟩
    · by_cases hq' : q.deliveryStatus = .sent
      · rw [complete_sent hq'] at hroot ⊢
        exact .inl ⟨q, hq, hq', rfl, hroot⟩
      · exact .inr ⟨q, hq, _, hkey, hq', h.rows.completes hd hq hkey hq', rfl, rfl, hroot⟩
  have hquiet : ∀ {source t}, Quiet w source t → Quiet w₁ source t := by
    rintro source t ⟨hrows, hrelays, htopics⟩
    refine ⟨fun r hr hsent ht ↦ ?_, fun e he ht ↦ ?_, fun r hr hsent ↦ ?_⟩
    · exact hrows r (hopenRow r hr hsent).1 hsent ht
    · rcases hrelays e he ht with hm | hsource
      · exact .inl (hmapped.2 hm)
      · exact .inr hsource
    · exact htopics r (hopenRow r hr hsent).1 hsent
  -- what is recorded now has another source than what is alone with its topic
  have halone : ∀ {source t}, Alone w source t →
      (∀ q ∈ w.mappings, q.dedupeKey = key → q.deliveryStatus ≠ .sent → q.source ≠ source) →
        Alone w₁ source t := by
    intro source t ha hne
    refine ⟨fun root hroot ↦ ?_, hquiet ha.2⟩
    rcases hjoined' hroot with hold | ⟨q, hq, r, hkey, hopen, hc, -, ht, -⟩
    · exact ha.1 root hold
    · exact h.other_topic hc hq hkey hopen ha (hne q hq hkey hopen) ht.symm
  have hkeysKept : ∀ p ∈ w.outbox, ∃ o ∈ w₁.outbox, o.dedupeKey = p.dedupeKey := by
    intro p hp
    obtain ⟨o, ho, hkey', -⟩ := houtbox' p hp
    exact ⟨o, ho, hkey'⟩
  refine ⟨hloopless, h.platforms.same rfl rfl, ?_, h.memory.grow hgrows rfl rfl hkeysKept, ?_⟩
  · constructor
    · have hkeys : w₁.mappings.map MappingRow.dedupeKey = w.mappings.map MappingRow.dedupeKey :=
        map_updateMapping fun r ↦ (source_complete d r).2
      rw [hkeys]
      exact h.rows.keys
    · intro r hr
      rcases hrow r hr with ⟨hmem, -⟩ | ⟨q, hq, -, -, hc⟩
      · exact h.rows.sourced r hmem
      · exact hc.sourced (h.rows.sourced q hq)
    · exact h.rows.relays
    · intro r hr hsent o ho hkey
      obtain ⟨p, hp, hpkey, hpayload, -⟩ := houtbox o ho
      rw [hpayload]
      exact h.rows.carries r (hopenRow r hr hsent).1 hsent p hp (hpkey.symm.trans hkey)
    · intro r hr hsent
      rcases hrow r hr with ⟨hmem, -⟩ | ⟨q, hq, -, -, hc⟩
      · exact h.rows.landed r hmem hsent
      · exact hc.landed
    · intro o ho hdead
      obtain ⟨p, hp, hpkey, -, hpdead⟩ := houtbox o ho
      obtain ⟨hnone, hnot⟩ := h.rows.dead p hp (hpdead hdead)
      rw [hpkey]
      refine ⟨hnone, fun r hr hkey hsent ↦ ?_⟩
      rcases hrow r hr with ⟨hmem, -⟩ | ⟨q, hq, hqkey, -, hc⟩
      · exact hnot r hmem hkey hsent
      · -- a delivery that is given up is not in the memory
        rw [hc.dedupeKey, hqkey] at hkey
        rw [← hkey, hd] at hnone
        cases hnone
    · intro key' d' hd'
      obtain ⟨p, hp, hpkey, hrem⟩ := h.rows.delivered key' d' hd'
      obtain ⟨o, ho, hokey, hpayload⟩ := houtbox' p hp
      exact ⟨o, ho, hokey.trans hpkey, hpayload ▸ hgrows.remembers (fun _ ht ↦ ht) hrem⟩
  · constructor
    · by_cases hex : ∃ q ∈ w.mappings, q.dedupeKey = key ∧ q.deliveryStatus ≠ .sent
      · obtain ⟨q, hq, hkey, hopen⟩ := hex
        have hc := h.rows.completes hd hq hkey hopen
        obtain ⟨postId, messageId, hpost, -⟩ := hc.landed
        obtain ⟨root, hroot⟩ : ∃ root, (q.complete d).root = some root := by
          rw [MappingRow.root, hpost]
          cases (q.complete d).mmRootPostId with
          | none => exact ⟨postId, rfl⟩
          | some root => exact ⟨root, rfl⟩
        have hJ : ∀ {y c}, Joined w₁ y c →
            Joined w y c ∨ y = (q.complete d).tgThreadId ∧ c = root := by
          intro y c hyc
          rcases hjoined' hyc with hold | ⟨q', hq', r, hkey', -, -, rfl, hy, hroot'⟩
          · exact .inl hold
          · obtain rfl := eq_of_key h.rows hq' hq (hkey'.trans hkey.symm)
            rw [hroot] at hroot'
            exact .inr ⟨hy, (some.inj hroot').symm⟩
        rcases h.newPair hc hd hq hkey hopen hroot with hold | ⟨hnew, hnew'⟩
        · exact h.paired.oneToOne.add_old hold hJ
        · exact h.paired.oneToOne.add_new hnew hnew' hJ
      · have hsub : ∀ {y c}, Joined w₁ y c → Joined w y c := by
          intro y c hyc
          rcases hjoined' hyc with hold | ⟨q, hq, r, hkey, hopen, -⟩
          · exact hold
          · exact absurd ⟨q, hq, hkey, hopen⟩ hex
        exact ⟨fun h₁ h₂ ↦ h.paired.oneToOne.right (hsub h₁) (hsub h₂),
          fun h₁ h₂ ↦ h.paired.oneToOne.left (hsub h₁) (hsub h₂)⟩
    · intro r hr hsent root hroot
      rcases hrow r hr with ⟨hmem, -⟩ | ⟨q, hq, hkey, hopen, hc⟩
      · obtain ⟨c, hc, hcsent, hrest⟩ := h.paired.rootRow r hmem hsent root hroot
        exact ⟨c, hkept c hc hcsent, hcsent, hrest⟩
      · cases hq' : q.mmRootPostId with
        | none =>
          rw [MappingRow.root, hc.rootPost, hq', none_or] at hroot
          exact ⟨r, hr, hsent, hc.rootPost.trans hq', hroot, rfl⟩
        | some root' =>
          have hreply := hc.reply (by rw [hq']; exact some_ne_none _)
          rw [MappingRow.root, hc.rootPost, hq'] at hroot
          obtain rfl : root' = root := some.inj hroot
          obtain ⟨p, hp, hpsent, hthread, hproot⟩ := h.paired.partner q hq hopen root' hq'
          obtain ⟨c, hc', hcsent, hnone, hpost, hcthread⟩ :=
            h.paired.rootRow p hp hpsent root' hproot
          exact ⟨c, hkept c hc' hcsent, hcsent, hnone, hpost,
            hcthread.trans (hthread.trans hreply.symm)⟩
    · intro r hr hsent root hroot
      exact hjoined (h.paired.partner r (hopenRow r hr hsent).1 hsent root hroot)
    · exact fun e he root hroot ↦ hjoined (h.paired.relayPartner e he root hroot)
    · intro r hr hsent t ht
      obtain ⟨hmem, hne⟩ := hopenRow r hr hsent
      refine halone (h.paired.alone r hmem hsent t ht) fun q hq hkey hopen hsource ↦ ?_
      exact hne (eq_of_source h.loopless hq hmem hsource ▸ hkey)
    · intro e he t ht
      by_cases hm : w.mapped e.2.mapping.source = true
      · exact .inl (hmapped.2 hm)
      rcases h.paired.relayAlone e he t ht with hm' | ha
      · exact absurd hm' hm
      · refine .inr (halone ha fun q hq hkey hopen hsource ↦ hm ?_)
        rw [mapped_iff, ← hsource]
        exact List.mem_map_of_mem hq
    · intro r hr hsent t ht root hroot
      obtain ⟨hmem, hne⟩ := hopenRow r hr hsent
      have hnot := h.paired.newTopic r hmem hsent t ht
      rcases hjoined' hroot with hold | ⟨q, hq, r', hkey, hopen, hc, -, hthread, -⟩
      · exact hnot root hold
      · rcases hc.topicOf hkey hthread.symm with ⟨root', hroot', hq'⟩ | htopic | hnew
        · have hold := h.paired.partner q hq hopen root' hroot'
          rw [hq'] at hold
          exact hnot root' hold
        · exact hne (((h.memory.topics _ _ t htopic ht).symm).trans hkey)
        · exact (h.paired.alone q hq hopen t hnew).2.2.2 r hmem hsent ht
    · intro r hr hsent id hid c hc' hcsent hpost
      obtain ⟨hmem, hne⟩ := hopenRow r hr hsent
      rcases hrow c hc' with ⟨hcmem, -⟩ | ⟨q, hq, hkey, hopen, hc⟩
      · exact h.paired.newPost r hmem hsent id hid c hcmem hcsent hpost
      · cases hsource : q.source with
        | post id' =>
          have hid' := hc.post id' hsource
          rw [hpost] at hid'
          obtain rfl := some.inj hid'
          have hwritten := (h.loopless.relayed.mappings q hq).1
          rw [hsource] at hwritten
          obtain ⟨o, -, -, hrem⟩ := h.rows.delivered r.dedupeKey _ hid
          exact not_bridgePost h.loopless hwritten hrem.bridgePost
        | message =>
          obtain ⟨id'', rfl, hid'', -, -⟩ := hc.message (by rw [hsource]; rfl)
          rw [hpost] at hid''
          obtain rfl := some.inj hid''
          exact hne (h.memory.posts _ _ id hid hd)

end

end AgentColab.Bridge
