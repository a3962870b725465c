import AgentColab.Bridge.Loss
import AgentColab.Bridge.Recorded

/-!
# What is routed

A reply is routed by a recorded row. On Mattermost that is the row of its root, and on Telegram the
row of the message that it replies to or of the root of its topic. What is relayed waits for its
commit, and then for its delivery.
-/

namespace AgentColab.Bridge

open List Option

section

variable {s : Setting} {w w' : World}

/-! ## Transactions that commit -/

variable {i : ℕ} {r : Relay} {existing : List Mapping} {m : Message} {mapped : Bool} {kind : String}
    {p : Post}

theorem Threaded.commit (h : Threaded s w) (hr : (i, r) ∈ w.relays)
    (hconflict : ¬w.Conflicts r.mapping)
    (hloopless : Loopless s ((w.insert r).ended i r.mapping.source)) :
    Threaded s ((w.insert r).ended i r.mapping.source) := by
  obtain ⟨-, hkeys, -⟩ := h.loopless.relayed.relays _ hr
  obtain ⟨hsourced, hcarries, hpending, hpending'⟩ := h.rows.relays _ hr
  dsimp only at hkeys hsourced hcarries hpending hpending'
  have hnew := not_conflicts hconflict
  have hnewKey : ∀ o ∈ w.outbox, o.dedupeKey ≠ r.mapping.dedupeKey :=
    fun o ho heq ↦ h.loopless.relayed.newKey hkeys hconflict ⟨o, ho, heq.trans hkeys.symm⟩
  have hinsert := h.loopless.relayed.insert_outbox hkeys hconflict
  have hunmapped : w.mapped r.mapping.source ≠ true := by
    rw [Ne, mapped_iff]
    intro hmem
    obtain ⟨q, hq, hsource⟩ := List.mem_map.1 hmem
    exact (hnew q hq).1 hsource
  set w₁ := (w.insert r).ended i r.mapping.source with hw₁
  have houtbox : w₁.outbox = w.outbox ++ [r.outbox] := hinsert
  have hgrows : Grows w w₁ := .of_eq rfl rfl
  have hold : ∀ q ∈ w.mappings, q ∈ w₁.mappings := fun q hq ↦ mem_append_left _ hq
  have hrow : ∀ q ∈ w₁.mappings, q ∈ w.mappings ∨ q = r.mapping := by
    intro q hq
    rcases mem_append.1 hq with hq | hq
    · exact .inl hq
    · exact .inr (mem_singleton.1 hq)
  have hsentRow : ∀ q ∈ w₁.mappings, q.deliveryStatus = .sent → q ∈ w.mappings := by
    intro q hq hsent
    rcases hrow q hq with hq | rfl
    · exact hq
    · rw [hpending] at hsent
      cases hsent
  have houtboxRow : ∀ o ∈ w₁.outbox, o ∈ w.outbox ∨ o = r.outbox := by
    intro o ho
    rw [houtbox] at ho
    rcases mem_append.1 ho with ho | ho
    · exact .inl ho
    · exact .inr (mem_singleton.1 ho)
  have houtboxOld : ∀ o ∈ w.outbox, o ∈ w₁.outbox :=
    fun o ho ↦ houtbox ▸ mem_append_left _ ho
  -- the memory does not know the new key
  have htopic : ∀ t, w.topics r.mapping.dedupeKey ≠ some t := by
    intro t ht
    obtain ⟨o, ho, hkey⟩ := h.memory.rows _ t ht
    exact hnewKey o ho hkey
  have hdelivered : ∀ d, w.delivered r.mapping.dedupeKey ≠ some d := by
    intro d hd
    obtain ⟨o, ho, hkey, -⟩ := h.rows.delivered _ d hd
    exact hnewKey o ho hkey
  have hjoined : ∀ {x root}, Joined w₁ x root ↔ Joined w x root := by
    intro x root
    constructor
    · rintro ⟨q, hq, hsent, hrest⟩
      exact ⟨q, hsentRow q hq hsent, hsent, hrest⟩
    · rintro ⟨q, hq, hrest⟩
      exact ⟨q, hold q hq, hrest⟩
  have hmapped : ∀ {source}, w.mapped source = true → w₁.mapped source = true := by
    intro source hm
    rw [mapped_iff] at hm ⊢
    obtain ⟨q, hq, hsource⟩ := List.mem_map.1 hm
    exact List.mem_map.2 ⟨q, hold q hq, hsource⟩
  have hrelay : ∀ e ∈ w₁.relays, e ∈ w.relays := fun e he ↦ (mem_filter.1 he).1
  have hquiet : ∀ {source t}, Quiet w source t → Quiet w₁ source t := by
    rintro source t ⟨hrows, hrelays, htopics⟩
    refine ⟨fun q hq hsent ht ↦ ?_, fun e he ht ↦ ?_, fun q hq hsent ↦ ?_⟩
    · rcases hrow q hq with hq | rfl
      · exact hrows q hq hsent ht
      · rcases hrelays _ hr ht with hm | hsource
        · exact absurd hm hunmapped
        · exact hsource
    · rcases hrelays e (hrelay e he) ht with hm | hsource
      · exact .inl (hmapped hm)
      · exact .inr hsource
    · rcases hrow q hq with hq | rfl
      · exact htopics q hq hsent
      · exact htopic t
  have halone : ∀ {source t}, Alone w source t → Alone w₁ source t :=
    fun ⟨hnot, hq⟩ ↦ ⟨fun root hroot ↦ hnot root (hjoined.1 hroot), hquiet hq⟩
  refine ⟨hloopless, h.platforms.same rfl rfl, ?_,
    h.memory.grow hgrows rfl rfl fun o ho ↦ ⟨o, houtboxOld o ho, rfl⟩, ?_⟩
  · constructor
    · have hmappings : w₁.mappings = w.mappings ++ [r.mapping] := rfl
      rw [hmappings, map_append, nodup_append]
      refine ⟨h.rows.keys, by simp, fun x hx y hy ↦ ?_⟩
      obtain ⟨q, hq, rfl⟩ := List.mem_map.1 hx
      obtain rfl : y = r.mapping.dedupeKey := by simpa using hy
      exact (hnew q hq).2
    · intro q hq
      rcases hrow q hq with hq | rfl
      · exact h.rows.sourced q hq
      · exact hsourced
    · exact fun e he ↦ h.rows.relays e (hrelay e he)
    · intro q hq hsent o ho hkey
      rcases hrow q hq with hq | rfl
      · rcases houtboxRow o ho with ho | rfl
        · exact h.rows.carries q hq hsent o ho hkey
        · exact absurd (hkey.symm.trans hkeys) (hnew q hq).2
      · rcases houtboxRow o ho with ho | rfl
        · exact absurd hkey (hnewKey o ho)
        · exact hcarries
    · exact fun q hq hsent ↦ h.rows.landed q (hsentRow q hq hsent) hsent
    · intro o ho hdead
      rcases houtboxRow o ho with ho | rfl
      · obtain ⟨hnone, hnot⟩ := h.rows.dead o ho hdead
        exact ⟨hnone, fun q hq hkey hsent ↦ hnot q (hsentRow q hq hsent) hkey hsent⟩
      · rw [hpending'] at hdead
        cases hdead
    · intro key d hd
      obtain ⟨o, ho, hkey, hrem⟩ := h.rows.delivered key d hd
      exact ⟨o, houtboxOld o ho, hkey, hgrows.remembers (fun _ ht ↦ ht) hrem⟩
  · constructor
    · exact ⟨fun h₁ h₂ ↦ h.paired.oneToOne.right (hjoined.1 h₁) (hjoined.1 h₂),
        fun h₁ h₂ ↦ h.paired.oneToOne.left (hjoined.1 h₁) (hjoined.1 h₂)⟩
    · intro q hq hsent root hroot
      obtain ⟨c, hc, hrest⟩ := h.paired.rootRow q (hsentRow q hq hsent) hsent root hroot
      exact ⟨c, hold c hc, hrest⟩
    · intro q hq hsent root hroot
      rw [hjoined]
      rcases hrow q hq with hq | rfl
      · exact h.paired.partner q hq hsent root hroot
      · exact h.paired.relayPartner _ hr root hroot
    · exact fun e he root hroot ↦ hjoined.2 (h.paired.relayPartner e (hrelay e he) root hroot)
    · intro q hq hsent t ht
      rcases hrow q hq with hq | rfl
      · exact halone (h.paired.alone q hq hsent t ht)
      · rcases h.paired.relayAlone _ hr t ht with hm | ha
        · exact absurd hm hunmapped
        · exact halone ha
    · intro e he t ht
      rcases h.paired.relayAlone e (hrelay e he) t ht with hm | ha
      · exact .inl (hmapped hm)
      · exact .inr (halone ha)
    · intro q hq hsent t ht root hroot
      rcases hrow q hq with hq | rfl
      · exact h.paired.newTopic q hq hsent t ht root (hjoined.1 hroot)
      · exact absurd ht (htopic t)
    · intro q hq hsent id hid c hc hcsent
      rcases hrow q hq with hq | rfl
      · exact h.paired.newPost q hq hsent id hid c (hsentRow c hc hcsent) hcsent
      · exact absurd hid (hdelivered _)

/-! ## Observations -/

/-- A relayed message fits what is joined, and what is on its way. -/
structure Admitted (w : World) (r : Relay) : Prop where
  sourced : Sourced w r.mapping
  carries : Carries r.mapping r.outbox.payload
  pending : r.mapping.deliveryStatus = .pending ∧ r.outbox.status = .pending
  partner : ∀ root, r.mapping.mmRootPostId = some root → Joined w r.mapping.tgThreadId root
  alone : ∀ t, r.mapping.NewRoot t → Alone w r.mapping.source t

theorem Threaded.decided (h : Threaded s w) {source : Source} {owed : Bool}
    {outcome : Option (Except String Relay)}
    (hloopless : Loopless s (w.decided i source owed outcome))
    (hok : ∀ r, outcome = some (.ok r) → Admitted w r) :
    Threaded s (w.decided i source owed outcome) := by
  rcases outcome with _ | code | r
  · exact h
  · exact h.shrink hloopless (fun _ he ↦ he) rfl rfl rfl rfl rfl rfl
  have hr := hok r rfl
  set w₁ := w.decided i source owed (some (.ok r)) with hw₁
  have hrelay : ∀ e ∈ w₁.relays, e ∈ w.relays ∨ e.2 = r := by
    intro e he
    rcases mem_cons.1 he with rfl | he
    · exact .inr rfl
    · exact .inl he
  have hquiet : ∀ {source' t}, Quiet w source' t →
      (r.mapping.NewRoot t → r.mapping.source = source') → Quiet w₁ source' t := by
    rintro source' t ⟨hrows, hrelays, htopics⟩ hsame
    refine ⟨hrows, fun e he ht ↦ ?_, htopics⟩
    rcases hrelay e he with he | rfl
    · exact hrelays e he ht
    · exact .inr (hsame ht)
  -- the message itself is alone with the topic that it starts a thread for
  refine ⟨hloopless, h.platforms.same rfl rfl, ?_,
    h.memory.grow (.of_eq rfl rfl) rfl rfl fun o ho ↦ ⟨o, ho, rfl⟩, ?_⟩
  · refine ⟨h.rows.keys, h.rows.sourced, fun e he ↦ ?_, h.rows.carries, h.rows.landed,
      h.rows.dead, h.rows.delivered⟩
    rcases hrelay e he with he | rfl
    · exact h.rows.relays e he
    · exact ⟨hr.sourced, hr.carries, hr.pending⟩
  · refine ⟨h.paired.oneToOne, h.paired.rootRow, h.paired.partner, fun e he ↦ ?_,
      fun q hq hsent t ht ↦ ?_, fun e he t ht ↦ ?_, h.paired.newTopic, h.paired.newPost⟩
    · rcases hrelay e he with he | rfl
      · exact h.paired.relayPartner e he
      · exact hr.partner
    · obtain ⟨hnot, hq'⟩ := h.paired.alone q hq hsent t ht
      exact ⟨hnot, hquiet hq' fun hnew ↦ ((hr.alone t hnew).2.1 q hq hsent ht).symm⟩
    · rcases hrelay e he with he | rfl
      · rcases h.paired.relayAlone e he t ht with hm | ⟨hnot, hq'⟩
        · exact .inl hm
        by_cases hnew : r.mapping.NewRoot t
        · rcases (hr.alone t hnew).2.2.1 e he ht with hm | hsource
          · exact .inl hm
          · exact .inr ⟨hnot, hquiet hq' fun _ ↦ hsource.symm⟩
        · exact .inr ⟨hnot, hquiet hq' fun hnew' ↦ absurd hnew' hnew⟩
      · obtain ⟨hnot, hq'⟩ := hr.alone t ht
        exact .inr ⟨hnot, hquiet hq' fun _ ↦ rfl⟩

theorem mapping_root {r : MappingRow} {m : Mapping} (h : r.mapping = some m) :
    r.root = some m.root := by
  obtain ⟨-, hpost, -, hroot, -⟩ := mapping_eq h
  rw [MappingRow.root, Mapping.root, hpost, hroot]
  cases m.mmRootId <;> rfl

theorem joined_of_completed (hperm : existing.Perm (completedMappings w.mappings)) {m : Mapping}
    (hm : m ∈ existing) : Joined w m.tgThreadId m.root := by
  obtain ⟨r, hr, hmapping⟩ := mem_completed hperm hm
  obtain ⟨hsent, -, -, -, hthread, -⟩ := mapping_eq hmapping
  exact ⟨r, hr, hsent, hthread, mapping_root hmapping⟩

theorem completed_of_landed (hperm : existing.Perm (completedMappings w.mappings)) {r : MappingRow}
    (hr : r ∈ w.mappings) (hsent : r.deliveryStatus = .sent) (hlanded : Landed w r) :
    ∃ m ∈ existing, r.mapping = some m := by
  obtain ⟨postId, messageId, hpost, hmessage, -⟩ := hlanded
  have hmapping : ∃ m, r.mapping = some m := by
    unfold MappingRow.mapping
    rw [hsent, hpost, hmessage]
    exact ⟨_, rfl⟩
  obtain ⟨m, hm⟩ := hmapping
  exact ⟨m, hperm.mem_iff.2 (mem_filterMap.2 ⟨r, hr, hm⟩), hm⟩

theorem hasPost_unique (h : Loopless s w) {id : String} {x y : Option String}
    (hx : HasPost w id x) (hy : HasPost w id y) : x = y := by
  obtain ⟨p, hp, hpid, rfl⟩ := hx
  obtain ⟨q, hq, hqid, rfl⟩ := hy
  rw [inj_on_of_nodup_map h.marked.postIds hp hq (hpid.trans hqid.symm)]

theorem Threaded.joined_thread (h : Threaded s w)
    (hperm : existing.Perm (completedMappings w.mappings)) (hm : m ∈ w.messages)
    (hperson : m.author = .person) {root : String}
    (hroot : mattermostThread existing (messageEvent s.toService (m.inbound s)) = some root) :
    Joined w m.threadId root := by
  unfold mattermostThread at hroot
  split at hroot
  · rename_i replied hreplied
    obtain rfl := some.inj hroot
    obtain ⟨replyTo, hreply, hfind⟩ := bind_eq_some_iff.1 hreplied
    have hmem := mem_of_find?_eq_some hfind
    have hid : replied.tgMessageId = replyTo := by simpa using List.find?_some hfind
    -- the message that is replied to is of the same topic
    obtain ⟨r, hr, hmapping⟩ := mem_completed hperm hmem
    obtain ⟨hsent, -, hmessage, -, hthread, -⟩ := mapping_eq hmapping
    obtain ⟨postId, messageId, -, hmessage', -, ⟨q, hq, hqid, hqthread⟩, -⟩ :=
      h.rows.landed r hr hsent
    rw [hmessage] at hmessage'
    have hqid' : q.messageId = replyTo := by
      rw [hqid, ← hid]
      exact (some.inj hmessage').symm
    have hsame := h.platforms.replies m hm hperson replyTo hreply q hq hqid'
    have hjoined := joined_of_completed hperm hmem
    rwa [← hthread, ← hqthread, hsame] at hjoined
  · split at hroot
    · cases hroot
    · rename_i threadId hthread
      obtain ⟨c, hfind, rfl⟩ := map_eq_some_iff.1 hroot
      have hc : c.tgThreadId = some threadId ∧ c.mmRootId = none := by
        simpa using List.find?_some hfind
      have hjoined := joined_of_completed hperm (mem_of_find?_eq_some hfind)
      rw [hc.1, Mapping.root, hc.2] at hjoined
      have hthread' : m.threadId = some threadId := hthread
      rw [hthread']
      exact hjoined

theorem Threaded.not_joined_topic (h : Threaded s w)
    (hperm : existing.Perm (completedMappings w.mappings)) {t : ℕ} (ht : m.threadId = some t)
    (hnone : mattermostThread existing (messageEvent s.toService (m.inbound s)) = none)
    (root : String) : ¬Joined w (some t) root := by
  rintro ⟨r, hr, hsent, hthread, hroot⟩
  obtain ⟨c, hc, hcsent, hcroot, hcpost, hcthread⟩ := h.paired.rootRow r hr hsent root hroot
  obtain ⟨x, hx, hmapping⟩ := completed_of_landed hperm hc hcsent (h.rows.landed c hc hcsent)
  obtain ⟨-, -, -, hxroot, hxthread, -⟩ := mapping_eq hmapping
  unfold mattermostThread at hnone
  split at hnone
  · cases hnone
  · have hthread' : (messageEvent s.toService (m.inbound s)).tgThreadId = some t := ht
    rw [hthread'] at hnone
    have hfind := List.find?_eq_none.1 (map_eq_none_iff.1 hnone) x hx
    refine hfind (decide_eq_true ⟨?_, ?_⟩)
    · rw [← hxthread, hcthread, hthread]
    · rw [← hxroot, hcroot]

theorem relay_checked {redact : String → Redaction} {bridge : BridgeRow} {event : InboundEvent}
    {body : String} {attachments : List AttachmentMeta}
    (h : relay redact bridge existing mapped event body kind attachments = .ok r) :
    bridge.enabled = true ∧ checkLoop event = .ok () ∧ checkDirection bridge.config event = .ok () ∧
        contentAllowed bridge.contentPolicy kind = true := by
  unfold relay at h
  dsimp only at h
  split at h
  · cases h
  rename_i henabled
  split at h
  · cases h
  rename_i hloop
  split at h
  · cases h
  rename_i hdirection
  split_ifs at h with hduplicate hcontent
  exact ⟨by simpa using henabled, hloop, hdirection, by simpa using hcontent⟩

theorem onTelegramMessage_thread
    (h : onTelegramMessage s.toService existing mapped (m.inbound s) = some (.ok r)) :
    r.mapping.source = .message m.messageId ∧ r.mapping.tgMessageId = some m.messageId ∧
      r.mapping.tgThreadId = m.threadId ∧ r.mapping.mmRootPostId =
          mattermostThread existing (messageEvent s.toService (m.inbound s)) ∧
          Carries r.mapping r.outbox.payload ∧ r.mapping.deliveryStatus = .pending ∧
            r.outbox.status = .pending := by
  unfold onTelegramMessage at h
  split_ifs at h
  obtain ⟨-, target, textOut, htarget, hmapping, houtbox⟩ := relay_ok (some.inj h)
  rcases resolveTarget_ok htarget with ⟨id, hsource, -⟩ | ⟨id, -, hroute⟩
  · cases hsource
  unfold routeMessage at hroute
  split_ifs at hroute
  obtain rfl := Except.ok.inj hroute
  rw [hmapping, houtbox]
  exact ⟨rfl, rfl, rfl, rfl, ⟨rfl, rfl⟩, rfl, rfl⟩

theorem onTelegramMessage_owed
    (h : onTelegramMessage s.toService existing mapped (m.inbound s) = some (.ok r)) :
    w.Owed s (messageEvent s.toService (m.inbound s)) (messageKind (m.inbound s)) := by
  unfold onTelegramMessage at h
  split_ifs at h
  obtain ⟨henabled, hloop, hdirection, hcontent⟩ := relay_checked (some.inj h)
  exact ⟨henabled, hloop ▸ rfl, hdirection ▸ rfl, hcontent, fun _ hroot ↦ (nomatch hroot)⟩

theorem onMattermostPost_thread (hmode : s.row.threadMode = .topicPerRoot)
    (h : onMattermostPost s.toService existing mapped (p.view s kind) = some (.ok r)) :
    r.mapping.source = .post p.postId ∧ r.mapping.mmPostId = some p.postId ∧
      r.mapping.mmRootPostId = p.rootId ∧
        (∀ rootId ∈ p.rootId, ∃ m ∈ existing, m.mmPostId = rootId ∧
          r.mapping.tgThreadId = m.tgThreadId) ∧
          Carries r.mapping r.outbox.payload ∧ r.mapping.deliveryStatus = .pending ∧
            r.outbox.status = .pending := by
  unfold onMattermostPost at h
  split_ifs at h
  obtain ⟨event, hevent, hrelay⟩ := map_eq_some_iff.1 h
  obtain ⟨-, target, textOut, htarget, hmapping, houtbox⟩ := relay_ok hrelay
  have hsource : event.source = .post p.postId := postEvent_source hevent
  obtain ⟨-, hroot⟩ := postEvent_view hevent
  rcases resolveTarget_ok htarget with ⟨id, -, hroute⟩ | ⟨id, hmessage, -⟩
  swap
  · rw [hsource] at hmessage
    cases hmessage
  unfold routePost at hroute
  split_ifs at hroute
  rw [hmapping, houtbox]
  simp only [mappingRow, hsource, hroot]
  rw [hroot] at hroute
  cases hrootId : p.rootId with
  | none =>
    have hmode' : s.row.config.tgThreadMode = .topicPerRoot := hmode
    rw [hrootId, hmode'] at hroute
    obtain rfl := Except.ok.inj hroute
    refine ⟨trivial, trivial, trivial, fun _ hr ↦ (nomatch hr), ?_, trivial, rfl⟩
    exact ⟨rfl, rfl, fun _ ↦ ⟨rfl, some_ne_none _⟩, fun hne ↦ absurd rfl hne⟩
  | some rootId =>
    rw [hrootId] at hroute
    dsimp only at hroute
    split at hroute
    · cases hroute
    · rename_i root hfind
      obtain rfl := Except.ok.inj hroute
      have hid : root.mmPostId = rootId := by simpa using List.find?_some hfind
      refine ⟨trivial, trivial, trivial, ?_, ?_, trivial, rfl⟩
      · intro rootId' hmem
        obtain rfl := some.inj hmem
        exact ⟨root, mem_of_find?_eq_some hfind, hid, rfl⟩
      · exact ⟨rfl, rfl, fun hnone ↦ (nomatch hnone), fun _ ↦ rfl⟩

theorem Threaded.admitPost (h : Threaded s w) (hmode : s.row.threadMode = .topicPerRoot)
    (hperm : existing.Perm (completedMappings w.mappings)) (hp : p ∈ w.posts)
    (hr : onMattermostPost s.toService existing mapped (p.view s kind) = some (.ok r)) :
    Admitted w r := by
  obtain ⟨hsource, hpost, hroot, hthread, hcarries, hpending⟩ := onMattermostPost_thread hmode hr
  have hperson : p.author = .person := by
    cases hauthor : p.author with
    | person => rfl
    | bridge =>
      obtain ⟨origin, horigin⟩ := h.loopless.marked.posts p hp hauthor
      exact absurd horigin ((onMattermostPost_ok hr).1 origin)
  refine ⟨?_, hcarries, hpending, ?_, ?_⟩
  · rw [Sourced, hsource]
    exact ⟨hpost, p, hp, rfl, hroot.symm⟩
  · intro root hroot'
    rw [hroot] at hroot'
    obtain ⟨m, hm, hid, hthread'⟩ := hthread root hroot'
    have hjoined := joined_of_completed hperm hm
    -- the row that is found is the row of the root itself
    obtain ⟨c, hc, hmapping⟩ := mem_completed hperm hm
    obtain ⟨hsent, hcpost, -, hcroot, -⟩ := mapping_eq hmapping
    obtain ⟨postId, messageId, hcpost', -, hhas, -⟩ := h.rows.landed c hc hsent
    have hpostId : postId = root := by
      rw [hcpost, hid] at hcpost'
      exact (some.inj hcpost').symm
    rw [hpostId] at hhas
    have hno := hasPost_unique h.loopless hhas (h.platforms.roots p hp hperson root hroot')
    rw [hthread']
    rwa [Mapping.root, ← hcroot, hno, getD_none, hid] at hjoined
  · rintro t ⟨hplatform, -⟩
    rw [hsource] at hplatform
    cases hplatform

theorem Threaded.admitMessage (h : Threaded s w)
    (hperm : existing.Perm (completedMappings w.mappings)) (hm : m ∈ w.messages) (hquiet : w.Owed s
    (messageEvent s.toService (m.inbound s)) (messageKind (m.inbound s)) → mattermostThread existing
    (messageEvent s.toService (m.inbound s)) = none → ∀ t ∈ m.threadId, Quiet w (.message
    m.messageId) t)
    (hr : onTelegramMessage s.toService existing mapped (m.inbound s) = some (.ok r)) :
    Admitted w r := by
  obtain ⟨hsource, hmessage, hthread, hroot, hcarries, hpending⟩ := onTelegramMessage_thread hr
  have hperson : m.author = .person := by
    cases hauthor : m.author with
    | person => rfl
    | bridge => exact absurd (h.loopless.marked.messages m hm hauthor) (onTelegramMessage_ok hr).1
  refine ⟨?_, hcarries, hpending, ?_, ?_⟩
  · rw [Sourced, hsource]
    exact ⟨hmessage, m, hm, rfl, hthread.symm⟩
  · intro root hroot'
    rw [hthread]
    exact h.joined_thread hperm hm hperson (hroot.symm.trans hroot')
  · rintro t ⟨-, hnone, ht⟩
    rw [hroot] at hnone
    rw [hthread] at ht
    rw [hsource]
    exact ⟨h.not_joined_topic hperm ht hnone, hquiet (onTelegramMessage_owed hr) hnone t ht⟩

end

end AgentColab.Bridge
