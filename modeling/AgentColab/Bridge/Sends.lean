import AgentColab.Bridge.Joined

/-!
# What is sent

A message of a person changes nothing that is joined. The bot creates topics and posts that the
platforms have not used, so that the memory of what has been sent pairs no topic and no root twice.
-/

namespace AgentColab.Bridge

open List

open Function (update update_of_ne update_self)

section

variable {s : Setting} {w w' : World}

/-! ## Steps of the platforms -/

theorem Rows.grow (h : Rows w) (hgrows : Grows w w') (hmappings : w'.mappings = w.mappings)
    (houtbox : w'.outbox = w.outbox) (hrelays : w'.relays = w.relays)
    (htopics : w'.topics = w.topics) (hdelivered : w'.delivered = w.delivered) : Rows w' where
  keys := hmappings ▸ h.keys
  sourced := fun r hr ↦ hgrows.sourced (h.sourced r (hmappings ▸ hr))
  relays := fun e he ↦
    ⟨hgrows.sourced (h.relays e (hrelays ▸ he)).1, (h.relays e (hrelays ▸ he)).2⟩
  carries := by
    rw [hmappings, houtbox]
    exact h.carries
  landed := fun r hr hsent ↦ hgrows.landed (h.landed r (hmappings ▸ hr) hsent)
  dead := by
    rw [hmappings, houtbox, hdelivered]
    exact h.dead
  delivered := by
    intro key d hd
    rw [hdelivered] at hd
    obtain ⟨o, ho, hkey, hrem⟩ := h.delivered key d hd
    exact ⟨o, houtbox ▸ ho, hkey, hgrows.remembers (fun t ht ↦ htopics ▸ ht) hrem⟩

theorem Memory.grow (h : Memory w) (hgrows : Grows w w') (htopics : w'.topics = w.topics)
    (hdelivered : w'.delivered = w.delivered)
    (houtbox : ∀ o ∈ w.outbox, ∃ o' ∈ w'.outbox, o'.dedupeKey = o.dedupeKey) : Memory w' where
  rows := by
    intro key t ht
    obtain ⟨o, ho, hkey⟩ := h.rows key t (htopics ▸ ht)
    obtain ⟨o', ho', hkey'⟩ := houtbox o ho
    exact ⟨o', ho', hkey'.trans hkey⟩
  used := by
    intro key t ht
    obtain ⟨id, hid⟩ := h.used key t (htopics ▸ ht)
    exact ⟨id, hgrows.hasMessage hid⟩
  topics := by
    rw [htopics]
    exact h.topics
  posts := by
    rw [hdelivered]
    exact h.posts

theorem Paired.same (h : Paired w) (hmappings : w'.mappings = w.mappings)
    (hrelays : w'.relays = w.relays) (htopics : w'.topics = w.topics)
    (hdelivered : w'.delivered = w.delivered) : Paired w' := by
  obtain ⟨posts, messages, mappings, outbox, relays, topics, delivered, due⟩ := w'
  obtain rfl : mappings = _ := hmappings
  obtain rfl : relays = _ := hrelays
  obtain rfl : topics = _ := htopics
  obtain rfl : delivered = _ := hdelivered
  exact ⟨h.oneToOne, h.rootRow, h.partner, h.relayPartner, h.alone, h.relayAlone, h.newTopic,
    h.newPost⟩

theorem Platforms.addPost (h : Platforms w) {p : Post} (hgrows : Grows w w')
    (hp : p.author = .person → ∀ rootId ∈ p.rootId, HasPost w rootId none)
    (hposts : w'.posts = w.posts ++ [p]) (hmessages : w'.messages = w.messages) : Platforms w' where
  replies := by
    rw [hmessages]
    exact h.replies
  roots := by
    intro q hq hauthor rootId hroot
    rw [hposts] at hq
    rcases mem_append.1 hq with hq | hq
    · exact hgrows.hasPost (h.roots q hq hauthor rootId hroot)
    · rw [mem_singleton.1 hq] at hauthor hroot
      exact hgrows.hasPost (hp hauthor rootId hroot)

theorem Platforms.addMessage (h : Platforms w) {m : Message} (hgrows : Grows w w')
    (hfresh : w.FreshMessage m.messageId)
    (hm : m.author = .person → ∀ replyTo ∈ m.replyToMessageId, replyTo ≠ m.messageId ∧
      ∀ q ∈ w.messages, q.messageId = replyTo → q.threadId = m.threadId)
    (hposts : w'.posts = w.posts) (hmessages : w'.messages = w.messages ++ [m]) : Platforms w' where
  replies := by
    rw [hmessages]
    intro x hx hauthor replyTo hreply q hq hid
    rcases mem_append.1 hx with hx | hx
    · rcases mem_append.1 hq with hq | hq
      · exact h.replies x hx hauthor replyTo hreply q hq hid
      · rw [mem_singleton.1 hq] at hid
        rw [← hid] at hreply
        exact absurd hreply (hfresh x hx).2.2
    · rw [mem_singleton.1 hx] at hauthor hreply ⊢
      obtain ⟨hne, hthread⟩ := hm hauthor replyTo hreply
      rcases mem_append.1 hq with hq | hq
      · exact hthread q hq hid
      · rw [mem_singleton.1 hq] at hid
        exact absurd hid.symm hne
  roots := by
    intro q hq hauthor rootId hroot
    rw [hposts] at hq
    exact hgrows.hasPost (h.roots q hq hauthor rootId hroot)

theorem Platforms.same (h : Platforms w) (hposts : w'.posts = w.posts)
    (hmessages : w'.messages = w.messages) : Platforms w' where
  replies := hmessages ▸ h.replies
  roots := fun p hp hauthor rootId hroot ↦ (Grows.of_eq hposts hmessages).hasPost
    (h.roots p (hposts ▸ hp) hauthor rootId hroot)

/-! ## Sends -/

theorem not_joined_of_fresh (h : Rows w) {t : ℕ} (hfresh : w.FreshMessage t) (root : String) :
    ¬Joined w (some t) root := by
  rintro ⟨r, hr, hsent, hthread, -⟩
  obtain ⟨postId, messageId, hp, hm', hhas, hmessage, hbridge⟩ := h.landed r hr hsent
  rw [hthread] at hmessage
  obtain ⟨m, hm, hid, hsame⟩ := hmessage
  exact (hfresh m hm).2.1 hsame

theorem not_newRoot_of_fresh {t : ℕ} (hfresh : w.FreshMessage t) {r : MappingRow}
    (hr : Sourced w r) : ¬r.NewRoot t := by
  rintro ⟨hplatform, -, hthread⟩
  unfold Sourced at hr
  split at hr
  · rename_i id hsource
    rw [hsource] at hplatform
    cases hplatform
  · obtain ⟨-, m, hm, -, hm'⟩ := hr
    exact (hfresh m hm).2.1 (hm'.trans hthread)

variable {key : String}

theorem pendingRow_eq {o : OutboxRow} (h : w.pendingRow key = some o) :
    o ∈ w.outbox ∧ o.dedupeKey = key ∧ o.status = .pending := by
  have hp := List.find?_some h
  simp only [decide_eq_true_eq] at hp
  exact ⟨mem_of_find?_eq_some h, hp.1, hp.2⟩

theorem Threaded.createTopic (h : Threaded s w) {key : String} {t : ℕ} {o : OutboxRow}
    (hloopless : Loopless s { w with
      messages := w.messages ++ [topicMessage s t]
      topics := update w.topics key (some t) })
    (ho : w.pendingRow key = some o) (htopic : w.topics key = none)
    (hfresh : w.FreshMessage t) : Threaded s { w with
      messages := w.messages ++ [topicMessage s t]
      topics := update w.topics key (some t) } := by
  have hgrows : Grows w { w with
      messages := w.messages ++ [topicMessage s t]
      topics := update w.topics key (some t) } :=
    .of_append [] [topicMessage s t] (append_nil _).symm rfl
  have hother : ∀ key' t', w.topics key' = some t' →
      update w.topics key (some t) key' = some t' := by
    intro key' t' ht'
    have hne : key' ≠ key := by
      rintro rfl
      rw [htopic] at ht'
      cases ht'
    rw [update_of_ne hne, ht']
  have hcases : ∀ key' t', update w.topics key (some t) key' = some t' →
      w.topics key' = some t' ∨ key' = key ∧ t' = t := by
    intro key' t' ht'
    by_cases hne : key' = key
    · subst hne
      rw [update_self] at ht'
      exact .inr ⟨rfl, (Option.some.inj ht').symm⟩
    · rw [update_of_ne hne] at ht'
      exact .inl ht'
  have hunused : ∀ key', w.topics key' ≠ some t := by
    intro key' ht'
    obtain ⟨id, m, hm, -, hm'⟩ := h.memory.used key' t ht'
    exact (hfresh m hm).2.1 hm'
  have hquiet : ∀ {source t'}, t' ≠ t → Quiet w source t' → Quiet { w with
      messages := w.messages ++ [topicMessage s t]
      topics := update w.topics key (some t) } source t' := by
    rintro source t' hne ⟨hrows, hrelays, htopics⟩
    refine ⟨hrows, hrelays, fun r hr hsent ht' ↦ ?_⟩
    rcases hcases _ _ ht' with ht' | ⟨-, ht'⟩
    · exact htopics r hr hsent ht'
    · exact hne ht'
  refine ⟨hloopless, ?_, ?_, ?_, ?_⟩
  · exact h.platforms.addMessage hgrows hfresh (fun hauthor ↦ by cases hauthor) rfl rfl
  · exact
      { keys := h.rows.keys
        sourced := fun r hr ↦ hgrows.sourced (h.rows.sourced r hr)
        relays := fun e he ↦ ⟨hgrows.sourced (h.rows.relays e he).1, (h.rows.relays e he).2⟩
        carries := h.rows.carries
        landed := fun r hr hsent ↦ hgrows.landed (h.rows.landed r hr hsent)
        dead := h.rows.dead
        delivered := by
          intro key' d hd
          obtain ⟨o, ho, hkey, hrem⟩ := h.rows.delivered key' d hd
          exact ⟨o, ho, hkey, hgrows.remembers (hother key') hrem⟩ }
  · refine ⟨?_, ?_, ?_, h.memory.posts⟩
    · intro key' t' ht'
      rcases hcases key' t' ht' with ht' | ⟨rfl, -⟩
      · exact h.memory.rows key' t' ht'
      · obtain ⟨hmem, hkey, -⟩ := pendingRow_eq ho
        exact ⟨o, hmem, hkey⟩
    · intro key' t' ht'
      rcases hcases key' t' ht' with ht' | ⟨-, rfl⟩
      · obtain ⟨id, hid⟩ := h.memory.used key' t' ht'
        exact ⟨id, hgrows.hasMessage hid⟩
      · exact ⟨t', topicMessage s t', mem_append_right _ (mem_singleton_self _), rfl, rfl⟩
    · intro key₁ key₂ t' h₁ h₂
      rcases hcases key₁ t' h₁ with h₁ | ⟨hk₁, ht₁⟩
      · rcases hcases key₂ t' h₂ with h₂ | ⟨-, ht₂⟩
        · exact h.memory.topics key₁ key₂ t' h₁ h₂
        · exact absurd (ht₂ ▸ h₁) (hunused key₁)
      · rcases hcases key₂ t' h₂ with h₂ | ⟨hk₂, -⟩
        · exact absurd (ht₁ ▸ h₂) (hunused key₂)
        · exact hk₁.trans hk₂.symm
  · refine ⟨h.paired.oneToOne, h.paired.rootRow, h.paired.partner, h.paired.relayPartner,
      ?_, ?_, ?_, h.paired.newPost⟩
    · intro r hr hsent t' ht'
      obtain ⟨hjoined, hq⟩ := h.paired.alone r hr hsent t' ht'
      refine ⟨hjoined, hquiet ?_ hq⟩
      rintro rfl
      exact not_newRoot_of_fresh hfresh (h.rows.sourced r hr) ht'
    · intro e he t' ht'
      rcases h.paired.relayAlone e he t' ht' with hmapped | ⟨hjoined, hq⟩
      · exact .inl hmapped
      · refine .inr ⟨hjoined, hquiet ?_ hq⟩
        rintro rfl
        exact not_newRoot_of_fresh hfresh (h.rows.relays e he).1 ht'
    · intro r hr hsent t' ht'
      rcases hcases _ _ ht' with ht' | ⟨-, rfl⟩
      · exact h.paired.newTopic r hr hsent t' ht'
      · exact not_joined_of_fresh h.rows hfresh

theorem update_cases {β : Type} {f : String → Option β} {key' : String} {d d' : β}
    (h : update f key (some d) key' = some d') :
    f key' = some d' ∧ key' ≠ key ∨ key' = key ∧ d' = d := by
  by_cases hne : key' = key
  · subst hne
    rw [update_self] at h
    exact .inr ⟨rfl, (Option.some.inj h).symm⟩
  · rw [update_of_ne hne] at h
    exact .inl ⟨h, hne⟩

theorem Rows.deliver (h : Rows w) (hrelayed : Relayed s w) {d : Delivered} {o : OutboxRow}
    (hgrows : Grows w w') (ho : w.pendingRow key = some o) (hrem : Remembers w' key o.payload d)
    (hmappings : w'.mappings = w.mappings) (houtbox : w'.outbox = w.outbox)
    (hrelays : w'.relays = w.relays) (htopics : w'.topics = w.topics)
    (hdelivered : w'.delivered = update w.delivered key (some d)) : Rows w' where
  keys := hmappings ▸ h.keys
  sourced := fun r hr ↦ hgrows.sourced (h.sourced r (hmappings ▸ hr))
  relays := fun e he ↦
    ⟨hgrows.sourced (h.relays e (hrelays ▸ he)).1, (h.relays e (hrelays ▸ he)).2⟩
  carries := by
    rw [hmappings, houtbox]
    exact h.carries
  landed := fun r hr hsent ↦ hgrows.landed (h.landed r (hmappings ▸ hr) hsent)
  dead := by
    obtain ⟨hmem, hkey, hpending⟩ := pendingRow_eq ho
    rw [hmappings, houtbox, hdelivered]
    intro q hq hdead
    -- the row of the key is pending
    have hne : q.dedupeKey ≠ key := by
      intro heq
      have := inj_on_of_nodup_map hrelayed.keys hq hmem (heq.trans hkey.symm)
      rw [this, hpending] at hdead
      cases hdead
    rw [update_of_ne hne]
    exact h.dead q hq hdead
  delivered := by
    obtain ⟨hmem, hkey, -⟩ := pendingRow_eq ho
    intro key' d' hd'
    rw [hdelivered] at hd'
    rcases update_cases hd' with ⟨hd', -⟩ | ⟨rfl, rfl⟩
    · obtain ⟨q, hq, hkey', hrem'⟩ := h.delivered key' d' hd'
      exact ⟨q, houtbox ▸ hq, hkey', hgrows.remembers (fun t ht ↦ htopics ▸ ht) hrem'⟩
    · exact ⟨o, houtbox ▸ hmem, hkey, hrem⟩

theorem Threaded.sendMessage (h : Threaded s w) {key text chatId : String}
    {messageThreadId replyTo threadId : Option ℕ} {topic : Option String} {messageId : ℕ}
    {o : OutboxRow} (hloopless : Loopless s w') (ho : w.pendingRow key = some o)
    (hpayload : o.payload = .telegramSend chatId text messageThreadId replyTo topic)
    (hthread : w.threadFor key messageThreadId topic = some threadId)
    (hfresh : w.FreshMessage messageId)
    (hw : w' = { w with
      messages := w.messages ++ [botMessage s text threadId replyTo messageId]
      delivered := update w.delivered key (some (.message threadId messageId)) }) :
    Threaded s w' := by
  have hgrows : Grows w w' :=
    .of_append [] [botMessage s text threadId replyTo messageId]
      (by rw [hw, append_nil]) (by rw [hw])
  have hrem : Remembers w' key o.payload (.message threadId messageId) := by
    rw [hpayload, hw]
    exact ⟨⟨_, mem_append_right _ (mem_singleton_self _), rfl, rfl⟩, hthread⟩
  refine ⟨hloopless, ?_, ?_, ?_, ?_⟩
  · exact h.platforms.addMessage (m := botMessage s text threadId replyTo messageId) hgrows hfresh
      (fun hauthor ↦ by cases hauthor) (by rw [hw]) (by rw [hw])
  · exact h.rows.deliver h.loopless.relayed hgrows ho hrem (by rw [hw]) (by rw [hw]) (by rw [hw])
      (by rw [hw]) (by rw [hw])
  · subst hw
    refine ⟨h.memory.rows, fun key' t ht ↦ ?_, h.memory.topics, fun key₁ key₂ id h₁ h₂ ↦ ?_⟩
    · obtain ⟨id, hid⟩ := h.memory.used key' t ht
      exact ⟨id, hgrows.hasMessage hid⟩
    · rcases update_cases h₁ with ⟨h₁, -⟩ | ⟨-, h₁⟩
      · rcases update_cases h₂ with ⟨h₂, -⟩ | ⟨-, h₂⟩
        · exact h.memory.posts key₁ key₂ id h₁ h₂
        · cases h₂
      · cases h₁
  · subst hw
    refine ⟨h.paired.oneToOne, h.paired.rootRow, h.paired.partner, h.paired.relayPartner,
      h.paired.alone, h.paired.relayAlone, h.paired.newTopic, ?_⟩
    intro r hr hsent id hid
    rcases update_cases hid with ⟨hid, -⟩ | ⟨-, hid⟩
    · exact h.paired.newPost r hr hsent id hid
    · cases hid

theorem Threaded.createPost (h : Threaded s w) {key channelId message origin : String}
    {rootId : Option String} {postId userId : String} {userIsBot : Bool} {o : OutboxRow}
    (hloopless : Loopless s w') (ho : w.pendingRow key = some o)
    (hpayload : o.payload = .mattermostPost channelId message rootId origin)
    (hfresh : w.FreshPost postId)
    (hw : w' = { w with
      posts := w.posts ++ [botPost message rootId origin postId userId userIsBot]
      delivered := update w.delivered key (some (.post postId)) }) : Threaded s w' := by
  have hgrows : Grows w w' :=
    .of_append [botPost message rootId origin postId userId userIsBot] []
      (by rw [hw]) (by rw [hw, append_nil])
  have hrem : Remembers w' key o.payload (.post postId) := by
    rw [hpayload, hw]
    exact ⟨⟨_, mem_append_right _ (mem_singleton_self _), rfl, rfl⟩,
      _, mem_append_right _ (mem_singleton_self _), rfl, rfl⟩
  -- no row and no memory knows the new post
  have hunknown : ∀ {root}, ¬HasPost w postId root := by
    rintro root ⟨p, hp, hid, -⟩
    exact (hfresh p hp).1 hid
  have hforgotten : ∀ key', w.delivered key' ≠ some (.post postId) := by
    intro key' hd
    obtain ⟨q, hq, hkey', hrem'⟩ := h.rows.delivered key' _ hd
    cases hq' : q.payload with
    | telegramSend => rw [hq'] at hrem'; exact hrem'
    | mattermostPost =>
      rw [hq'] at hrem'
      exact hunknown hrem'.1
  refine ⟨hloopless, ?_, ?_, ?_, ?_⟩
  · exact h.platforms.addPost (p := botPost message rootId origin postId userId userIsBot) hgrows
      (fun hauthor ↦ by cases hauthor) (by rw [hw]) (by rw [hw])
  · exact h.rows.deliver h.loopless.relayed hgrows ho hrem (by rw [hw]) (by rw [hw]) (by rw [hw])
      (by rw [hw]) (by rw [hw])
  · subst hw
    refine ⟨h.memory.rows, fun key' t ht ↦ ?_, h.memory.topics, fun key₁ key₂ id h₁ h₂ ↦ ?_⟩
    · obtain ⟨id, hid⟩ := h.memory.used key' t ht
      exact ⟨id, hgrows.hasMessage hid⟩
    · rcases update_cases h₁ with ⟨h₁, -⟩ | ⟨hk₁, h₁⟩
      · rcases update_cases h₂ with ⟨h₂, -⟩ | ⟨-, h₂⟩
        · exact h.memory.posts key₁ key₂ id h₁ h₂
        · rw [h₂] at h₁
          exact absurd h₁ (hforgotten key₁)
      · rcases update_cases h₂ with ⟨h₂, -⟩ | ⟨hk₂, -⟩
        · rw [h₁] at h₂
          exact absurd h₂ (hforgotten key₂)
        · exact hk₁.trans hk₂.symm
  · subst hw
    refine ⟨h.paired.oneToOne, h.paired.rootRow, h.paired.partner, h.paired.relayPartner,
      h.paired.alone, h.paired.relayAlone, h.paired.newTopic, ?_⟩
    intro r hr hsent id hid c hc hcsent hpost
    rcases update_cases hid with ⟨hid, -⟩ | ⟨-, hid⟩
    · exact h.paired.newPost r hr hsent id hid c hc hcsent hpost
    · obtain rfl := Delivered.post.inj hid
      obtain ⟨postId, messageId, hp, hm, hhas, hhas', hbridge⟩ := h.rows.landed c hc hcsent
      rw [hpost] at hp
      obtain rfl := Option.some.inj hp
      exact hunknown hhas

theorem Threaded.restart (h : Threaded s w)
    (hloopless : Loopless s { w with topics := fun _ ↦ none, delivered := fun _ ↦ none }) :
    Threaded s { w with topics := fun _ ↦ none, delivered := fun _ ↦ none } := by
  have hquiet : ∀ {source t}, Quiet w source t →
      Quiet { w with topics := fun _ ↦ none, delivered := fun _ ↦ none } source t :=
    fun hq ↦ ⟨hq.1, hq.2.1, fun _ _ _ ht ↦ (nomatch ht)⟩
  refine ⟨hloopless, h.platforms.same rfl rfl, ?_, ?_, ?_⟩
  · exact ⟨h.rows.keys, h.rows.sourced, h.rows.relays, h.rows.carries, h.rows.landed,
      fun o ho hdead ↦ ⟨rfl, (h.rows.dead o ho hdead).2⟩, fun _ _ hd ↦ (nomatch hd)⟩
  · exact ⟨fun _ _ ht ↦ (nomatch ht), fun _ _ ht ↦ (nomatch ht), fun _ _ _ ht ↦ (nomatch ht),
      fun _ _ _ hd ↦ (nomatch hd)⟩
  · refine ⟨h.paired.oneToOne, h.paired.rootRow, h.paired.partner, h.paired.relayPartner,
      fun r hr hsent t ht ↦ ?_, fun e he t ht ↦ ?_, fun _ _ _ _ ht ↦ (nomatch ht),
      fun _ _ _ _ hd ↦ (nomatch hd)⟩
    · obtain ⟨hjoined, hq⟩ := h.paired.alone r hr hsent t ht
      exact ⟨hjoined, hquiet hq⟩
    · rcases h.paired.relayAlone e he t ht with hmapped | ⟨hjoined, hq⟩
      · exact .inl hmapped
      · exact .inr ⟨hjoined, hquiet hq⟩

end

end AgentColab.Bridge
