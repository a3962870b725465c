import AgentColab.Bridge.Routed

/-!
# Topics and roots

Topics and roots correspond one to one, as long as a message that starts a thread is observed when
nothing else is on its way for the topic. Two messages of a new topic that are observed before the
delivery of the first is recorded start a thread each.
-/

namespace AgentColab.Bridge

open List Option

section

variable {s : Setting} {w w' : World}

/-! ## Runs -/

theorem Threaded.edit (h : Threaded s w) {messageId : ℕ} {text : String}
    (hloopless : Loopless s w')
    (hw : w' = { w with
      messages := w.messages.map fun m ↦
        if m.messageId = messageId ∧ m.author = .person then { m with text := text } else m }) :
    Threaded s w' := by
  subst hw
  set f : Message → Message := fun m ↦
    if m.messageId = messageId ∧ m.author = .person then { m with text := text } else m with hf
  have hkept : ∀ m, (f m).messageId = m.messageId ∧ (f m).author = m.author ∧
      (f m).threadId = m.threadId ∧ (f m).replyToMessageId = m.replyToMessageId := by
    intro m
    rw [hf]
    dsimp only
    split_ifs <;> exact ⟨rfl, rfl, rfl, rfl⟩
  have hgrows : Grows w { w with messages := w.messages.map f } :=
    ⟨fun _ hp ↦ hp, fun m hm ↦ ⟨f m, List.mem_map_of_mem hm, (hkept m).1, (hkept m).2.2.1⟩⟩
  refine ⟨hloopless, ⟨?_, h.platforms.roots⟩, h.rows.grow hgrows rfl rfl rfl rfl rfl,
    h.memory.grow hgrows rfl rfl fun o ho ↦ ⟨o, ho, rfl⟩, h.paired.same rfl rfl rfl rfl⟩
  intro m hm hauthor replyTo hreply q hq hid
  obtain ⟨m₀, hm₀, rfl⟩ := List.mem_map.1 hm
  obtain ⟨q₀, hq₀, rfl⟩ := List.mem_map.1 hq
  obtain ⟨hmid, hmauthor, hmthread, hmreply⟩ := hkept m₀
  obtain ⟨hqid, -, hqthread, -⟩ := hkept q₀
  rw [hmauthor] at hauthor
  rw [hmreply] at hreply
  rw [hqid] at hid
  rw [hmthread, hqthread]
  exact h.platforms.replies m₀ hm₀ hauthor replyTo hreply q₀ hq₀ hid

theorem Threaded.step (h : Threaded s w) (hmode : s.row.threadMode = .topicPerRoot)
    {label : Label} (horderly : Orderly s w label) (hstep : w.step s label = some w') :
    Threaded s w' := by
  have hloopless := h.loopless.step hstep
  cases label with
  | post p =>
    rw [World.step] at hstep
    split_ifs at hstep with hp
    obtain rfl := some.inj hstep
    have hgrows : Grows w { w with posts := w.posts ++ [p] } :=
      .of_append [p] [] rfl (append_nil _).symm
    exact ⟨hloopless, h.platforms.addPost hgrows (fun _ ↦ hp.2.2) rfl rfl,
      h.rows.grow hgrows rfl rfl rfl rfl rfl,
      h.memory.grow hgrows rfl rfl fun o ho ↦ ⟨o, ho, rfl⟩, h.paired.same rfl rfl rfl rfl⟩
  | message m =>
    rw [World.step] at hstep
    split_ifs at hstep with hm
    obtain rfl := some.inj hstep
    have hgrows : Grows w { w with messages := w.messages ++ [m] } :=
      .of_append [] [m] (append_nil _).symm rfl
    exact ⟨hloopless, h.platforms.addMessage hgrows hm.2.2.1 (fun _ ↦ hm.2.2.2.2) rfl rfl,
      h.rows.grow hgrows rfl rfl rfl rfl rfl,
      h.memory.grow hgrows rfl rfl fun o ho ↦ ⟨o, ho, rfl⟩, h.paired.same rfl rfl rfl rfl⟩
  | edit =>
    obtain rfl := some.inj hstep
    exact h.edit hloopless rfl
  | observePost i postId kind existing =>
    rw [World.step] at hstep
    split at hstep
    · rename_i p _ hfind
      split_ifs at hstep with hperm
      obtain rfl := some.inj hstep
      exact h.decided hloopless fun r hr ↦
        h.admitPost hmode hperm (mem_of_find?_eq_some hfind) hr
    · cases hstep
  | observeMessage i messageId existing =>
    rw [World.step] at hstep
    split at hstep
    · rename_i m _ hfind
      split_ifs at hstep with hperm
      obtain rfl := some.inj hstep
      have hmem := mem_of_find?_eq_some hfind
      have hid : m.messageId = messageId := by simpa using List.find?_some hfind
      refine h.decided hloopless fun r hr ↦ h.admitMessage hperm hmem ?_ hr
      rw [hid]
      exact horderly m hmem hid
    · cases hstep
  | commit i =>
    rw [World.step] at hstep
    split at hstep
    · cases hstep
    · rename_i r hr
      split_ifs at hstep with hconflict
      · obtain rfl := some.inj hstep
        exact h.shrink hloopless (fun e he ↦ (mem_filter.1 he).1) rfl rfl rfl rfl rfl rfl
      · obtain rfl := some.inj hstep
        exact h.commit (mem_of_lookup hr) hconflict hloopless
  | stop =>
    obtain rfl := some.inj hstep
    exact h.shrink hloopless (fun e he ↦ (mem_filter.1 he).1) rfl rfl rfl rfl rfl rfl
  | createTopic key threadId =>
    rw [World.step] at hstep
    split at hstep
    · rename_i hpayload htopic _
      split_ifs at hstep with hfresh
      obtain rfl := some.inj hstep
      obtain ⟨o, ho, -⟩ := map_eq_some_iff.1 hpayload
      exact h.createTopic hloopless ho htopic hfresh
    · cases hstep
  | sendMessage key messageId =>
    rw [World.step] at hstep
    split at hstep
    · rename_i hpayload _
      split at hstep
      · cases hstep
      · rename_i hthread
        split_ifs at hstep with hfresh
        obtain ⟨o, ho, ho'⟩ := map_eq_some_iff.1 hpayload
        exact h.sendMessage hloopless ho ho' hthread hfresh (some.inj hstep).symm
    · cases hstep
  | createPost key postId userId userIsBot =>
    rw [World.step] at hstep
    split at hstep
    · rename_i hpayload _
      split_ifs at hstep with hfresh
      obtain ⟨o, ho, ho'⟩ := map_eq_some_iff.1 hpayload
      exact h.createPost hloopless ho ho' hfresh (some.inj hstep).symm
    · cases hstep
  | complete key =>
    rw [World.step] at hstep
    split at hstep
    · rename_i o d _ hd
      refine h.recorded hd hloopless (fun o ho ↦ ?_) (fun p hp ↦ ?_) (some.inj hstep).symm
      · obtain ⟨p, hp, hkey, hpayload, ⟨hstatus, -⟩ | ⟨hstatus, -⟩⟩ := setOutbox_row ho
        · exact ⟨p, hp, hkey, hpayload, fun hdead ↦ hstatus ▸ hdead⟩
        · refine ⟨p, hp, hkey, hpayload, fun hdead ↦ ?_⟩
          rw [hstatus] at hdead
          cases hdead
      · obtain ⟨o, ho, hkey, hpayload⟩ := mem_setOutbox hp
        exact ⟨o, ho, hkey, hpayload⟩
    · cases hstep
  | record key =>
    rw [World.step] at hstep
    split at hstep
    · rename_i d hd
      exact h.recorded hd hloopless (fun o ho ↦ ⟨o, ho, rfl, rfl, id⟩)
        (fun p hp ↦ ⟨p, hp, rfl, rfl⟩) (some.inj hstep).symm
    · cases hstep
  | exhaust key =>
    rw [World.step] at hstep
    split at hstep
    · rename_i hnone
      exact h.setStatus hloopless (by decide) horderly (fun _ ↦ hnone) (some.inj hstep).symm
    · cases hstep
  | replay =>
    rw [World.step] at hstep
    split_ifs at hstep with hdead
    obtain ⟨o, ho, rfl, hdead⟩ := hdead
    exact h.setStatus hloopless (by decide) (h.rows.dead o ho hdead).2 (fun hne ↦ by cases hne)
      (some.inj hstep).symm
  | restart =>
    obtain rfl := some.inj hstep
    exact h.restart hloopless

theorem Threaded.start (s : Setting) : Threaded s World.start where
  loopless := .start s
  platforms := ⟨forall_mem_nil _, forall_mem_nil _⟩
  rows := ⟨nodup_nil, forall_mem_nil _, forall_mem_nil _, forall_mem_nil _,
    forall_mem_nil _, forall_mem_nil _, fun _ _ hd ↦ (nomatch hd)⟩
  memory := ⟨fun _ _ ht ↦ (nomatch ht), fun _ _ ht ↦ (nomatch ht), fun _ _ _ ht ↦ (nomatch ht),
    fun _ _ _ hd ↦ (nomatch hd)⟩
  paired := by
    have hnot : ∀ {x root}, ¬Joined World.start x root := fun ⟨_, hr, _⟩ ↦ not_mem_nil hr
    exact ⟨⟨fun h₁ _ ↦ absurd h₁ hnot, fun h₁ _ ↦ absurd h₁ hnot⟩, forall_mem_nil _,
      forall_mem_nil _, forall_mem_nil _, forall_mem_nil _, forall_mem_nil _,
      forall_mem_nil _, forall_mem_nil _⟩

def Post.thread (p : Post) : String := p.rootId.getD p.postId

/-- The mapping of the root itself gives the root its topic. -/
def RootTopic (w : World) (root : String) (threadId : Option ℕ) : Prop :=
  ∃ c ∈ w.mappings, c.deliveryStatus = .sent ∧ c.mmRootPostId = none ∧
    c.mmPostId = some root ∧ c.tgThreadId = threadId

/-- What is promised of the threads of a bridge. -/
structure Correspondence (w : World) : Prop where
  topic : ∀ t root root', Joined w (some t) root → Joined w (some t) root' → root = root'
  root : ∀ x y root, Joined w x root → Joined w y root → x = y
  /-- A relayed post is in the topic of its thread. -/
  posts : ∀ p ∈ w.posts, ∀ r ∈ w.mappings, r.source = .post p.postId → r.deliveryStatus = .sent →
    ∃ m ∈ w.messages, r.tgMessageId = some m.messageId ∧ RootTopic w p.thread m.threadId
  /-- A relayed message is in the thread of its topic. -/
  messages : ∀ m ∈ w.messages, ∀ r ∈ w.mappings, r.source = .message m.messageId →
    r.deliveryStatus = .sent →
      ∃ p ∈ w.posts, r.mmPostId = some p.postId ∧ RootTopic w p.thread m.threadId
  /-- A reply that is not recorded is sent to the topic of its root. -/
  sendPosts : ∀ p ∈ w.posts, ∀ root ∈ p.rootId, ∀ r ∈ w.mappings, r.source = .post p.postId →
    r.deliveryStatus ≠ .sent → ∀ o ∈ w.outbox, o.dedupeKey = r.dedupeKey →
      ∀ chatId text threadId replyTo topic,
        o.payload = .telegramSend chatId text threadId replyTo topic →
          Joined w threadId root ∧ topic = none
  sendMessages : ∀ m ∈ w.messages, ∀ r ∈ w.mappings, r.source = .message m.messageId →
    r.deliveryStatus ≠ .sent → ∀ o ∈ w.outbox, o.dedupeKey = r.dedupeKey →
      ∀ channelId message root origin,
        o.payload = .mattermostPost channelId message (some root) origin → Joined w m.threadId root

theorem hasMessage_unique (h : Loopless s w) {id : ℕ} {x y : Option ℕ}
    (hx : HasMessage w id x) (hy : HasMessage w id y) : x = y := by
  obtain ⟨p, hp, hpid, rfl⟩ := hx
  obtain ⟨q, hq, hqid, rfl⟩ := hy
  rw [inj_on_of_nodup_map h.marked.messageIds hp hq (hpid.trans hqid.symm)]

variable {r : MappingRow}

theorem Threaded.source_post (h : Threaded s w) {p : Post} (hp : p ∈ w.posts) (hr : r ∈ w.mappings)
    (hsource : r.source = .post p.postId) :
    r.mmPostId = some p.postId ∧ r.mmRootPostId = p.rootId := by
  have hsourced := h.rows.sourced r hr
  rw [Sourced, hsource] at hsourced
  exact ⟨hsourced.1, hasPost_unique h.loopless hsourced.2 ⟨p, hp, rfl, rfl⟩⟩

theorem Threaded.source_message (h : Threaded s w) {m : Message} (hm : m ∈ w.messages)
    (hr : r ∈ w.mappings) (hsource : r.source = .message m.messageId) :
    r.tgMessageId = some m.messageId ∧ r.tgThreadId = m.threadId := by
  have hsourced := h.rows.sourced r hr
  rw [Sourced, hsource] at hsourced
  exact ⟨hsourced.1, hasMessage_unique h.loopless hsourced.2 ⟨m, hm, rfl, rfl⟩⟩

theorem Threaded.correspondence (h : Threaded s w) : Correspondence w where
  topic := fun _ _ _ h₁ h₂ ↦ h.paired.oneToOne.right h₁ h₂
  root := fun _ _ _ h₁ h₂ ↦ h.paired.oneToOne.left h₁ h₂
  posts := by
    intro p hp r hr hsource hsent
    obtain ⟨hpost, hroot⟩ := h.source_post hp hr hsource
    obtain ⟨-, messageId, -, hmessage, -, ⟨m, hm, hid, hthread⟩, -⟩ := h.rows.landed r hr hsent
    have hthreadOf : r.root = some p.thread := by
      rw [MappingRow.root, hpost, hroot, Post.thread]
      cases p.rootId <;> rfl
    refine ⟨m, hm, hid ▸ hmessage, ?_⟩
    rw [hthread]
    exact h.paired.rootRow r hr hsent _ hthreadOf
  messages := by
    intro m hm r hr hsource hsent
    obtain ⟨-, hthread⟩ := h.source_message hm hr hsource
    obtain ⟨postId, -, hpost, -, ⟨p, hp, hid, hroot⟩, -⟩ := h.rows.landed r hr hsent
    have hthreadOf : r.root = some p.thread := by
      rw [MappingRow.root, hpost, ← hroot, ← hid, Post.thread]
      cases p.rootId <;> rfl
    refine ⟨p, hp, hid ▸ hpost, ?_⟩
    rw [← hthread]
    exact h.paired.rootRow r hr hsent _ hthreadOf
  sendPosts := by
    intro p hp root hroot r hr hsource hopen o ho hkey chatId text threadId replyTo topic hpayload
    obtain ⟨-, hrootId⟩ := h.source_post hp hr hsource
    have hcarries := h.rows.carries r hr hopen o ho hkey
    rw [hpayload] at hcarries
    obtain ⟨-, hthread, -, htopic⟩ := hcarries
    have hsome : r.mmRootPostId = some root := hrootId.trans hroot
    refine ⟨?_, htopic (by rw [hsome]; exact some_ne_none _)⟩
    rw [← hthread]
    exact h.paired.partner r hr hopen root hsome
  sendMessages := by
    intro m hm r hr hsource hopen o ho hkey channelId message root origin hpayload
    obtain ⟨-, hthread⟩ := h.source_message hm hr hsource
    have hcarries := h.rows.carries r hr hopen o ho hkey
    rw [hpayload] at hcarries
    rw [← hthread]
    exact h.paired.partner r hr hopen root hcarries.2

end

/-- When every message that starts a thread is observed while nothing else is on its way for its
topic, and no recorded delivery is given up, topics and roots correspond one to one. -/
theorem one_to_one_threads {s : Setting} (hmode : s.row.threadMode = .topicPerRoot)
    {ls : List Label} {w : World} (hrun : Run s (Orderly s) World.start ls w) : Correspondence w :=
  (hrun.invariant (fun _ _ _ h horderly hstep ↦ Threaded.step h hmode horderly hstep)
    (.start s)).correspondence

namespace Sample

/-- A root gets a topic, in which a reply comes back, and another reply of the thread follows. -/
def replies : List Label :=
  relayRoot ++ [.complete (key (.post "post-1")),
    .message (message 12 (some 10) false), .observeMessage 1 12 [rootMapping], .commit 1,
    .createPost (key (.message 12)) "post-2" "user-9" true, .complete (key (.message 12)),
    .post (post "post-3" (some "post-1")), .observePost 2 "post-3" "text" [rootMapping,
      { dedupeKey := key (.message 12), mmPostId := "post-2", mmRootId := some "post-1",
        tgMessageId := 12, tgThreadId := some 10 }], .commit 2,
    .sendMessage (key (.post "post-3")) 13, .complete (key (.post "post-3"))]

/-- Two messages of a topic are observed before the delivery of the first is recorded. -/
def twoRoots : List Label :=
  [.message (message 20 (some 20) true), .message (message 21 (some 20) false),
    .message (message 22 (some 20) false), .observeMessage 0 21 [], .commit 0,
    .observeMessage 1 22 [], .commit 1,
    .createPost (key (.message 21)) "post-1" "user-9" true, .complete (key (.message 21)),
    .createPost (key (.message 22)) "post-2" "user-9" true, .complete (key (.message 22))]

end Sample

open Sample

theorem one_to_one_threads_replies : ∃ w, Run setting (Orderly setting) World.start replies w ∧
      w.mappings.map (fun r ↦ (r.tgThreadId, r.root)) =
        [(some 10, some "post-1"), (some 10, some "post-1"), (some 10, some "post-1")] ∧
      Correspondence w := by
  have hrun : ((World.start.runLabels setting (Orderly setting) replies).any
      fun w ↦ w.mappings.map (fun r ↦ (r.tgThreadId, r.root)) =
        [(some 10, some "post-1"), (some 10, some "post-1"), (some 10, some "post-1")]) = true := by
    decide +kernel
  obtain ⟨w, hw, hfacts⟩ := (Option.any_eq_true _ _).1 hrun
  have h := World.run_of_runLabels hw
  exact ⟨w, h, of_decide_eq_true hfacts, one_to_one_threads rfl h⟩

/-- Each of the two messages starts a thread for the topic. -/
theorem two_roots_for_a_topic :
    ¬∀ (s : Setting) (ls : List Label) (w : World), s.row.threadMode = .topicPerRoot →
      Run s (fun _ _ ↦ True) World.start ls w → Correspondence w := by
  intro hall
  have hrun : ((World.start.runLabels setting (fun _ _ ↦ True) twoRoots).any
      fun w ↦ w.mappings.map (fun r ↦ (r.deliveryStatus, r.tgThreadId, r.root)) =
        [(.sent, some 20, some "post-1"), (.sent, some 20, some "post-2")]) = true := by
    decide +kernel
  obtain ⟨w, hw, hfacts⟩ := (Option.any_eq_true _ _).1 hrun
  have hrows := of_decide_eq_true hfacts
  have hjoined : ∀ x ∈ [(DeliveryStatus.sent, some 20, some "post-1"),
      (.sent, some 20, some "post-2")], ∀ root, x = (.sent, some 20, some root) →
        Joined w (some 20) root := by
    intro x hx root hroot
    rw [← hrows] at hx
    obtain ⟨r, hr, rfl⟩ := List.mem_map.1 hx
    simp only [Prod.mk.injEq] at hroot
    exact ⟨r, hr, hroot.1, hroot.2.1, hroot.2.2⟩
  have h := hall setting twoRoots w rfl (World.run_of_runLabels hw)
  have heq := h.topic 20 "post-1" "post-2" (hjoined _ (by simp) _ rfl) (hjoined _ (by simp) _ rfl)
  exact absurd heq (by decide)

end AgentColab.Bridge
