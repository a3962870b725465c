import AgentColab.Bridge.World
import Mathlib.Data.List.Nodup
import Mathlib.Data.List.Perm.Subperm

/-!
# No loop

What the bridge writes carries a mark that is checked when it is observed: its posts in Mattermost
have the hop count 1, and its messages on Telegram come from the bot of the provider instance. So it
does not matter whether the delivery has been recorded when the message comes back.
-/

namespace AgentColab.Bridge

open List Option
open MappingRow (source dedupeKey)

/-! ## Marks -/

variable {event : InboundEvent} {s : Service} {post : PostView} {m : Message} {w w' : World}

theorem relay_ok {redact : String → Redaction} {bridge : BridgeRow} {existing : List Mapping}
    {mapped : Bool} {body kind : String} {attachments : List AttachmentMeta} {r : Relay}
    (h : relay redact bridge existing mapped event body kind attachments = .ok r) :
    checkLoop event = .ok () ∧
      ∃ target textOut, resolveTarget existing bridge.config event = .ok target ∧
        r.mapping = mappingRow event target (mappingKey bridge.bridgeId event.source)
          (redact body).findings ∧ r.outbox = delivery bridge event target textOut
          (mappingKey bridge.bridgeId event.source) := by
  unfold relay at h
  dsimp only at h
  split at h
  · cases h
  split at h
  · cases h
  rename_i hloop
  split at h
  · cases h
  split_ifs at h with hduplicate hcontent
  split at h
  · cases h
  rename_i target htarget
  obtain rfl := Except.ok.inj h
  exact ⟨hloop, target, _, htarget, rfl, rfl⟩

theorem postEvent_source (h : postEvent s post = some event) :
    event.source = .post post.postId := by
  obtain ⟨parsed, -, rfl⟩ := map_eq_some_iff.1 h
  rfl

theorem postEvent_hop {origin : String} (h : postEvent s post = some event)
    (hprops : post.props = some ⟨origin, some 1⟩) : maxHops ≤ event.hopCount := by
  obtain ⟨⟨platform, originId, hop⟩, hparsed, rfl⟩ := map_eq_some_iff.1 h
  have hhop : hop = 1 := by
    rw [hprops] at hparsed
    unfold parseOriginProp at hparsed
    dsimp only at hparsed
    split at hparsed
    · exact (congrArg (·.2.2) (some.inj hparsed)).symm
    · split at hparsed
      · exact (congrArg (·.2.2) (some.inj hparsed)).symm
      · exact (congrArg (·.2.2) (some.inj hparsed)).symm
  subst hhop
  dsimp only
  split_ifs <;> decide

theorem botId_providerInstanceId (b : String) : botId (providerInstanceId b) = b := by
  have hlist : (providerInstanceId b).toList = ['t', 'g', ':'] ++ b.toList := by
    rw [providerInstanceId, String.toList_append]
    rfl
  have hpart : partitionColon (providerInstanceId b) = some ("tg", b) := by
    rw [partitionColon, hlist]
    simp [List.dropWhile, List.takeWhile]
  rw [botId, hpart]

theorem messageEvent_bot (s : Setting) (hbot : m.fromIsBot = true)
    (huser : m.fromUserId = some s.tgBotId) :
    (messageEvent s.toService (m.inbound s)).isBridgeBot = true := by
  have hid : botId s.row.providerInstanceId = s.tgBotId := by
    rw [s.instance_eq, botId_providerInstanceId]
  simp [messageEvent, Message.inbound, hbot, huser, hid]

/-! ## Who wrote what is relayed -/

/-- A person wrote the message. -/
def Written (w : World) : Source → Prop
  | .post id => ∃ p ∈ w.posts, p.postId = id ∧ p.author = .person
  | .message id => ∃ m ∈ w.messages, m.messageId = id ∧ m.author = .person

/-- The identity and the author of what is on the platforms, with the marks of the bridge. -/
structure Marked (s : Setting) (w : World) : Prop where
  posts : ∀ p ∈ w.posts, p.author = .bridge → ∃ origin, p.props = some ⟨origin, some 1⟩
  messages : ∀ m ∈ w.messages, m.author = .bridge →
    m.fromIsBot = true ∧ m.fromUserId = some s.tgBotId
  postIds : (w.posts.map Post.postId).Nodup
  messageIds : (w.messages.map Message.messageId).Nodup

/-- What the tables and the open transactions hold. -/
structure Relayed (s : Setting) (w : World) : Prop where
  relays : ∀ e ∈ w.relays, Written w e.2.mapping.source ∧
    e.2.outbox.dedupeKey = e.2.mapping.dedupeKey ∧
      e.2.mapping.dedupeKey = mappingKey s.row.bridgeId e.2.mapping.source
  mappings : ∀ r ∈ w.mappings, Written w r.source ∧ r.dedupeKey = mappingKey s.row.bridgeId r.source
  sources : (w.mappings.map source).Nodup
  keys : (w.outbox.map OutboxRow.dedupeKey).Nodup
  outbox : ∀ o ∈ w.outbox, ∃ r ∈ w.mappings, r.dedupeKey = o.dedupeKey

/-- What a person wrote stays. -/
def Keeps (w w' : World) : Prop := ∀ source, Written w source → Written w' source

theorem Keeps.of_append (ps : List Post) (ms : List Message) (hposts : w'.posts = w.posts ++ ps)
    (hmessages : w'.messages = w.messages ++ ms) : Keeps w w' := by
  rintro (id | id) ⟨x, hx, hrest⟩
  · exact ⟨x, hposts ▸ mem_append_left _ hx, hrest⟩
  · exact ⟨x, hmessages ▸ mem_append_left _ hx, hrest⟩

theorem Keeps.of_posts {p : Post} (hposts : w'.posts = w.posts ++ [p])
    (hmessages : w'.messages = w.messages) : Keeps w w' :=
  .of_append [p] [] hposts (by rw [hmessages, append_nil])

theorem Keeps.of_messages (hposts : w'.posts = w.posts)
    (hmessages : w'.messages = w.messages ++ [m]) : Keeps w w' :=
  .of_append [] [m] (by rw [hposts, append_nil]) hmessages

theorem Keeps.of_eq (hposts : w'.posts = w.posts) (hmessages : w'.messages = w.messages) :
    Keeps w w' :=
  .of_append [] [] (by rw [hposts, append_nil]) (by rw [hmessages, append_nil])

section

variable {s : Setting} {w w' : World}

theorem Marked.same (h : Marked s w) (hposts : w'.posts = w.posts)
    (hmessages : w'.messages = w.messages) : Marked s w' := by
  obtain ⟨posts, messages⟩ := w'
  obtain rfl : posts = _ := hposts
  obtain rfl : messages = _ := hmessages
  exact ⟨h.posts, h.messages, h.postIds, h.messageIds⟩

theorem Relayed.keep (h : Relayed s w) (hkeeps : Keeps w w') (hrelays : w'.relays = w.relays)
    (hmappings : w'.mappings = w.mappings) (houtbox : w'.outbox = w.outbox) : Relayed s w' where
  relays := fun e he ↦ ⟨hkeeps _ (h.relays e (hrelays ▸ he)).1, (h.relays e (hrelays ▸ he)).2⟩
  mappings := fun r hr ↦
    ⟨hkeeps _ (h.mappings r (hmappings ▸ hr)).1, (h.mappings r (hmappings ▸ hr)).2⟩
  sources := hmappings ▸ h.sources
  keys := houtbox ▸ h.keys
  outbox := fun o ho ↦ hmappings ▸ h.outbox o (houtbox ▸ ho)

variable {p : Post} {m : Message} {key kind : String} {f : MappingRow → MappingRow} {r : Relay}
    {existing : List Mapping} {mapped : Bool} {i : ℕ}

theorem Marked.addPost (h : Marked s w) (hfresh : w.FreshPost p.postId)
    (hp : p.author = .bridge → ∃ origin, p.props = some ⟨origin, some 1⟩)
    (hposts : w'.posts = w.posts ++ [p]) (hmessages : w'.messages = w.messages) : Marked s w' where
  posts := by
    intro q hq
    rw [hposts] at hq
    rcases mem_append.1 hq with hq | hq
    · exact h.posts q hq
    · rw [mem_singleton.1 hq]
      exact hp
  messages := hmessages ▸ h.messages
  postIds := by
    rw [hposts, map_append, nodup_append]
    refine ⟨h.postIds, by simp, ?_⟩
    intro x hx y hy
    obtain ⟨q, hq, rfl⟩ := List.mem_map.1 hx
    obtain rfl : y = p.postId := by simpa using hy
    exact (hfresh q hq).1
  messageIds := hmessages ▸ h.messageIds

theorem Marked.addMessage (h : Marked s w) (hfresh : w.FreshMessage m.messageId)
    (hm : m.author = .bridge → m.fromIsBot = true ∧ m.fromUserId = some s.tgBotId)
    (hposts : w'.posts = w.posts) (hmessages : w'.messages = w.messages ++ [m]) : Marked s w' where
  posts := hposts ▸ h.posts
  messages := by
    intro q hq
    rw [hmessages] at hq
    rcases mem_append.1 hq with hq | hq
    · exact h.messages q hq
    · rw [mem_singleton.1 hq]
      exact hm
  postIds := hposts ▸ h.postIds
  messageIds := by
    rw [hmessages, map_append, nodup_append]
    refine ⟨h.messageIds, by simp, ?_⟩
    intro x hx y hy
    obtain ⟨q, hq, rfl⟩ := List.mem_map.1 hx
    obtain rfl : y = m.messageId := by simpa using hy
    exact (hfresh q hq).1

/-! ## The tables -/

theorem source_complete (d : Delivered) (r : MappingRow) :
    (r.complete d).source = r.source ∧ (r.complete d).dedupeKey = r.dedupeKey := by
  unfold MappingRow.complete
  split_ifs
  · exact ⟨rfl, rfl⟩
  · cases d <;> exact ⟨rfl, rfl⟩

theorem source_setStatus (status : DeliveryStatus) (r : MappingRow) :
    (r.setStatus status).source = r.source ∧ (r.setStatus status).dedupeKey = r.dedupeKey :=
  ⟨rfl, rfl⟩

theorem keys_setOutbox (rows : List OutboxRow) (key : String) (status : DeliveryStatus) :
    (setOutbox rows key status).map OutboxRow.dedupeKey = rows.map OutboxRow.dedupeKey := by
  rw [setOutbox, List.map_map]
  refine map_congr_left fun r _ ↦ ?_
  simp only [Function.comp_apply]
  split_ifs <;> rfl

theorem map_updateMapping {β : Type} {rows : List MappingRow} {g : MappingRow → β}
    (hf : ∀ r, g (f r) = g r) : (updateMapping rows key f).map g = rows.map g := by
  rw [updateMapping, List.map_map]
  refine map_congr_left fun r _ ↦ ?_
  simp only [Function.comp_apply]
  split_ifs
  · exact hf r
  · rfl

theorem Relayed.update (h : Relayed s w)
    (hf : ∀ r, (f r).source = r.source ∧ (f r).dedupeKey = r.dedupeKey)
    (hposts : w'.posts = w.posts) (hmessages : w'.messages = w.messages)
    (hrelays : w'.relays = w.relays) (hmappings : w'.mappings = updateMapping w.mappings key f)
    (houtbox : w'.outbox.map OutboxRow.dedupeKey = w.outbox.map OutboxRow.dedupeKey) :
    Relayed s w' := by
  have hkeeps : Keeps w w' := .of_eq hposts hmessages
  have hrow : ∀ r ∈ w'.mappings, ∃ q ∈ w.mappings, r.source = q.source ∧
      r.dedupeKey = q.dedupeKey := by
    intro r hr
    rw [hmappings] at hr
    obtain ⟨q, hq, rfl⟩ := List.mem_map.1 hr
    refine ⟨q, hq, ?_⟩
    split_ifs
    · exact hf q
    · exact ⟨rfl, rfl⟩
  have hkey : w'.mappings.map dedupeKey = w.mappings.map dedupeKey := by
    rw [hmappings]
    exact map_updateMapping fun r ↦ (hf r).2
  constructor
  · intro e he
    rw [hrelays] at he
    exact ⟨hkeeps _ (h.relays e he).1, (h.relays e he).2⟩
  · intro r hr
    obtain ⟨q, hq, hsource, hdedupe⟩ := hrow r hr
    rw [hsource, hdedupe]
    exact ⟨hkeeps _ (h.mappings q hq).1, (h.mappings q hq).2⟩
  · rw [hmappings, map_updateMapping fun r ↦ (hf r).1]
    exact h.sources
  · rw [houtbox]
    exact h.keys
  · intro o ho
    have hmem : o.dedupeKey ∈ w.outbox.map OutboxRow.dedupeKey := houtbox ▸ List.mem_map_of_mem ho
    obtain ⟨o₀, ho₀, heq⟩ := List.mem_map.1 hmem
    obtain ⟨r, hr, hdedupe⟩ := h.outbox o₀ ho₀
    have hmem' : o.dedupeKey ∈ w'.mappings.map dedupeKey := by
      rw [hkey, ← heq, ← hdedupe]
      exact List.mem_map_of_mem hr
    exact List.mem_map.1 hmem'

theorem not_conflicts {r : MappingRow} (h : ¬w.Conflicts r) :
    ∀ q ∈ w.mappings, q.source ≠ r.source ∧ q.dedupeKey ≠ r.dedupeKey := by
  intro q hq
  constructor
  · exact fun heq ↦ h ⟨q, hq, .inl heq⟩
  · exact fun heq ↦ h ⟨q, hq, .inr heq⟩

theorem Relayed.newKey (h : Relayed s w) (hkeys : r.outbox.dedupeKey = r.mapping.dedupeKey)
    (hconflict : ¬w.Conflicts r.mapping) : ¬∃ q ∈ w.outbox, q.dedupeKey = r.outbox.dedupeKey := by
  rintro ⟨o, ho, heq⟩
  obtain ⟨q, hq, hdedupe⟩ := h.outbox o ho
  exact (not_conflicts hconflict q hq).2 (hdedupe.trans (heq.trans hkeys))

theorem Relayed.insert_outbox (h : Relayed s w) (hkeys : r.outbox.dedupeKey = r.mapping.dedupeKey)
    (hconflict : ¬w.Conflicts r.mapping) :
    (w.insert r).outbox = w.outbox ++ [r.outbox] := if_neg (h.newKey hkeys hconflict)

theorem Relayed.insert (h : Relayed s w) (hwritten : Written w r.mapping.source)
    (hkeys : r.outbox.dedupeKey = r.mapping.dedupeKey)
    (hkey : r.mapping.dedupeKey = mappingKey s.row.bridgeId r.mapping.source)
    (hconflict : ¬w.Conflicts r.mapping) : Relayed s (w.insert r) := by
  have hnew := not_conflicts hconflict
  have hfresh := h.newKey hkeys hconflict
  have houtbox := h.insert_outbox hkeys hconflict
  have hmappings : (w.insert r).mappings = w.mappings ++ [r.mapping] := rfl
  constructor
  · exact h.relays
  · intro q hq
    rw [hmappings] at hq
    rcases mem_append.1 hq with hq | hq
    · exact h.mappings q hq
    · rw [mem_singleton.1 hq]
      exact ⟨hwritten, hkey⟩
  · rw [hmappings, map_append, nodup_append]
    refine ⟨h.sources, by simp, ?_⟩
    intro x hx y hy
    obtain ⟨q, hq, rfl⟩ := List.mem_map.1 hx
    obtain rfl : y = r.mapping.source := by simpa using hy
    exact (hnew q hq).1
  · rw [houtbox, map_append, nodup_append]
    refine ⟨h.keys, by simp, ?_⟩
    intro x hx y hy
    obtain ⟨o, ho, rfl⟩ := List.mem_map.1 hx
    obtain rfl : y = r.outbox.dedupeKey := by simpa using hy
    exact fun heq ↦ hfresh ⟨o, ho, heq⟩
  · intro o ho
    rw [houtbox] at ho
    rcases mem_append.1 ho with ho | ho
    · obtain ⟨q, hq, hdedupe⟩ := h.outbox o ho
      exact ⟨q, hmappings ▸ mem_append_left _ hq, hdedupe⟩
    · rw [mem_singleton.1 ho]
      exact ⟨r.mapping, hmappings ▸ mem_append_right _ (mem_singleton_self _), hkeys.symm⟩

theorem Relayed.ended (h : Relayed s w) (i : ℕ) (source : Source) :
    Relayed s (w.ended i source) where
  relays := fun e he ↦ h.relays e (mem_filter.1 he).1
  mappings := h.mappings
  sources := h.sources
  keys := h.keys
  outbox := h.outbox

theorem decided_platforms (w : World) (i : ℕ) (source : Source) (owed : Bool)
    (outcome : Option (Except String Relay)) : (w.decided i source owed outcome).posts = w.posts ∧
      (w.decided i source owed outcome).messages = w.messages := by
  rcases outcome with _ | e | r <;> exact ⟨rfl, rfl⟩

theorem Relayed.decided (h : Relayed s w) (i : ℕ) (source : Source) (owed : Bool)
    {outcome : Option (Except String Relay)}
    (hok : ∀ r, outcome = some (.ok r) → Written w r.mapping.source ∧
      r.outbox.dedupeKey = r.mapping.dedupeKey ∧
        r.mapping.dedupeKey = mappingKey s.row.bridgeId r.mapping.source) :
    Relayed s (w.decided i source owed outcome) := by
  rcases outcome with _ | e | r
  · exact h
  · exact h.keep (.of_eq rfl rfl) rfl rfl rfl
  · refine ⟨?_, h.mappings, h.sources, h.keys, h.outbox⟩
    intro e he
    rcases mem_cons.1 he with rfl | he
    · exact hok r rfl
    · exact h.relays e he

theorem onMattermostPost_ok
    (h : onMattermostPost s.toService existing mapped (p.view s kind) = some (.ok r)) :
    (∀ origin, p.props ≠ some ⟨origin, some 1⟩) ∧ r.mapping.source = .post p.postId ∧
      r.outbox.dedupeKey = r.mapping.dedupeKey ∧
        r.mapping.dedupeKey = mappingKey s.row.bridgeId r.mapping.source := by
  unfold onMattermostPost at h
  split_ifs at h
  obtain ⟨event, hevent, hrelay⟩ := map_eq_some_iff.1 h
  obtain ⟨hloop, target, textOut, -, hmapping, houtbox⟩ := relay_ok hrelay
  have hsource := postEvent_source hevent
  rw [hmapping, houtbox]
  refine ⟨fun origin hprops ↦ ?_, hsource, rfl, rfl⟩
  exact Int.not_le.2 (checkLoop_ok hloop).2 (postEvent_hop hevent hprops)

theorem onTelegramMessage_ok
    (h : onTelegramMessage s.toService existing mapped (m.inbound s) = some (.ok r)) :
    ¬(m.fromIsBot = true ∧ m.fromUserId = some s.tgBotId) ∧
      r.mapping.source = .message m.messageId ∧ r.outbox.dedupeKey = r.mapping.dedupeKey ∧
          r.mapping.dedupeKey = mappingKey s.row.bridgeId r.mapping.source := by
  unfold onTelegramMessage at h
  split_ifs at h
  have hrelay := some.inj h
  obtain ⟨hloop, target, textOut, -, hmapping, houtbox⟩ := relay_ok hrelay
  rw [hmapping, houtbox]
  refine ⟨fun hbot ↦ ?_, rfl, rfl, rfl⟩
  have hmark := messageEvent_bot s hbot.1 hbot.2
  rw [(checkLoop_ok hloop).1] at hmark
  cases hmark

/-! ## Steps -/

theorem Relayed.observePost (h : Relayed s w) (hmarked : Marked s w) {postId : String}
    (hstep : w.step s (.observePost i postId kind existing) = some w') : Relayed s w' := by
  rw [World.step] at hstep
  split at hstep
  · rename_i p hfree hfind
    split_ifs at hstep
    obtain rfl := some.inj hstep
    have hmem := mem_of_find?_eq_some hfind
    have hid : p.postId = postId := by simpa using List.find?_some hfind
    refine h.decided i _ _ fun r hr ↦ ?_
    obtain ⟨hprops, hsource, hkeys⟩ := onMattermostPost_ok hr
    refine ⟨?_, hkeys⟩
    rw [hsource]
    -- a post of the bridge has the mark
    cases hauthor : p.author with
    | person => exact ⟨p, hmem, rfl, hauthor⟩
    | bridge =>
      obtain ⟨origin, horigin⟩ := hmarked.posts p hmem hauthor
      exact absurd horigin (hprops origin)
  · cases hstep

theorem Relayed.observeMessage (h : Relayed s w) (hmarked : Marked s w) {messageId : ℕ}
    (hstep : w.step s (.observeMessage i messageId existing) = some w') : Relayed s w' := by
  rw [World.step] at hstep
  split at hstep
  · rename_i m hfree hfind
    split_ifs at hstep
    obtain rfl := some.inj hstep
    have hmem := mem_of_find?_eq_some hfind
    refine h.decided i _ _ fun r hr ↦ ?_
    obtain ⟨hbot, hsource, hkeys⟩ := onTelegramMessage_ok hr
    refine ⟨?_, hkeys⟩
    rw [hsource]
    cases hauthor : m.author with
    | person => exact ⟨m, hmem, rfl, hauthor⟩
    | bridge => exact absurd (hmarked.messages m hmem hauthor) hbot
  · cases hstep

theorem Relayed.commit (h : Relayed s w) (hstep : w.step s (.commit i) = some w') :
    Relayed s w' := by
  rw [World.step] at hstep
  split at hstep
  · cases hstep
  · rename_i r hr
    obtain ⟨hwritten, hkeys, hkey⟩ := h.relays _ (mem_of_lookup hr)
    split_ifs at hstep with hconflict
    · obtain rfl := some.inj hstep
      exact h.ended i _
    · obtain rfl := some.inj hstep
      exact (h.insert hwritten hkeys hkey hconflict).ended i _

end

/-- What the platforms and the tables hold, in every state. -/
structure Loopless (s : Setting) (w : World) : Prop where
  marked : Marked s w
  relayed : Relayed s w

/-- Every step keeps the marks of the bridge, and relays only what a person wrote. -/
theorem Loopless.step {s : Setting} {label : Label} (h : Loopless s w)
    (hstep : w.step s label = some w') : Loopless s w' := by
  obtain ⟨hmarked, hrelayed⟩ := h
  cases label with
  | post =>
    rw [World.step] at hstep
    split_ifs at hstep with hp
    obtain rfl := some.inj hstep
    refine ⟨hmarked.addPost hp.2.1 (fun hbridge ↦ ?_) rfl rfl,
      hrelayed.keep (.of_posts rfl rfl) rfl rfl rfl⟩
    rw [hp.1] at hbridge
    cases hbridge
  | message =>
    rw [World.step] at hstep
    split_ifs at hstep with hm
    obtain rfl := some.inj hstep
    refine ⟨hmarked.addMessage hm.2.2.1 (fun hbridge ↦ ?_) rfl rfl,
      hrelayed.keep (.of_messages rfl rfl) rfl rfl rfl⟩
    rw [hm.1] at hbridge
    cases hbridge
  | edit messageId text =>
    obtain rfl := some.inj hstep
    set f : Message → Message := fun m ↦
      if m.messageId = messageId ∧ m.author = .person then { m with text := text } else m
      with hf
    have hkept : ∀ m, (f m).messageId = m.messageId ∧ (f m).author = m.author ∧
        (f m).fromIsBot = m.fromIsBot ∧ (f m).fromUserId = m.fromUserId := by
      intro m
      rw [hf]
      dsimp only
      split_ifs <;> exact ⟨rfl, rfl, rfl, rfl⟩
    refine ⟨⟨hmarked.posts, ?_, hmarked.postIds, ?_⟩, hrelayed.keep ?_ rfl rfl rfl⟩
    · intro m hm hbridge
      obtain ⟨q, hq, rfl⟩ := List.mem_map.1 hm
      obtain ⟨-, hauthor, hbot, huser⟩ := hkept q
      rw [hauthor] at hbridge
      rw [hbot, huser]
      exact hmarked.messages q hq hbridge
    · rw [List.map_map]
      have : Message.messageId ∘ f = Message.messageId := funext fun m ↦ (hkept m).1
      rw [this]
      exact hmarked.messageIds
    · rintro (id | id) ⟨x, hx, hid, hauthor⟩
      · exact ⟨x, hx, hid, hauthor⟩
      · exact ⟨f x, List.mem_map_of_mem hx, (hkept x).1.trans hid, (hkept x).2.1.trans hauthor⟩
  | observePost =>
    have hposts : w'.posts = w.posts ∧ w'.messages = w.messages := by
      rw [World.step] at hstep
      split at hstep
      · split_ifs at hstep
        obtain rfl := some.inj hstep
        exact decided_platforms ..
      · cases hstep
    exact ⟨hmarked.same hposts.1 hposts.2, hrelayed.observePost hmarked hstep⟩
  | observeMessage =>
    have hposts : w'.posts = w.posts ∧ w'.messages = w.messages := by
      rw [World.step] at hstep
      split at hstep
      · split_ifs at hstep
        obtain rfl := some.inj hstep
        exact decided_platforms ..
      · cases hstep
    exact ⟨hmarked.same hposts.1 hposts.2, hrelayed.observeMessage hmarked hstep⟩
  | commit =>
    refine ⟨?_, hrelayed.commit hstep⟩
    rw [World.step] at hstep
    split at hstep
    · cases hstep
    · split_ifs at hstep
      · obtain rfl := some.inj hstep
        exact hmarked.same rfl rfl
      · obtain rfl := some.inj hstep
        exact hmarked.same rfl rfl
  | stop =>
    obtain rfl := some.inj hstep
    exact ⟨hmarked.same rfl rfl, ⟨fun e he ↦ hrelayed.relays e (mem_filter.1 he).1,
      hrelayed.mappings, hrelayed.sources, hrelayed.keys, hrelayed.outbox⟩⟩
  | createTopic =>
    rw [World.step] at hstep
    split at hstep
    · split_ifs at hstep with hfresh
      obtain rfl := some.inj hstep
      exact ⟨hmarked.addMessage hfresh (fun _ ↦ ⟨rfl, rfl⟩) rfl rfl,
        hrelayed.keep (.of_messages rfl rfl) rfl rfl rfl⟩
    · cases hstep
  | sendMessage =>
    rw [World.step] at hstep
    split at hstep
    · split at hstep
      · cases hstep
      · split_ifs at hstep with hfresh
        obtain rfl := some.inj hstep
        exact ⟨hmarked.addMessage hfresh (fun _ ↦ ⟨rfl, rfl⟩) rfl rfl,
          hrelayed.keep (.of_messages rfl rfl) rfl rfl rfl⟩
    · cases hstep
  | createPost =>
    rw [World.step] at hstep
    split at hstep
    · split_ifs at hstep with hfresh
      obtain rfl := some.inj hstep
      exact ⟨hmarked.addPost hfresh (fun _ ↦ ⟨_, rfl⟩) rfl rfl,
        hrelayed.keep (.of_posts rfl rfl) rfl rfl rfl⟩
    · cases hstep
  | complete key =>
    rw [World.step] at hstep
    split at hstep
    · rename_i o d _ _
      obtain rfl := some.inj hstep
      exact ⟨hmarked.same rfl rfl,
        hrelayed.update (source_complete d) rfl rfl rfl rfl (keys_setOutbox _ _ _)⟩
    · cases hstep
  | record key =>
    rw [World.step] at hstep
    split at hstep
    · rename_i d _
      obtain rfl := some.inj hstep
      exact ⟨hmarked.same rfl rfl, hrelayed.update (source_complete d) rfl rfl rfl rfl rfl⟩
    · cases hstep
  | exhaust =>
    rw [World.step] at hstep
    split at hstep
    · obtain rfl := some.inj hstep
      exact ⟨hmarked.same rfl rfl,
        hrelayed.update (source_setStatus _) rfl rfl rfl rfl (keys_setOutbox _ _ _)⟩
    · cases hstep
  | replay =>
    rw [World.step] at hstep
    split_ifs at hstep
    obtain rfl := some.inj hstep
    exact ⟨hmarked.same rfl rfl,
      hrelayed.update (source_setStatus _) rfl rfl rfl rfl (keys_setOutbox _ _ _)⟩
  | restart =>
    obtain rfl := some.inj hstep
    exact ⟨hmarked.same rfl rfl, hrelayed.keep (.of_eq rfl rfl) rfl rfl rfl⟩

theorem Loopless.start (s : Setting) : Loopless s World.start where
  marked := ⟨forall_mem_nil _, forall_mem_nil _, nodup_nil, nodup_nil⟩
  relayed := ⟨forall_mem_nil _, forall_mem_nil _, nodup_nil, nodup_nil, forall_mem_nil _⟩

/-! ## The bound -/

def World.written (w : World) : List Source :=
  (w.posts.filter (·.author = .person)).map (Source.post ·.postId) ++
    (w.messages.filter (·.author = .person)).map (Source.message ·.messageId)

theorem mem_written {source : Source} (h : Written w source) : source ∈ w.written := by
  rw [World.written, mem_append]
  rcases source with id | id
  · obtain ⟨p, hp, rfl, hauthor⟩ := h
    exact .inl (List.mem_map.2 ⟨p, mem_filter.2 ⟨hp, by simpa using hauthor⟩, rfl⟩)
  · obtain ⟨m, hm, rfl, hauthor⟩ := h
    exact .inr (List.mem_map.2 ⟨m, mem_filter.2 ⟨hm, by simpa using hauthor⟩, rfl⟩)

/-- What is promised of a bridge. -/
structure NoLoop (s : Setting) (w : World) : Prop where
  /-- No post that the bridge wrote is relayed. -/
  posts : ∀ p ∈ w.posts, p.author = .bridge → ∀ r ∈ w.mappings, r.source ≠ .post p.postId
  /-- No message that the bridge wrote is relayed. -/
  messages : ∀ m ∈ w.messages, m.author = .bridge → ∀ r ∈ w.mappings,
    r.source ≠ .message m.messageId
  mapping : ∀ source, w.mappings.countP (·.source = source) ≤ 1
  outbox : ∀ source, w.outbox.countP (·.dedupeKey = mappingKey s.row.bridgeId source) ≤ 1
  /-- Every row of the outbox relays a message that is mapped. -/
  relays : ∀ o ∈ w.outbox, ∃ r ∈ w.mappings, o.dedupeKey = mappingKey s.row.bridgeId r.source
  bounded : w.outbox.length ≤ w.mappings.length ∧ w.mappings.length ≤ w.written.length

theorem countP_le_one {α β : Type} [DecidableEq β] {f : α → β} {xs : List α}
    (h : (xs.map f).Nodup) (b : β) : xs.countP (f · = b) ≤ 1 := by
  have hcount := nodup_iff_count_le_one.1 h b
  rw [count_eq_countP, countP_map] at hcount
  refine le_of_eq_of_le (countP_congr fun x _ ↦ ?_) hcount
  simp

theorem Loopless.noLoop {s : Setting} (h : Loopless s w) : NoLoop s w where
  posts := by
    intro p hp hbridge r hr heq
    have hwritten := (h.relayed.mappings r hr).1
    rw [heq] at hwritten
    obtain ⟨q, hq, hid, hperson⟩ := hwritten
    rw [inj_on_of_nodup_map h.marked.postIds hq hp hid, hbridge] at hperson
    cases hperson
  messages := by
    intro m hm hbridge r hr heq
    have hwritten := (h.relayed.mappings r hr).1
    rw [heq] at hwritten
    obtain ⟨q, hq, hid, hperson⟩ := hwritten
    rw [inj_on_of_nodup_map h.marked.messageIds hq hm hid, hbridge] at hperson
    cases hperson
  mapping := countP_le_one h.relayed.sources
  outbox := fun source ↦ countP_le_one h.relayed.keys _
  relays := by
    intro o ho
    obtain ⟨r, hr, hkey⟩ := h.relayed.outbox o ho
    exact ⟨r, hr, hkey.symm.trans (h.relayed.mappings r hr).2⟩
  bounded := by
    constructor
    · have hsub : w.outbox.map OutboxRow.dedupeKey ⊆ w.mappings.map dedupeKey := by
        intro x hx
        obtain ⟨o, ho, rfl⟩ := List.mem_map.1 hx
        obtain ⟨r, hr, hkey⟩ := h.relayed.outbox o ho
        exact List.mem_map.2 ⟨r, hr, hkey⟩
      simpa using (subperm_of_subset h.relayed.keys hsub).length_le
    · have hsub : w.mappings.map source ⊆ w.written := by
        intro x hx
        obtain ⟨r, hr, rfl⟩ := List.mem_map.1 hx
        exact mem_written (h.relayed.mappings r hr).1
      simpa using (subperm_of_subset h.relayed.sources hsub).length_le

/-- In every run the bridge relays nothing of its own, each message at most once, and no more
messages than people have written. -/
theorem no_loop {s : Setting} {w : World} {ls : List Label}
    (hrun : Run s (fun _ _ ↦ True) World.start ls w) : NoLoop s w :=
  (hrun.invariant (fun _ _ _ h _ hstep ↦ Loopless.step h hstep) (.start s)).noLoop

/-- A message in each direction, each observed again where it arrives. -/
def Sample.bothWays : List Label :=
  relayRoot ++ [.observeMessage 1 11 [], .complete (key (.post "post-1")),
    .message (message 12 (some 10) false), .observeMessage 2 12 [rootMapping], .commit 2,
    .createPost (key (.message 12)) "post-2" "user-9" true,
    .observePost 3 "post-2" "text" [rootMapping], .complete (key (.message 12))]

theorem no_loop_both_ways : ∃ w, Run Sample.setting (fun _ _ ↦ True) World.start Sample.bothWays w ∧
      w.mappings.map source = [.post "post-1", .message 12] ∧ NoLoop Sample.setting w := by
  have hrun : ((World.start.runLabels Sample.setting (fun _ _ ↦ True) Sample.bothWays).any fun w ↦
      w.mappings.map source = [.post "post-1", .message 12]) = true := by
    decide +kernel
  obtain ⟨w, hw, hfacts⟩ := (Option.any_eq_true _ _).1 hrun
  have h := World.run_of_runLabels hw
  exact ⟨w, h, of_decide_eq_true hfacts, no_loop h⟩

end AgentColab.Bridge
