import AgentColab.Domain.Text
import AgentColab.Events.Json

/-!
# Two providers for Mattermost

The deliveries for Mattermost are written for a provider that edits posts, answers one user and
shows who speaks. The one that the gateway installs creates a post from whatever it is handed. They
do the same with a delivery exactly when it is a plain post.
-/

namespace AgentColab.Outbox.Mattermost

/-! ## Payloads and operations -/

/-- The members of a `props` object. -/
abbrev Props := List (String × Json)

/-- A payload for Mattermost, with the keys that a provider looks up; `none` is a key that is
absent or `None`. -/
structure Payload where
  message : Option String := none
  props : Option Props := none
  rootId : Option String := none
  postId : Option String := none
  ephemeral : Bool := false
  userId : Option String := none
  dmUserId : Option String := none
  agentDisplayName : Option String := none
  agentIconUrl : Option String := none

/-- The requests to the Mattermost API. -/
inductive Operation where
  | createPost (channelId message : String) (rootId : Option String) (props : Option Props)
  | patchPost (postId message : String) (props : Option Props)
  | ephemeral (userId channelId message : String)
  | directMessage (userId message : String)

/-- `HttpMattermostClient.create_post`: a root or props that are empty are left out. -/
def createPost (channelId message : String) (rootId : Option String) (props : Option Props) :
    Operation :=
  .createPost channelId message (rootId.filter (· ≠ "")) (props.filter (!·.isEmpty))

/-- `destination.split(":", 1)[1]`, where there is a colon. -/
def channelOf (destination : String) : Option String :=
  match destination.toList.dropWhile (· ≠ ':') with
  | [] => none
  | _ :: rest => some (String.ofList rest)

/-- The external operation of `MattermostBridgeProvider.deliver`, for a key that it does not
remember. -/
def bridgeDeliver (destination : String) (payload : Payload) : Except String Operation :=
  match channelOf destination with
  | none => .error "IndexError"
  | some channel =>
    match payload.message with
    | none => .error "KeyError"
    | some message => .ok (createPost channel message payload.rootId payload.props)

/-! ## The channel provider -/

/-- `INJECTED_KEYS` -/
def injectedKeys : List String :=
  ["override_username", "override_icon_url", "display_name", "username", "icon_url"]

inductive Display where
  | override (username : String) (iconUrl : Option String)
  | textPrefix (text : String)

/-- `agent_display_name.strip() or "agent"` -/
def shownName (agentDisplayName : String) : String :=
  if strip agentDisplayName = "" then "agent" else strip agentDisplayName

def agentPrefix (agentDisplayName : String) : String := "[" ++ shownName agentDisplayName ++ "] "

/-- `display_for_agent`, for an instance whose posts may override the name or not. -/
def displayForAgent (overrides : Bool) (agentDisplayName : String) (iconUrl : Option String) :
    Display :=
  if overrides then .override (shownName agentDisplayName) iconUrl
  else .textPrefix (agentPrefix agentDisplayName)

/-- `props[key] = value` -/
def setProp (props : Props) (key : String) (value : Json) : Props :=
  if props.any (·.1 = key) then props.map fun p ↦ if p.1 = key then (key, value) else p
  else props ++ [(key, value)]

/-- `apply_display` -/
def applyDisplay (payload : Payload) : Display → Payload
  | .override username iconUrl =>
    let props := setProp (payload.props.getD []) "override_username" (.str username)
    let props :=
      match iconUrl with
      | none => props
      | some url => if url = "" then props else setProp props "override_icon_url" (.str url)
    { payload with props := some (setProp props "from_webhook" (.str "true")) }
  | .textPrefix text =>
    let message := payload.message.getD ""
    { payload with
      message :=
        if text.toList.isPrefixOf message.toList then payload.message else some (text ++ message) }

/-- `strip_injected_identity`, of which the keys at the top level are not looked up. -/
def stripInjectedIdentity (payload : Payload) : Payload :=
  { payload with props := payload.props.map (·.filter fun p ↦ p.1 ∉ injectedKeys) }

/-- `_prepare` -/
def prepare (overrides : Bool) (payload : Payload) : Payload :=
  match payload.agentDisplayName with
  | none => payload
  | some name =>
    if name = "" then payload
    else
      applyDisplay (stripInjectedIdentity payload)
        (displayForAgent overrides name payload.agentIconUrl)

/-- The external operation of `MattermostChannelProvider.deliver`, for a key that it has not
sent. -/
def channelDeliver (overrides : Bool) (destination : String) (payload : Payload) :
    Except String Operation :=
  let channel := (channelOf destination).getD destination
  let data := prepare overrides payload
  let message := data.message.getD ""
  match data.postId with
  | some postId => .ok (.patchPost postId message data.props)
  | none =>
    if data.ephemeral then
      match data.userId with
      | none => .error "KeyError"
      | some userId => .ok (.ephemeral userId channel message)
    else
      match data.dmUserId.filter (· ≠ "") with
      | some userId => .ok (.directMessage userId message)
      | none => .ok (createPost channel message (data.rootId.filter (· ≠ "")) data.props)

/-! ## What is enqueued -/

/-- The deliveries for Mattermost that are written to the outbox, with the values that they carry.
-/
inductive Enqueuer where
  /-- The card of a new Task. -/
  | card (message : String) (props : Props)
  /-- The link to a Sub-Task in the thread of its parent. -/
  | linkCard (message rootId : String) (props : Props)
  /-- The notice of a schedule run. -/
  | notice (message : String) (props : Props)
  /-- The structured message of a work item. -/
  | workMessage (message : String) (rootId : Option String) (props : Props)
  /-- The card of a Task that has changed. -/
  | cardPatch (postId message : String) (props : Props)
  /-- The reply to a Task Event, which is an Agent's utterance when it has a name. -/
  | reply (message : String) (rootId agentDisplayName : Option String)
  /-- The card of an approval, which is patched once it is posted. -/
  | approvalCard (message : String) (props : Props) (root : Option String)
  /-- The answer to a bot reply that was not accepted. -/
  | ephemeralError (userId message : String) (rootId : Option String)
  /-- The summary of a brainstorm. -/
  | summary (message : String)
  /-- A message that the bridge relays. -/
  | relay (message : String) (rootId : Option String) (props : Props)

def Enqueuer.payload : Enqueuer → Payload
  | .card message props => { message := message, props := some props }
  | .linkCard message rootId props => { message := message, rootId := rootId, props := some props }
  | .notice message props => { message := message, props := some props }
  | .workMessage message rootId props =>
    { message := message, rootId := rootId, props := some props }
  | .cardPatch postId message props => { postId := postId, message := message, props := some props }
  | .reply message rootId agentDisplayName =>
    { message := message, rootId := rootId, agentDisplayName := agentDisplayName }
  | .approvalCard message props root => { message := message, props := some props, postId := root }
  | .ephemeralError userId message rootId =>
    { ephemeral := true, userId := userId, message := message, rootId := rootId }
  | .summary message => { message := message }
  | .relay message rootId props => { message := message, rootId := rootId, props := some props }

/-- A delivery that is a new post and whose author is not shown. -/
def Enqueuer.Plain (overrides : Bool) : Enqueuer → Prop
  | .cardPatch .. => False
  | .approvalCard _ _ root => root = none
  | .ephemeralError .. => False
  | .reply message _ agentDisplayName =>
    ∀ name, agentDisplayName = some name → name ≠ "" →
      overrides = false ∧ (agentPrefix name).toList.isPrefixOf message.toList = true
  | _ => True

def destinationOf (channelId : String) : String := "mattermost:" ++ channelId

@[simp] theorem channelOf_destinationOf (channelId : String) :
    channelOf (destinationOf channelId) = some channelId := by
  have hlist : (destinationOf channelId).toList = "mattermost".toList ++ ':' :: channelId.toList := by
    rw [destinationOf, String.toList_append]
    rfl
  have hdrop : (destinationOf channelId).toList.dropWhile (· ≠ ':') = ':' :: channelId.toList := by
    rw [hlist]
    rfl
  rw [channelOf, hdrop]
  exact congrArg some String.ofList_toList

/-! ## Plain posts -/

variable {p : Payload} {message name : String}

theorem deliver_of_plain_payload (channelId : String) (overrides : Bool)
    (hmessage : p.message = some message) (hpost : p.postId = none)
    (hephemeral : p.ephemeral = false) (hdm : p.dmUserId = none)
    (hprepare : prepare overrides p = p) : bridgeDeliver (destinationOf channelId) p =
      channelDeliver overrides (destinationOf channelId) p := by
  rw [bridgeDeliver, channelDeliver, channelOf_destinationOf, hprepare, hmessage, hpost]
  simp only [Option.getD_some, hephemeral, Bool.false_eq_true, if_false, hdm, Option.filter_none]
  rw [createPost, createPost, Option.filter_filter]
  simp

theorem prepare_of_no_name (h : p.agentDisplayName = none) (overrides : Bool) :
    prepare overrides p = p := by
  rw [prepare, h]

theorem prepare_reply (rootId : Option String) (hname : name ≠ "") (overrides : Bool) :
    prepare overrides (Enqueuer.reply message rootId (some name)).payload =
      applyDisplay (Enqueuer.reply message rootId (some name)).payload
        (displayForAgent overrides name none) := by
  rw [prepare]
  exact if_neg hname

theorem agentPrefix_append_ne (name message : String) : message ≠ agentPrefix name ++ message := by
  intro h
  have hlength := congrArg String.length h
  rw [String.length_append, agentPrefix, String.length_append, String.length_append] at hlength
  have hopen : "[".length = 1 := by decide
  omega

theorem deliver_reply_iff (overrides : Bool) (channelId message : String) (rootId : Option String)
    (hname : name ≠ "") :
    bridgeDeliver (destinationOf channelId) (Enqueuer.reply message rootId (some name)).payload =
        channelDeliver overrides (destinationOf channelId)
          (Enqueuer.reply message rootId (some name)).payload ↔
      overrides = false ∧ (agentPrefix name).toList.isPrefixOf message.toList = true := by
  rw [bridgeDeliver, channelDeliver, channelOf_destinationOf, prepare_reply rootId hname]
  cases overrides with
  | true =>
    -- the props of the channel provider name the author
    refine iff_of_false (fun h ↦ ?_) (nomatch ·.1)
    obtain ⟨-, -, -, hprops⟩ := Operation.createPost.inj (Except.ok.inj h)
    exact nomatch hprops
  | false =>
    by_cases hprefix : (agentPrefix name).toList.isPrefixOf message.toList = true
    · refine iff_of_true ?_ ⟨rfl, hprefix⟩
      simp [Enqueuer.payload, applyDisplay, displayForAgent, createPost, hprefix,
        Option.filter_filter]
    · refine iff_of_false (fun h ↦ ?_) fun h ↦ hprefix h.2
      have hmessage : message = agentPrefix name ++ message := by
        simpa [Enqueuer.payload, applyDisplay, displayForAgent, createPost, hprefix]
          using (Operation.createPost.inj (Except.ok.inj h)).2.1
      exact agentPrefix_append_ne name message hmessage

/-- The provider that is installed makes the same request as the channel provider exactly when the
delivery is plain. -/
theorem installed_honours_iff (overrides : Bool) (channelId : String) (e : Enqueuer) :
    bridgeDeliver (destinationOf channelId) e.payload =
        channelDeliver overrides (destinationOf channelId) e.payload ↔ e.Plain overrides := by
  cases e with
  | cardPatch | ephemeralError =>
    refine iff_of_false (fun h ↦ ?_) id
    rw [bridgeDeliver, channelDeliver, channelOf_destinationOf] at h
    exact nomatch Except.ok.inj h
  | approvalCard _ _ root =>
    cases root with
    | none =>
      exact iff_of_true
        (deliver_of_plain_payload _ _ rfl rfl rfl rfl (prepare_of_no_name rfl _)) rfl
    | some =>
      refine iff_of_false (fun h ↦ ?_) nofun
      rw [bridgeDeliver, channelDeliver, channelOf_destinationOf] at h
      exact nomatch Except.ok.inj h
  | reply message rootId agentDisplayName =>
    cases agentDisplayName with
    | none =>
      exact iff_of_true
        (deliver_of_plain_payload _ _ rfl rfl rfl rfl (prepare_of_no_name rfl _)) nofun
    | some name =>
      by_cases hname : name = ""
      · subst hname
        refine iff_of_true (deliver_of_plain_payload _ _ rfl rfl rfl rfl rfl) ?_
        rintro _ ⟨⟩ hne
        exact absurd rfl hne
      · rw [deliver_reply_iff overrides channelId message rootId hname]
        constructor
        · rintro h _ ⟨⟩ -
          exact h
        · exact fun h ↦ h name rfl hname
  | _ =>
    -- the others carry a message and no author
    exact iff_of_true
      (deliver_of_plain_payload _ _ rfl rfl rfl rfl (prepare_of_no_name rfl _)) trivial

/-- The answer to one user is posted to the whole channel, and the change of a card is a new
post. -/
theorem private_reply_made_public : (∃ rootId props, bridgeDeliver (destinationOf "town")
        (Enqueuer.ephemeralError "user-1" "STALE: not accepted" none).payload =
          .ok (.createPost "town" "STALE: not accepted" rootId props)) ∧
      channelDeliver true (destinationOf "town")
        (Enqueuer.ephemeralError "user-1" "STALE: not accepted" none).payload =
          .ok (.ephemeral "user-1" "town" "STALE: not accepted") ∧
      (∃ rootId props, bridgeDeliver (destinationOf "town")
        (Enqueuer.cardPatch "post-1" "done" []).payload =
          .ok (.createPost "town" "done" rootId props)) ∧
      channelDeliver true (destinationOf "town") (Enqueuer.cardPatch "post-1" "done" []).payload =
          .ok (.patchPost "post-1" "done" (some [])) := by
  refine ⟨⟨none, none, ?_⟩, ?_, ⟨none, none, ?_⟩, ?_⟩
  · rw [bridgeDeliver, channelOf_destinationOf]
    rfl
  · rw [channelDeliver, channelOf_destinationOf]
    rfl
  · rw [bridgeDeliver, channelOf_destinationOf]
    rfl
  · rw [channelDeliver, channelOf_destinationOf]
    rfl

end AgentColab.Outbox.Mattermost
