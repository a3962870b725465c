import AgentColab.Domain.Clock
import AgentColab.Domain.Uuid
import AgentColab.Events.Decoding
import AgentColab.Events.Hashing
import Mathlib.Data.Int.Log
import Mathlib.Data.Rat.Floor
import Mathlib.Data.String.Basic

/-!
# Planning notifications

The rules say which Events are told to whom, and over which channels. What is told is named by a
key: the rule, the recipient, the subject of the Event and the window that it falls into. A rule
without a window has the millisecond of the Event for one, in floating point.

The time zones are a parameter, and so is SHA-256.
-/

namespace AgentColab.Notifications

open AgentColab

/-! ## Floating point -/

/-- The nearest integer, an even one in the middle between two. -/
def roundHalfEven (q : ℚ) : ℤ :=
  let r := q - ⌊q⌋
  if r < 1 / 2 then ⌊q⌋
  else if 1 / 2 < r then ⌊q⌋ + 1
  else if ⌊q⌋ % 2 = 0 then ⌊q⌋ else ⌊q⌋ + 1

/-- The nearest number with 53 significant bits. -/
def binary64 (q : ℚ) : ℚ :=
  if q = 0 then 0
  else
    let ulp : ℚ := 2 ^ (Int.log 2 |q| - 52)
    roundHalfEven (q / ulp) * ulp

/-- `datetime.timestamp` -/
def timestamp (t : Time) : ℚ := binary64 (t / 1000000)

/-- `int` of a float. -/
def truncate (q : ℚ) : ℤ := q.num.tdiv q.den

/-! ## Rules -/

/-- A time zone: the local time of an instant, and the instant of a local time. -/
structure Zone where
  toLocal : Time → ℤ
  toUtc : ℤ → Time

def hour : ℤ := 3600000000

def day : ℤ := 86400000000

/-- The times are microseconds of the day. -/
structure QuietHours where
  start : ℤ
  ends : ℤ
  timezone : String

def QuietHours.deferral (q : QuietHours) (zoneInfo : String → Zone) (now : Time) : Option Time :=
  let zone := zoneInfo q.timezone
  let t := zone.toLocal now % day
  let crossesMidnight : Bool := q.ends ≤ q.start
  let inside : Bool :=
    if !crossesMidnight then q.start ≤ t && t < q.ends else q.start ≤ t || t < q.ends
  if !inside then none
  else
    let endDay :=
      if !crossesMidnight || t < q.ends then zone.toLocal now / day else zone.toLocal now / day + 1
    some (zone.toUtc (endDay * day + q.ends))

structure Reminders where
  atRatio : List ℚ
  atExpiry : Bool

/-- `Rule`, without its version. -/
structure Rule where
  ruleId : String
  eventType : String
  recipientSelectors : List String
  channels : List String
  dedupeWindowSeconds : ℤ := 0
  quietHours : Option QuietHours := none
  reminders : Option Reminders := none
  reNotifyAfterSeconds : Option ℤ := none
  enabled : Bool := true
  /-- Of the pattern of rule ids. -/
  plain : '|' ∉ ruleId.toList := by decide

/-- What `load_rules` accepts. -/
structure RuleSet where
  rules : List Rule
  nodup : (rules.map (·.ruleId)).Nodup

structure Preference where
  muted : Bool := false
  digest : Bool := false

structure Event where
  eventId : String
  workspaceId : String
  type : String
  aggregateType : String
  aggregateId : String
  occurredAt : Time
  expiresAt : Option Time := none

/-- `PER_RECIPIENT_CHANNELS` -/
def perRecipientChannels : List String :=
  ["mattermost:thread", "mattermost:dm", "work_item", "smtp"]

/-- `CHANNEL_POST_CHANNELS` -/
def channelPostChannels : List String :=
  ["mattermost:approval_channel", "mattermost:ops_channel", "mattermost:channel"]

/-! ## Keys -/

/-- `subject_of` -/
def subjectOf (e : Event) : String := e.aggregateType ++ ":" ++ e.aggregateId

/-- `window_bucket` -/
def windowBucket (occurredAt : Time) (windowSeconds : ℤ) : ℤ :=
  if windowSeconds ≤ 0 then truncate (binary64 (timestamp occurredAt * 1000))
  else truncate (timestamp occurredAt) / windowSeconds

/-- What `dedupe_key` hashes. -/
def dedupeText (ruleId : String) (recipient : Uuid) (subject : String) (bucket : ℤ) : List Char :=
  ruleId.toList ++ '|' ::
    (recipient.text.toList ++ '|' :: (subject.toList ++ '|' :: intText bucket))

/-- `dedupe_key` -/
def dedupeKey (sha256 : Digest) (ruleId : String) (recipient : Uuid) (subject : String)
    (bucket : ℤ) : String :=
  sha256 (String.ofList (dedupeText ruleId recipient subject bucket)).toUTF8.data.toList

/-- `next_hour` -/
def nextHour (now : Time) : Time := (now / hour + 1) * hour

/-- `f"digest:{recipient}:{int(deliver_at.timestamp())}"` -/
def digestKey (recipient : Uuid) (deliverAt : Time) : String :=
  String.ofList ("digest:".toList ++ recipient.text.toList ++ ':' ::
    intText (truncate (timestamp deliverAt)))

/-- `reminder_times` -/
def reminderTimes (validFrom expiresAt : Time) (r : Reminders) : List (String × Time) :=
  r.atRatio.map (fun ratio ↦
      (String.ofList ("reminder:".toList ++ intText (truncate (binary64 (ratio * 100)))),
        validFrom + roundHalfEven ((expiresAt - validFrom : ℤ) * ratio))) ++
    if r.atExpiry then [("reminder:expiry", expiresAt)] else []

/-! ## Plans -/

inductive Plan where
  | queued
  | suppressed
  | digest
deriving DecidableEq

/-- `PlannedNotification` -/
structure PlannedNotification where
  ruleId : String
  recipient : Uuid
  channels : List String
  dedupeKey : String
  subject : String
  status : Plan
  deliverAt : Time
  digestKey : Option String := none

/-- What the engine is configured with, and the two parameters. -/
structure Engine where
  ruleSet : RuleSet
  enabledChannels : List String
  zoneInfo : String → Zone
  sha256 : Digest

structure Reading where
  recipientsBySelector : String → List Uuid
  preferences : Uuid → Preference

/-- `match_rules` -/
def Engine.matchRules (engine : Engine) (type : String) : List Rule :=
  engine.ruleSet.rules.filter fun r ↦ r.enabled && r.eventType = type

/-- The recipients of a rule, each of them once and in order. -/
def Reading.recipients (reading : Reading) (rule : Rule) : List Uuid :=
  ((rule.recipientSelectors.flatMap reading.recipientsBySelector).dedup).insertionSort
    fun a b ↦ a.text ≤ b.text

/-- The channels of a rule that go to a recipient. -/
def Engine.channels (engine : Engine) (rule : Rule) : List String :=
  rule.channels.filter fun c ↦ c ∈ perRecipientChannels && c ∈ engine.enabledChannels

/-- The body of the loops of `plan_notifications`. -/
def Engine.plan (engine : Engine) (reading : Reading) (e : Event) (now : Time) (rule : Rule)
    (recipient : Uuid) : PlannedNotification :=
  let pref := reading.preferences recipient
  let planned : PlannedNotification :=
    { ruleId := rule.ruleId
      recipient := recipient
      channels := engine.channels rule
      dedupeKey := Notifications.dedupeKey engine.sha256 rule.ruleId recipient (subjectOf e)
        (windowBucket e.occurredAt rule.dedupeWindowSeconds)
      subject := subjectOf e
      status := .queued
      deliverAt := now }
  if pref.muted || (engine.channels rule).isEmpty then { planned with status := .suppressed }
  else if pref.digest then
    { planned with
      status := .digest
      deliverAt := nextHour now
      digestKey := some (Notifications.digestKey recipient (nextHour now)) }
  else
    match rule.quietHours.bind (·.deferral engine.zoneInfo now) with
    | some deferred => { planned with deliverAt := deferred }
    | none => planned

/-- The plans without those whose key has been planned already. -/
def unseen : List PlannedNotification → List String → List PlannedNotification
  | [], _ => []
  | p :: ps, seen =>
    if p.dedupeKey ∈ seen then unseen ps seen else p :: unseen ps (p.dedupeKey :: seen)

/-- `plan_notifications` -/
def Engine.planNotifications (engine : Engine) (reading : Reading) (e : Event) (now : Time) :
    List PlannedNotification :=
  unseen ((engine.matchRules e.type).flatMap fun rule ↦
    (reading.recipients rule).map (engine.plan reading e now rule)) []

end AgentColab.Notifications
